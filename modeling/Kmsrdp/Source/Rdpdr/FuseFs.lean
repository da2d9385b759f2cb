import Kmsrdp.Source.Rdpdr.Requests

/-!
# The file system operations of a drive mount

Model of `kmsrdp/src/rdpdr_fuse/fs.rs`. An operation starts from the active bridge and device of the
mount, its `Site`. A name that is not UTF-8 is `none`, and `room` is how many entries fit into the
answer of `readdir`. Operations that touch neither the tables nor the client are left out.
-/
namespace Kmsrdp.Source.Rdpdr
open Library.ByteString Library.Effects

structure RenameFlags where
  (whiteout exchange noreplace : Bool)

structure SetAttr where
  (mode uid gid size : Option Nat)
  (atime mtime ctime : Option Int)
  fh : Option Nat
  (crtime chgtime : Option Int)

structure DirItem where
  ino : Nat
  offset : Nat
  isDir : Bool
  name : List Char

inductive Operation where
  | lookup (parent : Nat) (name : Option (List Char))
  | getattr (ino : Nat)
  | opendir (ino : Nat)
  | readdir (ino fh offset room : Nat)
  | releasedir (fh : Nat)
  | openFile (ino : Nat) (write truncate : Bool)
  | read (fh offset size : Nat)
  | write (ino fh offset : Nat) (data : Bytes)
  | release (fh : Nat)
  | create (parent : Nat) (name : Option (List Char)) (mode umask : Nat) (write : Bool)
  | mkdir (parent : Nat) (name : Option (List Char)) (mode umask : Nat)
  | unlink (parent : Nat) (name : Option (List Char))
  | rmdir (parent : Nat) (name : Option (List Char))
  | rename (parent : Nat) (name : Option (List Char)) (newparent : Nat) (newname : Option (List Char))
      (flags : RenameFlags)
  | setattr (ino : Nat) (changes : SetAttr)

inductive FuseReply where
  | entry (attr : FileAttr)
  | attr (attr : FileAttr)
  | opened (fh : Nat)
  | directory (items : List DirItem)
  | data (bytes : Bytes)
  | written (count : Nat)
  | created (attr : FileAttr) (fh : Nat)
  | ok

def pathOf (site : Site) (ino : Nat) : Fuse WinPath := do
  orElse ((← get).bridge.pathFor site.deviceId ino) .enoent

def handleOf (fh : Nat) : Fuse OpenHandle := do
  orElse ((← get).bridge.opens.lookup fh) .ebadf

def childOf (site : Site) (parent : Nat) (name : Option (List Char)) : Fuse WinPath := do
  let parentPath ← pathOf site parent
  let name ← orElse name .einval
  orElse (joinWin parentPath name) .einval

def recordOpen (site : Site) (fileId : Nat) : Fuse Nat := do
  let fh ← onBridge fun b =>
    (b.nextFh,
      { b with nextFh := b.nextFh + 1, opens := b.opens.insert b.nextFh ⟨site.deviceId, fileId⟩ })
  answerHandle site fh ⟨site.deviceId, fileId⟩
  pure fh

def lookup (site : Site) (parent : Nat) (name : Option (List Char)) : Fuse FuseReply := do
  let parentPath ← pathOf site parent
  let name ← orElse name .einval
  let attr ← lookupChild site.deviceId parentPath name
  (joinWin parentPath name).forM fun path => answerInode site path attr.ino
  pure (.entry attr)

def replyAttr (site : Site) (path : WinPath) (attr : FileAttr) : Fuse FuseReply := do
  answerInode site path attr.ino
  pure (.attr attr)

def replyCached (site : Site) (path : WinPath) : Fuse FuseReply := do
  let attr ← orElse (← attrFor site.deviceId path) .enoent
  replyAttr site path attr

def getattr (site : Site) (ino : Nat) : Fuse FuseReply := do
  let path ← pathOf site ino
  match ← attrFor site.deviceId path with
  | some attr => replyAttr site path attr
  | none =>
    if path = rootPath then
      updateBridge fun b => b.ensureRootIno site.deviceId
      match ← attrFor site.deviceId path with
      | some attr => replyAttr site path attr
      | none =>
        let _ ← attempt (refreshDir site.deviceId (parentOf path))
        replyCached site path
    else
      let _ ← attempt (refreshDir site.deviceId (parentOf path))
      replyCached site path

def opendir (site : Site) (ino : Nat) : Fuse FuseReply := do
  let path ← pathOf site ino
  let fileId ← submitCreate site.deviceId path genericRead fileOpen fileDirectoryFile
  return .opened (← recordOpen site fileId)

def listChildren (site : Site) (path : WinPath) :
    List DirectoryEntry → Nat → Fuse (List (WinPath × DirItem))
  | [], _ => pure []
  | entry :: listed, offset => do
    let name := Bridge.trimEndNul entry.fileName
    match joinWin path name with
    | none => listChildren site path listed offset
    | some child =>
      let ino ← onBridge fun b => b.inodeFor site.deviceId child
      let rest ← listChildren site path listed (offset + 1)
      pure ((child, ⟨ino, offset, Bridge.isDirectory entry.fileAttributes, name⟩) :: rest)

def dotItem (path : WinPath) (ino offset : Nat) : List (WinPath × DirItem) :=
  if offset = 0 then [(path, ⟨ino, 1, true, ['.']⟩)] else []

def parentItem (site : Site) (path : WinPath) (ino : Nat) : Fuse (WinPath × DirItem) := do
  let parentIno ←
    if path = rootPath then pure ino
    else onBridge fun b => b.inodeFor site.deviceId (parentOf path)
  pure (parentOf path, ⟨parentIno, 2, true, ['.', '.']⟩)

def replyDirectory (site : Site) (items : List (WinPath × DirItem)) : Fuse FuseReply := do
  items.forM fun item => answerInode site item.1 item.2.ino
  pure (.directory (items.map (·.2)))

def readdir (site : Site) (ino fh offset room : Nat) : Fuse FuseReply := do
  let path ← pathOf site ino
  let handle ← handleOf fh
  let listed ← enumerateDirectory site.deviceId path handle.fileId
  let children ← listChildren site path listed 3
  let dot := dotItem path ino offset
  -- the answer is full before the second entry is looked at
  if room < dot.length then
    replyDirectory site []
  else if offset ≤ 1 then
    let dotdot ← parentItem site path ino
    replyDirectory site ((dot ++ dotdot :: children).take room)
  else
    replyDirectory site ((children.drop (offset - 2)).take room)

def release (fh : Nat) : Fuse FuseReply := do
  match ← onBridge fun b => (b.opens.lookup fh, { b with opens := b.opens.erase fh }) with
  | some handle =>
    let _ ← attempt (submitClose handle.deviceId handle.fileId)
    pure .ok
  | none => pure .ok

def accessFor (write : Bool) : Nat :=
  if write then genericRead ||| genericWrite ||| synchronize else genericRead ||| synchronize

def openFile (site : Site) (ino : Nat) (write truncate : Bool) : Fuse FuseReply := do
  let path ← pathOf site ino
  let fileId ← submitCreate site.deviceId path (accessFor write)
    (if truncate then fileOverwriteIf else fileOpen) fileSynchronousIoNonalert
  return .opened (← recordOpen site fileId)

def read (fh offset size : Nat) : Fuse FuseReply := do
  let handle ← handleOf fh
  return .data (← submitRead handle.deviceId handle.fileId size offset)

def write (ino fh offset : Nat) (data : Bytes) : Fuse FuseReply := do
  let handle ← handleOf fh
  let count ← submitWrite handle.deviceId handle.fileId offset data
  updateBridge fun b =>
    match b.pathFor handle.deviceId ino with
    | some path =>
      b.updateMeta handle.deviceId path fun cached =>
        { cached with size := max cached.size (min (offset + count) (2 ^ 64 - 1)) }
    | none => b
  pure (.written count)

def modeUnder (mode umask : Nat) : Nat := mode &&& (0xFFFFFFFF ^^^ umask) &&& 0o7777

def cacheFresh (site : Site) (path : WinPath) (isDir : Bool) (mode umask : Nat) : Fuse Unit :=
  updateBridge fun b =>
    { b with
      metas := b.metas.insert (site.deviceId, path) (.fresh isDir b.uid b.gid (modeUnder mode umask)) }

def create (site : Site) (parent : Nat) (name : Option (List Char)) (mode umask : Nat)
    (write : Bool) :
    Fuse FuseReply := do
  let path ← childOf site parent name
  let fileId ← submitCreate site.deviceId path (accessFor write) fileOpenIf fileSynchronousIoNonalert
  cacheFresh site path false mode umask
  let attr ← orElse (← attrFor site.deviceId path) .eio
  answerInode site path attr.ino
  return .created attr (← recordOpen site fileId)

def mkdir (site : Site) (parent : Nat) (name : Option (List Char)) (mode umask : Nat) :
    Fuse FuseReply := do
  let path ← childOf site parent name
  let fileId ← submitCreate site.deviceId path (genericRead ||| synchronize) fileCreate
    (fileDirectoryFile ||| fileSynchronousIoNonalert)
  let _ ← attempt (submitClose site.deviceId fileId)
  cacheFresh site path true mode umask
  let attr ← orElse (← attrFor site.deviceId path) .eio
  answerInode site path attr.ino
  pure (.entry attr)

def unlink (site : Site) (parent : Nat) (name : Option (List Char)) : Fuse FuseReply := do
  let path ← childOf site parent name
  deletePath site.deviceId path false
  pure .ok

def rmdir (site : Site) (parent : Nat) (name : Option (List Char)) : Fuse FuseReply := do
  let path ← childOf site parent name
  ensureDirEmpty site.deviceId path
  deletePath site.deviceId path true
  pure .ok

def rename (site : Site) (parent : Nat) (name : Option (List Char)) (newparent : Nat)
    (newname : Option (List Char)) (flags : RenameFlags) : Fuse FuseReply := do
  let parentPath ← pathOf site parent
  let newParentPath ← pathOf site newparent
  let name ← orElse name .einval
  let newname ← orElse newname .einval
  let oldPath ← orElse (joinWin parentPath name) .einval
  let newPath ← orElse (joinWin newParentPath newname) .einval
  if flags.whiteout then
    throw .enotsup
  else if flags.exchange then
    exchangePaths site oldPath newPath
    pure .ok
  else
    let destExists ← pathExists site.deviceId newPath
    if flags.noreplace ∧ destExists then
      throw .eexist
    else
      renamePath site oldPath newPath destExists
      pure .ok

def setattrFile (site : Site) (path : WinPath) (changes : SetAttr) : Fuse (OpenHandle × Bool) := do
  let s ← get
  match changes.fh.bind fun fh => s.bridge.opens.lookup fh with
  | some handle => pure (handle, false)
  | none =>
    let access :=
      if changes.size.isSome then genericWrite ||| fileWriteAttributes ||| synchronize
      else fileWriteAttributes ||| synchronize
    let fileId ← submitCreate site.deviceId path access fileOpen fileSynchronousIoNonalert
    pure (⟨site.deviceId, fileId⟩, true)

def SetAttr.needTimes (changes : SetAttr) : Bool :=
  changes.atime.isSome || changes.mtime.isSome || changes.ctime.isSome || changes.crtime.isSome ||
    changes.chgtime.isSome

def setattrSize (site : Site) (path : WinPath) (changes : SetAttr) (handle : OpenHandle) :
    Fuse Unit :=
  match changes.size with
  | none => pure ()
  | some size => do
    submitSetInformation handle.deviceId handle.fileId (.endOfFile size)
    updateBridge fun b => b.updateMeta site.deviceId path fun cached => { cached with size := size }

def setattrTimes (changes : SetAttr) (handle : OpenHandle) : Fuse Unit :=
  if changes.needTimes then
    submitSetInformation handle.deviceId handle.fileId
      (.basic (changes.crtime.getD 0) (changes.atime.getD 0) (changes.mtime.getD 0)
        ((changes.chgtime.or changes.ctime).getD 0))
  else pure ()

def setattrRequests (site : Site) (path : WinPath) (changes : SetAttr) (handle : OpenHandle) :
    Fuse Unit := do
  setattrSize site path changes handle
  setattrTimes changes handle

def setattr (site : Site) (ino : Nat) (changes : SetAttr) : Fuse FuseReply := do
  let path ← pathOf site ino
  updateBridge fun b =>
    if changes.mode.isSome ∨ changes.uid.isSome ∨ changes.gid.isSome then
      b.applyLocalAttrs site.deviceId path changes.mode changes.uid changes.gid
    else b
  if changes.size.isSome ∨ changes.needTimes then
    let file ← setattrFile site path changes
    let result ← attempt (setattrRequests site path changes file.1)
    let _ ← attempt (if file.2 then submitClose file.1.deviceId file.1.fileId else pure ())
    match result with
    | .error e => throw e
    | .ok () => replyCached site path
  else
    replyCached site path

def Operation.perform (site : Site) : Operation → Fuse FuseReply
  | lookup parent name => Rdpdr.lookup site parent name
  | getattr ino => Rdpdr.getattr site ino
  | opendir ino => Rdpdr.opendir site ino
  | readdir ino fh offset room => Rdpdr.readdir site ino fh offset room
  | releasedir fh => Rdpdr.release fh
  | openFile ino writing truncate => Rdpdr.openFile site ino writing truncate
  | read fh offset size => Rdpdr.read fh offset size
  | write ino fh offset data => Rdpdr.write ino fh offset data
  | release fh => Rdpdr.release fh
  | create parent name mode umask writing => Rdpdr.create site parent name mode umask writing
  | mkdir parent name mode umask => Rdpdr.mkdir site parent name mode umask
  | unlink parent name => Rdpdr.unlink site parent name
  | rmdir parent name => Rdpdr.rmdir site parent name
  | rename parent name newparent newname flags => Rdpdr.rename site parent name newparent newname flags
  | setattr ino changes => Rdpdr.setattr site ino changes

end Kmsrdp.Source.Rdpdr
