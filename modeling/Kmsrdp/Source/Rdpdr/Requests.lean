import Kmsrdp.Source.Rdpdr.Bridge

/-!
# Requests of the bridge to the client

Model of the blocking half of `kmsrdp/src/rdpdr_fuse/bridge.rs`: each `submit_*` sends one command
and waits for its completion.
-/
namespace Kmsrdp.Source.Rdpdr
open Library.ByteString Library.Effects

structure VisitOrder where
  order : Nat → List PathEntry → List PathEntry
  perm : ∀ time entries, (order time entries).Perm entries

def VisitOrder.asListed : VisitOrder := ⟨fun _ entries => entries, fun _ _ => .refl _⟩

/-- What an operation works on: the bridge, the history of the mount's kernel, what the client
will answer and what has been sent to it. -/
structure FuseState where
  bridge : Bridge
  kernel : Kernel
  visits : VisitOrder
  replies : List ClientReply
  sent : List DriveCommand

abbrev Fuse (α : Type) := Effect FuseState Errno α

def onBridge {α : Type} (f : Bridge → α × Bridge) : Fuse α :=
  modifyGet fun s => ((f s.bridge).1, { s with bridge := (f s.bridge).2 })

def updateBridge (f : Bridge → Bridge) : Fuse Unit :=
  modify fun s => { s with bridge := f s.bridge }

def answerInode (site : Site) (path : WinPath) (number : Nat) : Fuse Unit :=
  modify fun s => { s with kernel := s.kernel.hasInode site number path }

def answerHandle (site : Site) (number : Nat) (handle : OpenHandle) : Fuse Unit :=
  modify fun s => { s with kernel := s.kernel.hasHandle site number handle }

def allocTag : Fuse Nat := onBridge fun b => (b.nextTag, { b with nextTag := b.nextTag + 1 })

def submit (command : Nat → DriveCommand) : Fuse ClientReply := do
  let tag ← allocTag
  modifyGet fun s =>
    (s.replies.headD .disconnected,
      { s with replies := s.replies.tail, sent := s.sent ++ [command tag] })

def submitCreate (deviceId : Nat) (path : WinPath)
    (desiredAccess createDisposition createOptions : Nat) :
    Fuse Nat := do
  match ← submit (.create deviceId path desiredAccess createDisposition createOptions) with
  | .create (.ok fileId) => pure fileId
  | .create (.error status) => throw (ntstatusToErrno status)
  | .timeout => throw .etimedout
  | _ => throw .eio

def submitFor {α : Type} (command : Nat → DriveCommand)
    (completion : ClientReply → Option (Except Nat α)) : Fuse α := do
  match completion (← submit command) with
  | some (.ok a) => pure a
  | some (.error status) => throw (ntstatusToErrno status)
  | none => throw .eio

def submitClose (deviceId fileId : Nat) : Fuse Unit :=
  submitFor (.close deviceId fileId) fun
    | .close status => some (if status = 0 then .ok () else .error status)
    | _ => none

def submitRead (deviceId fileId length offset : Nat) : Fuse Bytes :=
  submitFor (.read deviceId fileId length offset) fun
    | .read result => some result
    | _ => none

def submitWrite (deviceId fileId offset : Nat) (data : Bytes) : Fuse Nat :=
  submitFor (.write deviceId fileId offset data) fun
    | .write result => some result
    | _ => none

def submitQueryDir (deviceId fileId : Nat) (path : Option WinPath) : Fuse (Option DirectoryEntry) :=
  submitFor (.queryDirectory deviceId fileId path) fun
    | .queryDir result => some result
    | _ => none

def submitSetInformation (deviceId fileId : Nat) (info : SetInfo) : Fuse Unit :=
  submitFor (.setInformation deviceId fileId info) fun
    | .setInfo result => some result
    | _ => none

def deletePath (deviceId : Nat) (path : WinPath) (isDir : Bool) : Fuse Unit := do
  let kind := if isDir then fileDirectoryFile else fileNonDirectoryFile
  let created ← attempt (submitCreate deviceId path (deleteAccess ||| fileReadData ||| synchronize)
    fileOpen (kind ||| fileDeleteOnClose ||| fileSynchronousIoNonalert))
  let fileId ←
    match created with
    | .ok fileId => pure fileId
    | .error _ =>
      submitCreate deviceId path (deleteAccess ||| synchronize) fileOpen
        (kind ||| fileSynchronousIoNonalert)
  let _ ← attempt (submitSetInformation deviceId fileId (.disposition true))
  submitClose deviceId fileId
  updateBridge fun b => b.forgetPath deviceId path

def remapPath (site : Site) (oldPath newPath : WinPath) : Fuse Unit :=
  modify fun s =>
    { s with
      bridge :=
        s.bridge.remapPath (s.visits.order s.bridge.nextTag s.bridge.pathToIno.entries) site.deviceId
          oldPath newPath
      kernel := s.kernel.moved site oldPath newPath }

def renamePath (site : Site) (oldPath newPath : WinPath) (replaceIfExists : Bool) : Fuse Unit := do
  let fileId ← submitCreate site.deviceId oldPath (fileReadData ||| synchronize) fileOpen
    fileSynchronousIoNonalert
  let result ← attempt (submitSetInformation site.deviceId fileId (.rename newPath replaceIfExists))
  let _ ← attempt (submitClose site.deviceId fileId)
  match result with
  | .ok () => remapPath site oldPath newPath
  | .error e => throw e

def exchangeName (pathA : WinPath) (tag : Nat) : WinPath :=
  parentOf pathA ++ "\\.__kmsrdp_xchg_".toList ++ Nat.toDigits 10 tag

def exchangePaths (site : Site) (pathA pathB : WinPath) : Fuse Unit := do
  let tag ← allocTag
  renamePath site pathA (exchangeName pathA tag) false
  match ← attempt (renamePath site pathB pathA false) with
  | .ok () => renamePath site (exchangeName pathA tag) pathB false
  | .error e =>
    let _ ← attempt (renamePath site (exchangeName pathA tag) pathA false)
    throw e

/-- The loop of `enumerate_directory`. Each turn takes one reply, so more turns than there are
replies are not made. -/
def enumerateLoop (deviceId : Nat) (parent : WinPath) (fileId : Nat) :
    Nat → Option WinPath → Fuse (List DirectoryEntry)
  | 0, _ => throw .eio
  | turns + 1, first => do
    match ← submitQueryDir deviceId fileId first with
    | none => pure []
    | some entry =>
      updateBridge fun b => b.cacheEntry deviceId parent entry
      let rest ← enumerateLoop deviceId parent fileId turns none
      let name := Bridge.trimEndNul entry.fileName
      pure (if name ≠ [] ∧ name ≠ ['.'] ∧ name ≠ ['.', '.'] then entry :: rest else rest)

def enumerateDirectory (deviceId : Nat) (parent : WinPath) (fileId : Nat) :
    Fuse (List DirectoryEntry) := do
  let pattern := if parent = rootPath then ['\\', '*'] else parent ++ ['\\', '*']
  let s ← get
  enumerateLoop deviceId parent fileId (s.replies.length + 1) (some pattern)

def refreshDir (deviceId : Nat) (parent : WinPath) : Fuse (List (List Char)) := do
  let fileId ← submitCreate deviceId parent genericRead fileOpen fileDirectoryFile
  let result ← attempt (enumerateDirectory deviceId parent fileId)
  let _ ← attempt (submitClose deviceId fileId)
  match result with
  | .ok entries => pure (entries.map fun entry => Bridge.trimEndNul entry.fileName)
  | .error e => throw e

def attrFor (deviceId : Nat) (path : WinPath) : Fuse (Option FileAttr) :=
  onBridge fun b => b.attrFor deviceId path

def pathExists (deviceId : Nat) (path : WinPath) : Fuse Bool := do
  return (← attrFor deviceId path).isSome

def ensureDirEmpty (deviceId : Nat) (dirPath : WinPath) : Fuse Unit := do
  let children ← refreshDir deviceId dirPath
  if children.isEmpty then pure () else throw .enotempty

def orElse {α : Type} (found : Option α) (e : Errno) : Fuse α :=
  match found with
  | some a => pure a
  | none => throw e

def lookupChild (deviceId : Nat) (parent : WinPath) (name : List Char) : Fuse FileAttr := do
  let path ← orElse (joinWin parent name) .einval
  match ← attrFor deviceId path with
  | some attr => pure attr
  | none =>
    let _ ← refreshDir deviceId parent
    orElse (← attrFor deviceId path) .enoent

end Kmsrdp.Source.Rdpdr
