import Mathlib.Data.List.AList
import Mathlib.Data.List.DropRight
import Kmsrdp.Library.Effects
import Kmsrdp.Source.Rdpdr.Path

/-!
# The bridge between FUSE and a redirected drive

Model of `kmsrdp/src/rdpdr_fuse/bridge.rs`. A bridge serves every drive of its connection, so its
tables are keyed by device. Of the cached metadata the times are left out.

What the client does with each request comes as a list: a completion, nothing within the time
allowed, or the loss of the connection, as also an exhausted list and a completion of another kind.

A `Kernel` is the history of the numbers returned to the kernel through one mount, with what each
was returned for and, for an inode number, the paths to which renames have moved it.
-/
namespace Kmsrdp.Source.Rdpdr
open Library.ByteString List Option AList

def rootIno : Nat := 1

inductive Errno where
  | enoent | eacces | etxtbsy | eio | einval | enosys | eexist | enotempty | eperm | etimedout
  | ebadf | enotsup

def ntstatusToErrno (status : Nat) : Errno :=
  if status ∈ [0xC000000F, 0xC0000033, 0xC0000034, 0xC000003A] then .enoent
  else if status = 0xC0000022 then .eacces
  else if status = 0xC0000043 then .etxtbsy
  else if status = 0xC0000001 then .eio
  else if status = 0xC000000D then .einval
  else if status ∈ [0xC00000BB, 0xC00000A3] then .enosys
  else if status = 0xC0000010 then .eio
  else if status = 0xC0000035 then .eexist
  else if status = 0xC0000101 then .enotempty
  else if status = 0xC0000121 then .eperm
  else .eio

def fileOpen : Nat := 0x00000001
def fileCreate : Nat := 0x00000002
def fileOpenIf : Nat := 0x00000003
def fileOverwriteIf : Nat := 0x00000005
def fileDirectoryFile : Nat := 0x00000001
def fileNonDirectoryFile : Nat := 0x00000040
def fileSynchronousIoNonalert : Nat := 0x00000020
def fileDeleteOnClose : Nat := 0x00001000
def genericRead : Nat := 0x80000000
def genericWrite : Nat := 0x40000000
def fileReadData : Nat := 0x00000001
def fileWriteAttributes : Nat := 0x00000100
def deleteAccess : Nat := 0x00010000
def synchronize : Nat := 0x00100000
def fileAttributeDirectory : Nat := 0x00000010

inductive SetInfo where
  | disposition (deletePending : Bool)
  | rename (newPath : WinPath) (replaceIfExists : Bool)
  | endOfFile (size : Nat)
  | basic (creation lastAccess lastWrite change : Int)
  deriving DecidableEq

inductive DriveCommand where
  | create (deviceId : Nat) (path : WinPath) (desiredAccess createDisposition createOptions : Nat)
      (requestTag : Nat)
  | close (deviceId fileId requestTag : Nat)
  | read (deviceId fileId length offset requestTag : Nat)
  | write (deviceId fileId offset : Nat) (data : Bytes) (requestTag : Nat)
  | queryDirectory (deviceId fileId : Nat) (path : Option WinPath) (requestTag : Nat)
  | setInformation (deviceId fileId : Nat) (info : SetInfo) (requestTag : Nat)
  deriving DecidableEq

structure DirectoryEntry where
  endOfFile : Int
  fileAttributes : Nat
  fileName : List Char

inductive ClientReply where
  | create (result : Except Nat Nat)
  | close (status : Nat)
  | read (result : Except Nat Bytes)
  | write (result : Except Nat Nat)
  | queryDir (result : Except Nat (Option DirectoryEntry))
  | setInfo (result : Except Nat Unit)
  | timeout
  | disconnected

structure CachedMeta where
  size : Nat
  isDir : Bool
  (perm uid gid : Nat)

def defaultPerm (isDir : Bool) : Nat := if isDir then 0o755 else 0o644

def CachedMeta.new (isDir : Bool) (uid gid : Nat) : CachedMeta :=
  ⟨0, isDir, defaultPerm isDir, uid, gid⟩

def CachedMeta.fresh (isDir : Bool) (uid gid mode : Nat) : CachedMeta :=
  ⟨0, isDir, mode &&& 0o7777, uid, gid⟩

structure OpenHandle where
  deviceId : Nat
  fileId : Nat
  deriving DecidableEq

structure FileAttr where
  (ino size blocks : Nat)
  isDir : Bool
  (perm nlink uid gid : Nat)

def CachedMeta.toAttr (cached : CachedMeta) (ino : Nat) : FileAttr :=
  { ino := ino
    size := cached.size
    blocks := (cached.size + 511) / 512
    isDir := cached.isDir
    perm := cached.perm
    nlink := if cached.isDir then 2 else 1
    uid := cached.uid
    gid := cached.gid }

abbrev Table (κ ν : Type) := AList fun _ : κ => ν

abbrev PathEntry := Sigma fun _ : Nat × WinPath => Nat

structure Bridge where
  (nextTag nextFh nextIno : Nat)
  pathToIno : Table (Nat × WinPath) Nat
  inoToPath : Table (Nat × Nat) WinPath
  metas : Table (Nat × WinPath) CachedMeta
  opens : Table Nat OpenHandle
  uid : Nat
  gid : Nat

namespace Bridge

def new (uid gid : Nat) : Bridge := ⟨1, 1, 2, ∅, ∅, ∅, ∅, uid, gid⟩

def pathFor (b : Bridge) (deviceId ino : Nat) : Option WinPath := b.inoToPath.lookup (deviceId, ino)

def ensureRootIno (b : Bridge) (deviceId : Nat) : Bridge :=
  if (b.pathToIno.lookup (deviceId, rootPath)).isSome then b
  else
    { b with
      pathToIno := b.pathToIno.insert (deviceId, rootPath) rootIno
      inoToPath := b.inoToPath.insert (deviceId, rootIno) rootPath
      metas := b.metas.insert (deviceId, rootPath) (.new true b.uid b.gid) }

def inodeFor (b : Bridge) (deviceId : Nat) (path : WinPath) : Nat × Bridge :=
  match b.pathToIno.lookup (deviceId, path) with
  | some ino => (ino, b)
  | none =>
    let ino := if path = rootPath then rootIno else b.nextIno
    (ino, { b with
      nextIno := if path = rootPath then b.nextIno else b.nextIno + 1
      pathToIno := b.pathToIno.insert (deviceId, path) ino
      inoToPath := b.inoToPath.insert (deviceId, ino) path })

def trimEndNul (name : List Char) : List Char := name.rdropWhile (· = '\x00')

def isDirectory (attributes : Nat) : Bool := attributes &&& fileAttributeDirectory ≠ 0

def cacheEntry (b : Bridge) (deviceId : Nat) (parent : WinPath) (entry : DirectoryEntry) : Bridge :=
  let name := trimEndNul entry.fileName
  if isSafeWinComponent name then
    match joinWin parent name with
    | some path =>
      let isDir := isDirectory entry.fileAttributes
      let cached : CachedMeta :=
        ⟨(max entry.endOfFile 0).toNat, isDir, defaultPerm isDir, b.uid, b.gid⟩
      let b := (b.inodeFor deviceId path).2
      { b with metas := b.metas.insert (deviceId, path) cached }
    | none => b
  else b

def attrFor (b : Bridge) (deviceId : Nat) (path : WinPath) : Option FileAttr × Bridge :=
  match b.metas.lookup (deviceId, path) with
  | none => (none, b)
  | some cached => (some (cached.toAttr (b.inodeFor deviceId path).1), (b.inodeFor deviceId path).2)

def updateMeta (b : Bridge) (deviceId : Nat) (path : WinPath) (f : CachedMeta → CachedMeta) :
    Bridge :=
  match b.metas.lookup (deviceId, path) with
  | some cached => { b with metas := b.metas.insert (deviceId, path) (f cached) }
  | none => b

def applyLocalAttrs (b : Bridge) (deviceId : Nat) (path : WinPath) (mode uid gid : Option Nat) :
    Bridge :=
  b.updateMeta deviceId path fun cached =>
    { cached with
      perm := (mode.map (· &&& 0o7777)).getD cached.perm
      uid := uid.getD cached.uid
      gid := gid.getD cached.gid }

def forgetPath (b : Bridge) (deviceId : Nat) (path : WinPath) : Bridge :=
  { b with
    metas := b.metas.erase (deviceId, path)
    pathToIno := b.pathToIno.erase (deviceId, path)
    inoToPath :=
      match b.pathToIno.lookup (deviceId, path) with
      | some ino => b.inoToPath.erase (deviceId, ino)
      | none => b.inoToPath }

def movedPath (oldPath newPath path : WinPath) : Option WinPath :=
  let below := if oldPath = rootPath then rootPath else oldPath ++ ['\\']
  if path = oldPath then some newPath
  else if below.isPrefixOf path then some (newPath ++ '\\' :: path.drop below.length)
  else none

def remapOf (deviceId : Nat) (oldPath newPath : WinPath) (entry : PathEntry) :
    Option (WinPath × WinPath × Nat) :=
  if entry.1.1 = deviceId then
    (movedPath oldPath newPath entry.1.2).map fun path => (entry.1.2, path, entry.2)
  else none

def remapEntry (deviceId : Nat) (b : Bridge) (remap : WinPath × WinPath × Nat) : Bridge :=
  { b with
    pathToIno := (b.pathToIno.erase (deviceId, remap.1)).insert (deviceId, remap.2.1) remap.2.2
    inoToPath := b.inoToPath.insert (deviceId, remap.2.2) remap.2.1
    metas :=
      match b.metas.lookup (deviceId, remap.1) with
      | some cached => (b.metas.erase (deviceId, remap.1)).insert (deviceId, remap.2.1) cached
      | none => b.metas }

def remapPath (b : Bridge) (entries : List PathEntry) (deviceId : Nat)
    (oldPath newPath : WinPath) : Bridge :=
  (entries.filterMap (remapOf deviceId oldPath newPath)).foldl (remapEntry deviceId) b

/-! ## What the tables keep

`Ok` says when the two tables agree: a path's number leads back to the path. The other way round
need not hold, since a rename over a path leaves that path's old number behind. -/

/-- The tables agree, and their numbers are below the counters. -/
structure Ok (b : Bridge) : Prop where
  coherent : ∀ deviceId path ino, b.pathToIno.lookup (deviceId, path) = some ino →
    b.pathFor deviceId ino = some path
  allocated : ∀ deviceId ino path, b.pathFor deviceId ino = some path → ino < b.nextIno
  root : ∀ deviceId path, b.pathFor deviceId rootIno = some path → path = rootPath
  started : rootIno < b.nextIno
  opened : ∀ fh handle, b.opens.lookup fh = some handle → fh < b.nextFh

theorem ok_new (uid gid : Nat) : (new uid gid).Ok where
  coherent _ _ _ h := by simp [new] at h
  allocated _ _ _ h := by simp [new, pathFor] at h
  root _ _ h := by simp [new, pathFor] at h
  started := by simp [new, rootIno]
  opened _ _ h := by simp [new] at h

/-- What numbering paths can do: numbers in use keep their paths, and a number that gets a path
is a new one or the root's. -/
structure Grows (b b' : Bridge) : Prop where
  ok : b.Ok → b'.Ok
  keeps : b.Ok → ∀ deviceId ino path, b.pathFor deviceId ino = some path →
    b'.pathFor deviceId ino = some path
  back : ∀ deviceId ino path, b'.pathFor deviceId ino = some path →
    b.pathFor deviceId ino = some path ∨ b.nextIno ≤ ino ∨ ino = rootIno ∧ path = rootPath
  nextIno : b.nextIno ≤ b'.nextIno
  nextFh : b'.nextFh = b.nextFh
  opens : b'.opens = b.opens

variable {b : Bridge}

theorem grows_of_eq {b' : Bridge}
    (hpath : b'.pathToIno = b.pathToIno)
    (hino : b'.inoToPath = b.inoToPath)
    (hnext : b'.nextIno = b.nextIno)
    (hfh : b'.nextFh = b.nextFh)
    (hopens : b'.opens = b.opens) : b.Grows b' where
  ok h := by
    refine ⟨?_, ?_, ?_, ?_, ?_⟩
    · simpa only [pathFor, hpath, hino] using h.coherent
    · simpa only [pathFor, hino, hnext] using h.allocated
    · simpa only [pathFor, hino] using h.root
    · simpa only [hnext] using h.started
    · simpa only [hopens, hfh] using h.opened
  keeps _ _ _ _ h := by simpa only [pathFor, hino] using h
  back _ _ _ h := .inl (by simpa only [pathFor, hino] using h)
  nextIno := hnext.ge
  nextFh := hfh
  opens := hopens

theorem Grows.refl (b : Bridge) : b.Grows b := grows_of_eq rfl rfl rfl rfl rfl

theorem Grows.trans {b' b'' : Bridge} (h : b.Grows b') (h' : b'.Grows b'') : b.Grows b'' where
  ok hok := h'.ok (h.ok hok)
  keeps hok _ _ _ hpath := h'.keeps (h.ok hok) _ _ _ (h.keeps hok _ _ _ hpath)
  back deviceId ino path hpath := by
    rcases h'.back deviceId ino path hpath with hold | hnew | hroot
    · exact h.back deviceId ino path hold
    · exact .inr (.inl (h.nextIno.trans hnew))
    · exact .inr (.inr hroot)
  nextIno := h.nextIno.trans h'.nextIno
  nextFh := h'.nextFh.trans h.nextFh
  opens := h'.opens.trans h.opens

def enter (b : Bridge) (deviceId : Nat) (path : WinPath) (ino nextIno : Nat) : Bridge :=
  { b with
    nextIno := nextIno
    pathToIno := b.pathToIno.insert (deviceId, path) ino
    inoToPath := b.inoToPath.insert (deviceId, ino) path }

theorem pathFor_enter (b : Bridge) (deviceId : Nat) (path : WinPath) (ino nextIno : Nat) :
    (b.enter deviceId path ino nextIno).pathFor deviceId ino = some path :=
  lookup_insert _

variable {deviceId deviceId' ino : Nat}

theorem pathFor_enter_ne (b : Bridge) (path : WinPath) (nextIno : Nat) {ino' : Nat}
    (h : ¬ (deviceId' = deviceId ∧ ino' = ino)) :
    (b.enter deviceId path ino nextIno).pathFor deviceId' ino' = b.pathFor deviceId' ino' :=
  lookup_insert_ne fun heq => h (Prod.mk.inj heq)

inductive NumberFor (b : Bridge) : WinPath → Nat → Nat → Prop
  | root : NumberFor b rootPath rootIno b.nextIno
  | next (path : WinPath) : NumberFor b path b.nextIno (b.nextIno + 1)

variable {path : WinPath}

theorem Ok.ne_of_numberFor
    (hok : b.Ok)
    {nextIno : Nat}
    (hnumber : b.NumberFor path ino nextIno)
    {path' : WinPath}
    (h : b.pathFor deviceId ino = some path') : path' = path := by
  cases hnumber with
  | root => exact hok.root deviceId path' h
  | next => exact absurd (hok.allocated deviceId _ path' h) (lt_irrefl _)

theorem grows_enter {nextIno : Nat}
    (hfree : b.pathToIno.lookup (deviceId, path) = none)
    (hnumber : b.NumberFor path ino nextIno) : b.Grows (b.enter deviceId path ino nextIno) where
  ok hok := by
    have hnext : b.nextIno ≤ nextIno := by cases hnumber <;> omega
    refine ⟨?_, ?_, ?_, hok.started.trans_le hnext, hok.opened⟩
    · intro deviceId' path' ino' h
      by_cases hkey : (deviceId', path') = (deviceId, path)
      · cases hkey
        have hino : ino = ino' := some.inj ((lookup_insert _).symm.trans h)
        exact hino ▸ pathFor_enter b deviceId path ino nextIno
      · have hold := hok.coherent _ _ _ ((lookup_insert_ne hkey).symm.trans h)
        rw [pathFor_enter_ne]
        · exact hold
        · rintro ⟨rfl, rfl⟩
          exact hkey (congrArg _ (hok.ne_of_numberFor hnumber hold))
    · intro deviceId' ino' path' h
      by_cases hkey : deviceId' = deviceId ∧ ino' = ino
      · obtain ⟨-, rfl⟩ := hkey
        have hstarted := hok.started
        show ino' < nextIno
        cases hnumber <;> omega
      · rw [pathFor_enter_ne b path nextIno hkey] at h
        exact (hok.allocated _ _ _ h).trans_le hnext
    · intro deviceId' path' h
      by_cases hkey : deviceId' = deviceId ∧ rootIno = ino
      · obtain ⟨rfl, hino⟩ := hkey
        rw [hino, pathFor_enter] at h
        cases hnumber with
        | root => exact (some.inj h).symm
        | next => exact absurd (hino ▸ hok.started) (lt_irrefl _)
      · rw [pathFor_enter_ne b path nextIno hkey] at h
        exact hok.root _ _ h
  keeps hok deviceId' ino' path' h := by
    by_cases hkey : deviceId' = deviceId ∧ ino' = ino
    · obtain ⟨rfl, rfl⟩ := hkey
      rw [pathFor_enter, hok.ne_of_numberFor hnumber h]
    · rw [pathFor_enter_ne b path nextIno hkey, h]
  back deviceId' ino' path' h := by
    by_cases hkey : deviceId' = deviceId ∧ ino' = ino
    · obtain ⟨rfl, rfl⟩ := hkey
      rw [pathFor_enter] at h
      cases hnumber with
      | root => exact .inr (.inr ⟨rfl, (some.inj h).symm⟩)
      | next => exact .inr (.inl le_rfl)
    · rw [pathFor_enter_ne b path nextIno hkey] at h
      exact .inl h
  nextIno := by
    show b.nextIno ≤ nextIno
    cases hnumber <;> omega
  nextFh := rfl
  opens := rfl

theorem inodeFor_eq_enter (hfree : b.pathToIno.lookup (deviceId, path) = none) :
    ∃ ino nextIno,
      b.NumberFor path ino nextIno ∧
      b.inodeFor deviceId path = (ino, b.enter deviceId path ino nextIno) := by
  unfold inodeFor
  rw [hfree]
  by_cases hroot : path = rootPath
  · subst hroot
    exact ⟨rootIno, b.nextIno, .root, rfl⟩
  · refine ⟨b.nextIno, b.nextIno + 1, .next path, ?_⟩
    simp only [hroot, if_false, enter]

theorem grows_inodeFor (b : Bridge) (deviceId : Nat) (path : WinPath) :
    b.Grows (b.inodeFor deviceId path).2 := by
  cases hfree : b.pathToIno.lookup (deviceId, path) with
  | some ino =>
    simp only [inodeFor, hfree]
    exact .refl b
  | none =>
    obtain ⟨ino, nextIno, hnumber, heq⟩ := inodeFor_eq_enter hfree
    rw [heq]
    exact grows_enter hfree hnumber

theorem pathFor_inodeFor (hok : b.Ok) (deviceId : Nat) (path : WinPath) :
    (b.inodeFor deviceId path).2.pathFor deviceId (b.inodeFor deviceId path).1 = some path := by
  cases hfree : b.pathToIno.lookup (deviceId, path) with
  | some ino =>
    simp only [inodeFor, hfree]
    exact hok.coherent deviceId path ino hfree
  | none =>
    obtain ⟨ino, nextIno, -, heq⟩ := inodeFor_eq_enter hfree
    rw [heq]
    exact pathFor_enter b deviceId path ino nextIno

theorem grows_metas (b : Bridge) (metas : Table (Nat × WinPath) CachedMeta) :
    b.Grows { b with metas := metas } := grows_of_eq rfl rfl rfl rfl rfl

theorem grows_ensureRootIno (b : Bridge) (deviceId : Nat) : b.Grows (b.ensureRootIno deviceId) := by
  unfold ensureRootIno
  split
  · exact .refl b
  · next hfree =>
    have hnone : b.pathToIno.lookup (deviceId, rootPath) = none := by simpa using hfree
    exact (grows_enter hnone .root).trans (grows_metas _ _)

structure Shifts (b b' : Bridge) (deviceId : Nat) (moved : WinPath → Option WinPath) : Prop where
  ok : b'.Ok
  back : ∀ deviceId' ino path, b'.pathFor deviceId' ino = some path →
    b.pathFor deviceId' ino = some path ∨
      deviceId' = deviceId ∧ ino ≠ rootIno ∧ ∃ old, b.pathFor deviceId' ino = some old ∧
        moved old = some path
  nextIno : b'.nextIno = b.nextIno
  nextFh : b'.nextFh = b.nextFh
  opens : b'.opens = b.opens

theorem pathFor_of_forgetPath {path' : WinPath}
    (h : (b.forgetPath deviceId path).pathFor deviceId' ino = some path') :
    b.pathFor deviceId' ino = some path' := by
  unfold forgetPath pathFor at h
  split at h
  · next number _ =>
    by_cases hkey : (deviceId', ino) = (deviceId, number)
    · rw [hkey, lookup_erase] at h
      cases h
    · rwa [lookup_erase_ne hkey] at h
  · exact h

theorem shifts_forgetPath
    (hok : b.Ok)
    (deviceId : Nat) (path : WinPath) (moved : WinPath → Option WinPath) :
    b.Shifts (b.forgetPath deviceId path) deviceId moved where
  ok := by
    refine ⟨?_, fun _ _ _ h => hok.allocated _ _ _ (pathFor_of_forgetPath h),
      fun _ _ h => hok.root _ _ (pathFor_of_forgetPath h), hok.started, hok.opened⟩
    intro deviceId' path' ino' h
    have hkey : (deviceId', path') ≠ (deviceId, path) := by
      intro heq
      rw [heq] at h
      exact some_ne_none _ (h.symm.trans (lookup_erase _ _))
    have hold := (lookup_erase_ne hkey).symm.trans h
    have hpath := hok.coherent _ _ _ hold
    unfold forgetPath pathFor
    split
    · next number hnumber =>
      rw [lookup_erase_ne]
      · exact hpath
      · intro heq
        cases heq
        exact hkey (congrArg _ (some.inj (hpath.symm.trans (hok.coherent _ _ _ hnumber))))
    · exact hpath
  back _ _ _ h := .inl (pathFor_of_forgetPath h)
  nextIno := rfl
  nextFh := rfl
  opens := rfl

theorem pathFor_remapEntry (b : Bridge) (deviceId : Nat) (remap : WinPath × WinPath × Nat) :
    (b.remapEntry deviceId remap).pathFor deviceId remap.2.2 = some remap.2.1 := lookup_insert _

theorem pathFor_remapEntry_ne (b : Bridge) (remap : WinPath × WinPath × Nat)
    (h : ¬ (deviceId' = deviceId ∧ ino = remap.2.2)) :
    (b.remapEntry deviceId remap).pathFor deviceId' ino = b.pathFor deviceId' ino :=
  lookup_insert_ne fun heq => h (Prod.mk.inj heq)

variable {remap : WinPath × WinPath × Nat}

theorem Ok.remapEntry
    (hok : b.Ok)
    (hat : b.pathFor deviceId remap.2.2 = some remap.1)
    (hroot : remap.2.2 ≠ rootIno) : (b.remapEntry deviceId remap).Ok := by
  refine ⟨?_, ?_, ?_, hok.started, hok.opened⟩
  · intro deviceId' path' ino' h
    by_cases hnew : (deviceId', path') = (deviceId, remap.2.1)
    · cases hnew
      have hino : remap.2.2 = ino' := some.inj ((lookup_insert _).symm.trans h)
      exact hino ▸ pathFor_remapEntry b deviceId remap
    · have herased := (lookup_insert_ne hnew).symm.trans h
      have hkey : (deviceId', path') ≠ (deviceId, remap.1) := by
        intro heq
        rw [heq] at herased
        exact some_ne_none _ (herased.symm.trans (lookup_erase _ _))
      have hold := hok.coherent _ _ _ ((lookup_erase_ne hkey).symm.trans herased)
      rw [pathFor_remapEntry_ne]
      · exact hold
      · rintro ⟨rfl, rfl⟩
        exact hkey (congrArg _ (some.inj (hold.symm.trans hat)))
  · intro deviceId' ino' path' h
    by_cases hkey : deviceId' = deviceId ∧ ino' = remap.2.2
    · obtain ⟨-, rfl⟩ := hkey
      exact hok.allocated _ _ _ hat
    · exact hok.allocated _ _ _ ((pathFor_remapEntry_ne b remap hkey).symm.trans h)
  · intro deviceId' path' h
    rw [pathFor_remapEntry_ne b remap fun hkey => hroot hkey.2.symm] at h
    exact hok.root _ _ h

structure Movable (b : Bridge) (deviceId : Nat) (moved : WinPath → Option WinPath)
    (remaps : List (WinPath × WinPath × Nat)) : Prop where
  at_old : ∀ remap ∈ remaps, b.pathFor deviceId remap.2.2 = some remap.1
  to_new : ∀ remap ∈ remaps, moved remap.1 = some remap.2.1
  not_root : ∀ remap ∈ remaps, remap.2.2 ≠ rootIno
  once : remaps.Pairwise fun remap other => remap.2.2 ≠ other.2.2

variable {moved : WinPath → Option WinPath}

theorem Movable.tail {remaps : List (WinPath × WinPath × Nat)}
    (h : b.Movable deviceId moved (remap :: remaps)) :
    (b.remapEntry deviceId remap).Movable deviceId moved remaps where
  at_old other hother := by
    have hne := (pairwise_cons.mp h.once).1 other hother
    rw [pathFor_remapEntry_ne b remap fun hkey => hne hkey.2.symm]
    exact h.at_old other (mem_cons_of_mem _ hother)
  to_new other hother := h.to_new other (mem_cons_of_mem _ hother)
  not_root other hother := h.not_root other (mem_cons_of_mem _ hother)
  once := (pairwise_cons.mp h.once).2

theorem shifts_foldl_remapEntry (remaps : List (WinPath × WinPath × Nat)) :
    ∀ {b : Bridge}, b.Ok → b.Movable deviceId moved remaps →
      b.Shifts (remaps.foldl (remapEntry deviceId) b) deviceId moved ∧
      ∀ ino, (∀ remap ∈ remaps, ino ≠ remap.2.2) →
        (remaps.foldl (remapEntry deviceId) b).pathFor deviceId ino = b.pathFor deviceId ino := by
  induction remaps with
  | nil => exact fun hok _ => ⟨⟨hok, fun _ _ _ h => .inl h, rfl, rfl, rfl⟩, fun _ _ => rfl⟩
  | cons remap remaps ih =>
    intro b hok hmovable
    have hat := hmovable.at_old remap mem_cons_self
    have hroot := hmovable.not_root remap mem_cons_self
    obtain ⟨hshifts, huntouched⟩ := ih (hok.remapEntry hat hroot) hmovable.tail
    refine ⟨⟨hshifts.ok, ?_, hshifts.nextIno, hshifts.nextFh, hshifts.opens⟩, ?_⟩
    · intro deviceId' ino path h
      by_cases hkey : deviceId' = deviceId ∧ ino = remap.2.2
      · obtain ⟨rfl, rfl⟩ := hkey
        rw [foldl_cons, huntouched _ (pairwise_cons.mp hmovable.once).1, pathFor_remapEntry] at h
        exact .inr ⟨rfl, hroot, remap.1, hat, h ▸ hmovable.to_new remap mem_cons_self⟩
      · have hback := hshifts.back deviceId' ino path h
        rwa [pathFor_remapEntry_ne b remap hkey] at hback
    · intro ino hino
      rw [foldl_cons, huntouched ino fun other hother => hino other (mem_cons_of_mem _ hother)]
      exact pathFor_remapEntry_ne b remap fun hkey => hino remap mem_cons_self hkey.2

variable {oldPath : WinPath}

theorem movedPath_rootPath {newPath : WinPath} (hold : 2 ≤ oldPath.length) :
    movedPath oldPath newPath rootPath = none := by
  have hne : rootPath ≠ oldPath := by
    rintro rfl
    simp [rootPath] at hold
  have hstarts : ¬ (oldPath ++ ['\\']).isPrefixOf rootPath := by
    intro h
    have hlen := (List.isPrefixOf_iff_prefix.mp h).length_le
    simp only [length_append, length_cons, length_nil, rootPath] at hlen
    omega
  simp only [movedPath, if_neg hne, if_neg hne.symm, if_neg hstarts]

theorem movable_remapOf
    (hok : b.Ok)
    {entries : List PathEntry}
    (hperm : entries.Perm b.pathToIno.entries)
    (deviceId : Nat) (newPath : WinPath)
    (hold : 2 ≤ oldPath.length) :
    b.Movable deviceId (movedPath oldPath newPath)
      (entries.filterMap (remapOf deviceId oldPath newPath)) := by
  have hentry : ∀ entry ∈ entries, ∀ remap, remapOf deviceId oldPath newPath entry = some remap →
      entry.1 = (deviceId, remap.1) ∧ b.pathFor deviceId remap.2.2 = some remap.1 ∧
        movedPath oldPath newPath remap.1 = some remap.2.1 := by
    rintro ⟨⟨deviceId', path⟩, ino⟩ hmem remap h
    unfold remapOf at h
    split at h
    · next hdevice =>
      cases hdevice
      obtain ⟨path', hmoved, rfl⟩ := map_eq_some_iff.mp h
      exact ⟨rfl, hok.coherent _ _ _ (mem_lookup_iff.mpr (hperm.mem_iff.mp hmem)), hmoved⟩
    · cases h
  have hmap : ∀ remap ∈ entries.filterMap (remapOf deviceId oldPath newPath),
      b.pathFor deviceId remap.2.2 = some remap.1 ∧
        movedPath oldPath newPath remap.1 = some remap.2.1 := by
    intro remap hremap
    obtain ⟨entry, hmem, h⟩ := mem_filterMap.mp hremap
    exact (hentry entry hmem remap h).2
  refine ⟨fun remap h => (hmap remap h).1, fun remap h => (hmap remap h).2, ?_, ?_⟩
  · intro remap h hroot
    have hpath := hok.root deviceId remap.1 (hroot ▸ (hmap remap h).1)
    have hmoved := (hmap remap h).2
    rw [hpath, movedPath_rootPath hold] at hmoved
    cases hmoved
  · have hkeys : entries.Pairwise fun entry other => entry.1 ≠ other.1 :=
      pairwise_map.mp ((hperm.map Sigma.fst).nodup_iff.mpr b.pathToIno.nodupKeys)
    refine pairwise_filterMap.mpr (hkeys.imp_of_mem ?_)
    intro entry other hmem hother hne remap h remap' h' hino
    obtain ⟨hkey, hpath, -⟩ := hentry entry hmem remap h
    obtain ⟨hkey', hpath', -⟩ := hentry other hother remap' h'
    rw [hino] at hpath
    exact hne (by rw [hkey, hkey', some.inj (hpath.symm.trans hpath')])

theorem shifts_remapPath
    (hok : b.Ok)
    {entries : List PathEntry}
    (hperm : entries.Perm b.pathToIno.entries)
    (deviceId : Nat) (newPath : WinPath)
    (hold : 2 ≤ oldPath.length) :
    b.Shifts (b.remapPath entries deviceId oldPath newPath) deviceId (movedPath oldPath newPath) :=
  (shifts_foldl_remapEntry _ hok (movable_remapOf hok hperm deviceId newPath hold)).1

end Bridge

structure IssuedInode where
  (number conn deviceId : Nat)
  paths : List WinPath
  deriving DecidableEq

structure IssuedHandle where
  number : Nat
  conn : Nat
  handle : OpenHandle
  deriving DecidableEq

structure Kernel where
  inodes : List IssuedInode
  handles : List IssuedHandle

structure Site where
  conn : Nat
  deviceId : Nat
  ours : Bool

def IssuedInode.moved (site : Site) (oldPath newPath : WinPath) (issued : IssuedInode) :
    IssuedInode :=
  if issued.conn = site.conn ∧ issued.deviceId = site.deviceId then
    { issued with paths := issued.paths ++ issued.paths.filterMap (Bridge.movedPath oldPath newPath) }
  else issued

def Kernel.moved (site : Site) (oldPath newPath : WinPath) (kernel : Kernel) : Kernel :=
  { kernel with inodes := kernel.inodes.map (IssuedInode.moved site oldPath newPath) }

def Kernel.hasInode (site : Site) (number : Nat) (path : WinPath) (kernel : Kernel) : Kernel :=
  if site.ours then
    { kernel with inodes := ⟨number, site.conn, site.deviceId, [path]⟩ :: kernel.inodes }
  else kernel

def Kernel.hasHandle (site : Site) (number : Nat) (handle : OpenHandle) (kernel : Kernel) :
    Kernel :=
  if site.ours then { kernel with handles := ⟨number, site.conn, handle⟩ :: kernel.handles } else kernel

end Kmsrdp.Source.Rdpdr
