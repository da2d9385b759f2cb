import Kmsrdp.Source.Rdpdr.Mount
import Kmsrdp.Guarantees.DriveOperations

/-!
# What the operations of a drive mount do to the kernel's numbers

A number returned to the kernel is faithful when it leads to what it was returned for or to nothing.
`KernelOk` is the invariant, and `rules_good` says that the steps of the operations keep it.
-/
namespace Kmsrdp.Guarantees.MountOperations
open Library.Effects Source.Rdpdr Guarantees.DriveOperations List Bridge

/-- The number leads to no path, or to one it has had: the path it was returned for, or one
that a rename moved it to. Other than for the root, that is on the same drive of the same
connection. -/
def InodeFaithful (active : ActiveBackend) (b : Bridge) (issued : IssuedInode) : Prop :=
  ∀ path ∈ b.pathFor active.deviceId issued.number,
    path ∈ issued.paths ∧
      (issued.number = rootIno ∨ issued.conn = active.conn ∧ issued.deviceId = active.deviceId)

/-- The handle leads to no open file, or to the one it was returned for, on the drive that
`readdir` names beside it. -/
def HandleFaithful (active : ActiveBackend) (b : Bridge) (issued : IssuedHandle) : Prop :=
  ∀ handle ∈ b.opens.lookup issued.number,
    issued.conn = active.conn ∧ handle = issued.handle ∧ handle.deviceId = active.deviceId

structure KernelOk (active : ActiveBackend) (b : Bridge) (kernel : Kernel) : Prop where
  inodes : ∀ issued ∈ kernel.inodes, InodeFaithful active b issued
  handles : ∀ issued ∈ kernel.handles, HandleFaithful active b issued
  inodes_below : ∀ issued ∈ kernel.inodes, issued.number < b.nextIno
  handles_below : ∀ issued ∈ kernel.handles, issued.number < b.nextFh
  root_path : ∀ issued ∈ kernel.inodes, issued.number = rootIno → rootPath ∈ issued.paths

theorem kernelOk_empty (active : ActiveBackend) (b : Bridge) : KernelOk active b .empty := by
  constructor <;> intro issued h <;> exact absurd h not_mem_nil

variable {active : ActiveBackend} {b b' : Bridge} {kernel : Kernel}

theorem KernelOk.grows (h : KernelOk active b kernel) (hgrows : b.Grows b') :
    KernelOk active b' kernel where
  inodes issued hmem path hpath := by
    rcases hgrows.back _ _ _ hpath with hold | hnew | ⟨hroot, rfl⟩
    · exact h.inodes issued hmem path hold
    · exact absurd (h.inodes_below issued hmem) (not_lt.mpr hnew)
    · exact ⟨h.root_path issued hmem hroot, .inl hroot⟩
  handles issued hmem handle hhandle := h.handles issued hmem handle (hgrows.opens ▸ hhandle)
  inodes_below issued hmem := (h.inodes_below issued hmem).trans_le hgrows.nextIno
  handles_below issued hmem := hgrows.nextFh ▸ h.handles_below issued hmem
  root_path := h.root_path

variable {site : Site}

theorem mem_moved {oldPath newPath : WinPath} {issued : IssuedInode}
    (h : issued ∈ (kernel.moved site oldPath newPath).inodes) :
    ∃ old ∈ kernel.inodes,
      issued.number = old.number ∧
      issued.conn = old.conn ∧
      issued.deviceId = old.deviceId ∧
      old.paths ⊆ issued.paths ∧
      (old.conn = site.conn → old.deviceId = site.deviceId → ∀ path ∈ old.paths, ∀ path',
        movedPath oldPath newPath path = some path' → path' ∈ issued.paths) := by
  obtain ⟨old, hold, rfl⟩ := mem_map.mp h
  refine ⟨old, hold, ?_⟩
  unfold IssuedInode.moved
  split
  · refine ⟨rfl, rfl, rfl, subset_append_left _ _, fun _ _ path hpath path' hmoved => ?_⟩
    exact mem_append_right _ (mem_filterMap.mpr ⟨path, hpath, hmoved⟩)
  · next hsite =>
    exact ⟨rfl, rfl, rfl, List.Subset.refl _, fun hconn hdevice => absurd ⟨hconn, hdevice⟩ hsite⟩

section
variable (h : KernelOk active b kernel)
include h

theorem KernelOk.moved (site : Site) (oldPath newPath : WinPath) :
    KernelOk active b (kernel.moved site oldPath newPath) where
  inodes issued hmem path hpath := by
    obtain ⟨old, hold, hnumber, hconn, hdevice, hpaths, -⟩ := mem_moved hmem
    rw [hnumber] at hpath
    obtain ⟨hin, hwhere⟩ := h.inodes old hold path hpath
    rw [hnumber, hconn, hdevice]
    exact ⟨hpaths hin, hwhere⟩
  handles := h.handles
  inodes_below issued hmem := by
    obtain ⟨old, hold, hnumber, -⟩ := mem_moved hmem
    exact hnumber ▸ h.inodes_below old hold
  handles_below := h.handles_below
  root_path issued hmem hroot := by
    obtain ⟨old, hold, hnumber, -, -, hpaths, -⟩ := mem_moved hmem
    exact hpaths (h.root_path old hold (hnumber ▸ hroot))

theorem KernelOk.shifts {oldPath newPath : WinPath}
    (hconn : site.conn = active.conn)
    (hshifts : b.Shifts b' site.deviceId (movedPath oldPath newPath)) :
    KernelOk active b' (kernel.moved site oldPath newPath) where
  inodes issued hmem path hpath := by
    rcases hshifts.back _ _ _ hpath with hold | ⟨hsite, hroot, old, hold, hmoved⟩
    · exact (h.moved site oldPath newPath).inodes issued hmem path hold
    · obtain ⟨was, hwas, hnumber, hwasConn, hwasDevice, -, hpaths⟩ := mem_moved hmem
      rw [hnumber] at hold hroot
      obtain ⟨hin, hwhere⟩ := h.inodes was hwas old hold
      obtain ⟨hsame, hdevice⟩ := hwhere.resolve_left hroot
      rw [hnumber, hwasConn, hwasDevice]
      exact ⟨hpaths (hsame.trans hconn.symm) (hdevice.trans hsite) old hin path hmoved,
        .inr ⟨hsame, hdevice⟩⟩
  handles issued hmem handle hhandle := h.handles issued hmem handle (hshifts.opens ▸ hhandle)
  inodes_below issued hmem := hshifts.nextIno ▸ (h.moved site oldPath newPath).inodes_below issued hmem
  handles_below issued hmem := hshifts.nextFh ▸ h.handles_below issued hmem
  root_path := (h.moved site oldPath newPath).root_path

theorem KernelOk.of_back
    (hpaths : ∀ ino path, b'.pathFor active.deviceId ino = some path →
        b.pathFor active.deviceId ino = some path)
    (hopens : ∀ fh handle, fh < b.nextFh → b'.opens.lookup fh = some handle →
        b.opens.lookup fh = some handle)
    (hino : b'.nextIno = b.nextIno)
    (hfh : b.nextFh ≤ b'.nextFh) : KernelOk active b' kernel where
  inodes issued hmem path hpath := h.inodes issued hmem path (hpaths _ _ hpath)
  handles issued hmem handle hhandle :=
    h.handles issued hmem handle (hopens _ _ (h.handles_below issued hmem) hhandle)
  inodes_below issued hmem := hino ▸ h.inodes_below issued hmem
  handles_below issued hmem := (h.handles_below issued hmem).trans_le hfh
  root_path := h.root_path

theorem KernelOk.hasInode
    (hok : b.Ok)
    {number : Nat} {path : WinPath}
    (hpath : b.pathFor active.deviceId number = some path) :
    KernelOk active b (kernel.hasInode active.site number path) where
  inodes issued hmem path' hpath' := by
    rcases mem_cons.mp hmem with rfl | hold
    · cases hpath.symm.trans hpath'
      exact ⟨mem_singleton_self _, .inr ⟨rfl, rfl⟩⟩
    · exact h.inodes issued hold path' hpath'
  handles := h.handles
  inodes_below issued hmem := by
    rcases mem_cons.mp hmem with rfl | hold
    · exact hok.allocated _ _ _ hpath
    · exact h.inodes_below issued hold
  handles_below := h.handles_below
  root_path issued hmem hroot := by
    rcases mem_cons.mp hmem with rfl | hold
    · have hnumber : number = rootIno := hroot
      rw [hnumber] at hpath
      rw [hok.root _ _ hpath]
      exact mem_singleton_self _
    · exact h.root_path issued hold hroot

theorem KernelOk.hasHandle
    (hok : b.Ok)
    {number fileId : Nat}
    (hhandle : b.opens.lookup number = some ⟨active.deviceId, fileId⟩) :
    KernelOk active b (kernel.hasHandle active.site number ⟨active.deviceId, fileId⟩) where
  inodes := h.inodes
  handles issued hmem handle hlookup := by
    rcases mem_cons.mp hmem with rfl | hold
    · cases hhandle.symm.trans hlookup
      exact ⟨rfl, rfl, rfl⟩
    · exact h.handles issued hold handle hlookup
  inodes_below := h.inodes_below
  handles_below issued hmem := by
    rcases mem_cons.mp hmem with rfl | hold
    · exact hok.opened _ _ hhandle
    · exact h.handles_below issued hold
  root_path := h.root_path

end

/-! ## The operations keep it

An operation runs at a site: on the mount itself, or for another mount on some bridge. `rest` is
the active bridge where it is not the one the operation works on. `known` are numbers with
their paths that the operation has just seen, to be answered perhaps. -/

def shownBridge (site : Site) (active : ActiveBackend) (rest b : Bridge) : Bridge :=
  if site.conn = active.conn then b else rest

variable {rest : Bridge}

theorem KernelOk.shown {kernel' : Kernel}
    (h : KernelOk active (shownBridge site active rest b) kernel)
    (hsame : site.conn = active.conn → KernelOk active b kernel → KernelOk active b' kernel')
    (hother : site.conn ≠ active.conn → KernelOk active rest kernel → KernelOk active rest kernel') :
    KernelOk active (shownBridge site active rest b') kernel' := by
  unfold shownBridge at h ⊢
  split
  · next hconn => exact hsame hconn (by rwa [if_pos hconn] at h)
  · next hconn => exact hother hconn (by rwa [if_neg hconn] at h)

structure Good (site : Site) (active : ActiveBackend) (rest : Bridge) (known : List (Nat × WinPath))
    (s : FuseState) : Prop where
  ok : s.bridge.Ok
  kernel : KernelOk active (shownBridge site active rest s.bridge) s.kernel
  known : ∀ entry ∈ known, s.bridge.pathFor site.deviceId entry.1 = some entry.2

variable {known : List (Nat × WinPath)} {s : FuseState}

theorem Good.subset {known' : List (Nat × WinPath)}
    (h : Good site active rest known s)
    (hsub : known' ⊆ known) : Good site active rest known' s :=
  ⟨h.ok, h.kernel, fun entry hmem => h.known entry (hsub hmem)⟩

theorem Good.grows {t : FuseState}
    (h : Good site active rest known s)
    (hgrows : s.bridge.Grows t.bridge)
    (hkernel : t.kernel = s.kernel) : Good site active rest known t where
  ok := hgrows.ok h.ok
  kernel := by
    rw [hkernel]
    exact h.kernel.shown (fun _ hk => hk.grows hgrows) fun _ hk => hk
  known entry hmem := hgrows.keeps h.ok _ _ _ (h.known entry hmem)

section Operations
variable {site : Site} {active : ActiveBackend} {rest : Bridge} {known : List (Nat × WinPath)}
    {s : FuseState}
section
variable (h : Good site active rest known s)
include h

theorem Good.path {ino : Nat} {path : WinPath}
    (hpath : s.bridge.pathFor site.deviceId ino = some path) :
    Good site active rest ((ino, path) :: known) s := by
  refine ⟨h.ok, h.kernel, fun entry hmem => ?_⟩
  rcases mem_cons.mp hmem with rfl | hold
  · exact hpath
  · exact h.known entry hold

theorem Good.number (path : WinPath) :
    Good site active rest (((s.bridge.inodeFor site.deviceId path).1, path) :: known)
      { s with bridge := (s.bridge.inodeFor site.deviceId path).2 } := by
  have hgrown : Good site active rest known { s with
      bridge := (s.bridge.inodeFor site.deviceId path).2 } :=
    h.grows (s.bridge.grows_inodeFor site.deviceId path) rfl
  exact hgrown.path (pathFor_inodeFor h.ok site.deviceId path)

theorem Good.answer
    (hours : site.ours = true → site = active.site)
    {path : WinPath} {number : Nat}
    (hknown : (number, path) ∈ known) :
    Good site active rest known { s with kernel := s.kernel.hasInode site number path } := by
  refine ⟨h.ok, ?_, h.known⟩
  cases hsite : site.ours with
  | false =>
    have hsame : s.kernel.hasInode site number path = s.kernel := by simp [Kernel.hasInode, hsite]
    rw [hsame]
    exact h.kernel
  | true =>
    have hactive := hours hsite
    subst hactive
    exact h.kernel.shown (fun _ hk => hk.hasInode h.ok (h.known _ hknown)) fun hconn => absurd rfl hconn

end

theorem keeps_recordOpen (hours : site.ours = true → site = active.site) (fileId : Nat) :
    Keeps (Good site active rest known) (recordOpen site fileId) := by
  intro s hs
  set b' : Bridge :=
    { s.bridge with
      nextFh := s.bridge.nextFh + 1
      opens := s.bridge.opens.insert s.bridge.nextFh ⟨site.deviceId, fileId⟩ }
  show Good site active rest known
    { s with bridge := b', kernel := s.kernel.hasHandle site s.bridge.nextFh ⟨site.deviceId, fileId⟩ }
  have hok : b'.Ok := by
    refine ⟨hs.ok.coherent, hs.ok.allocated, hs.ok.root, hs.ok.started, fun fh handle h => ?_⟩
    by_cases hfh : fh = s.bridge.nextFh
    · exact hfh ▸ Nat.lt_succ_self _
    · exact Nat.lt_succ_of_lt (hs.ok.opened fh handle ((AList.lookup_insert_ne hfh).symm.trans h))
  have hback : KernelOk active s.bridge s.kernel → KernelOk active b' s.kernel := fun h =>
    h.of_back (fun _ _ hpath => hpath)
      (fun fh handle hlt hlookup => (AList.lookup_insert_ne hlt.ne).symm.trans hlookup) rfl
        (Nat.le_succ _)
  refine ⟨hok, ?_, hs.known⟩
  cases hsite : site.ours with
  | false =>
    have hsame : s.kernel.hasHandle site s.bridge.nextFh ⟨site.deviceId, fileId⟩ = s.kernel := by
      simp [Kernel.hasHandle, hsite]
    rw [hsame]
    exact hs.kernel.shown (fun _ => hback) fun _ hk => hk
  | true =>
    have hactive := hours hsite
    subst hactive
    exact hs.kernel.shown (fun _ hk => (hback hk).hasHandle hok (AList.lookup_insert _))
      fun hconn => absurd rfl hconn

theorem Good.closes (h : Good site active rest known s) (fh : Nat) :
    Good site active rest known
      { s with bridge := { s.bridge with opens := s.bridge.opens.erase fh } } := by
  have hopens : ∀ fh' handle, (s.bridge.opens.erase fh).lookup fh' = some handle →
      s.bridge.opens.lookup fh' = some handle := by
    intro fh' handle hlookup
    by_cases hfh : fh' = fh
    · rw [hfh, AList.lookup_erase] at hlookup
      cases hlookup
    · rwa [AList.lookup_erase_ne hfh] at hlookup
  refine ⟨⟨h.ok.coherent, h.ok.allocated, h.ok.root, h.ok.started, fun fh' handle hlookup => ?_⟩,
    ?_, h.known⟩
  · exact h.ok.opened fh' handle (hopens fh' handle hlookup)
  · refine h.kernel.shown (fun _ hk => ?_) fun _ hk => hk
    exact hk.of_back (fun _ _ h => h) (fun fh' handle _ h => hopens fh' handle h) rfl le_rfl

theorem Good.forgets (h : Good site active rest [] s) (deviceId : Nat) (path : WinPath) :
    Good site active rest [] { s with bridge := s.bridge.forgetPath deviceId path } := by
  have hshifts := shifts_forgetPath h.ok deviceId path fun _ => none
  refine ⟨hshifts.ok, ?_, fun _ hmem => nomatch hmem⟩
  refine h.kernel.shown (fun _ hk => ?_) fun _ hk => hk
  exact hk.of_back (fun _ _ h => pathFor_of_forgetPath h) (fun _ _ _ h => h) rfl le_rfl

theorem keeps_remapPath {oldPath : WinPath} (newPath : WinPath) (hold : 2 ≤ oldPath.length) :
    Keeps (Good site active rest []) (remapPath site oldPath newPath) := by
  refine meets_modify fun s hs => ?_
  have hshifts := shifts_remapPath hs.ok (s.visits.perm s.bridge.nextTag _) site.deviceId newPath hold
  refine ⟨hshifts.ok, ?_, fun _ hmem => nomatch hmem⟩
  exact hs.kernel.shown (fun hconn hk => hk.shifts hconn hshifts) fun _ hk =>
    hk.moved site oldPath newPath

theorem rules_good (hours : site.ours = true → site = active.site) :
    Rules site (Good site active rest) (fun _ => True) fun path => 2 ≤ path.length where
  fine _ := trivial
  parent _ := trivial
  child _ := length_joinWin
  pattern _ := trivial
  subset := Good.subset
  path hs hpath := ⟨hs.path hpath, trivial⟩
  tag hs := hs.grows (grows_of_eq rfl rfl rfl rfl rfl) rfl
  send hs _ := hs.grows (.refl _) rfl
  metas metas hs := hs.grows (grows_metas _ metas) rfl
  root hs := hs.grows (grows_ensureRootIno _ _) rfl
  number hs _ := hs.number _
  answer hs hknown := hs.answer hours hknown
  opens fileId := keeps_recordOpen hours fileId
  closes fh hs := hs.closes fh
  forgets hs _ := hs.forgets _ _
  moves hold _ := keeps_remapPath _ hold

theorem length_exchangeName (pathA : WinPath) (tag : Nat) :
    2 ≤ (exchangeName pathA tag).length := by
  have hlen : ("\\.__kmsrdp_xchg_".toList).length = 16 := by decide
  unfold exchangeName
  rw [length_append, length_append, hlen]
  omega

theorem keeps_perform (hours : site.ours = true → site = active.site) (operation : Operation) :
    Keeps (Good site active rest []) (operation.perform site) :=
  (rules_good hours).keeps_perform operation fun parent name newparent newname flags _ =>
    (rules_good hours).keeps_rename (fun pathA tag _ => length_exchangeName pathA tag) parent name
      newparent newname
      flags

end Operations

theorem rules_ok (site : Site) :
    Rules site (fun _ s => s.bridge.Ok) (fun _ => True) fun path => 2 ≤ path.length where
  fine _ := trivial
  parent _ := trivial
  child _ := length_joinWin
  pattern _ := trivial
  subset hs _ := hs
  path hs _ := ⟨hs, trivial⟩
  tag hs := { hs with opened := hs.opened }
  send hs _ := hs
  metas metas hs := (grows_metas _ metas).ok hs
  root hs := (grows_ensureRootIno _ _).ok hs
  number hs _ := (grows_inodeFor _ _ _).ok hs
  answer hs _ := hs
  opens fileId s hs := by
    refine { hs with opened := fun fh handle h => ?_ }
    by_cases hfh : fh = s.bridge.nextFh
    · exact hfh ▸ Nat.lt_succ_self _
    · exact Nat.lt_succ_of_lt (hs.opened fh handle ((AList.lookup_insert_ne hfh).symm.trans h))
  closes fh hs := by
    refine { hs with opened := fun fh' handle h => ?_ }
    by_cases hfh : fh' = fh
    · rw [hfh, AList.lookup_erase] at h
      cases h
    · exact hs.opened fh' handle ((AList.lookup_erase_ne hfh).symm.trans h)
  forgets hs _ := (shifts_forgetPath hs _ _ fun _ => none).ok
  moves hold _ := meets_modify fun s hs =>
    (shifts_remapPath hs (s.visits.perm s.bridge.nextTag _) _ _ hold).ok

/-- What changes a bridge. -/
inductive BridgeCall where
  | request (site : Site) (kernel : Kernel) (request : Request)
  | ensureRootIno (deviceId : Nat)
  | clearOpens

def afterCall (b : Bridge) : BridgeCall → Bridge
  | .request site kernel request => (request.run site b kernel).2.bridge
  | .ensureRootIno deviceId => b.ensureRootIno deviceId
  | .clearOpens => b.clearOpens

theorem ok_afterCall {b : Bridge} (hb : b.Ok) (call : BridgeCall) : (afterCall b call).Ok := by
  cases call with
  | request site kernel request =>
    have hkeeps :=
      (rules_ok site).keeps_perform request.operation fun parent name newparent newname flags _ =>
      (rules_ok site).keeps_rename (fun pathA tag _ => length_exchangeName pathA tag) parent name
        newparent newname flags
    exact hkeeps.afterwards (s := ⟨b, kernel, request.visits, request.replies, []⟩) hb
  | ensureRootIno deviceId => exact (grows_ensureRootIno b deviceId).ok hb
  | clearOpens => exact { hb with opened := fun _ _ h => nomatch h }

/-- Whatever is asked of a bridge and whatever the client answers, every path's number leads back to
the path, the root's to the root only, and the numbers and handles in use are below the next. -/
theorem bridge_tables_agree (uid gid : Nat) (calls : List BridgeCall) :
    (calls.foldl afterCall (.new uid gid)).Ok :=
  foldlRecOn calls _ (ok_new uid gid) fun _ hb call _ => ok_afterCall hb call

end Kmsrdp.Guarantees.MountOperations
