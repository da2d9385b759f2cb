import Kmsrdp.Library.Execution
import Kmsrdp.Guarantees.MountOperations

/-!
# The numbers the kernel has of a shared drive mount

An inode number or file handle returned to the kernel should lead to what it was returned for, or to
nothing.
-/
namespace Kmsrdp.Guarantees.MountNumbers
open Library.Execution Guarantees.MountOperations Source.Rdpdr Function Option World

/-- No number of the kernel leads to another file than it was given for. -/
def Faithful (w : World) : Prop :=
  ∀ m ∈ w.mount,
    (∀ issued ∈ m.kernel.inodes, InodeFaithful m.active (w.bridges m.active.conn) issued) ∧
    ∀ issued ∈ m.kernel.handles, HandleFaithful m.active (w.bridges m.active.conn) issued

/-- What the bridge of a new owner has to be like: it takes none of the kernel's numbers for
something else, now or later. -/
structure Unreused (active : ActiveBackend) (b : Bridge) (kernel : Kernel) : Prop where
  inodes : ∀ issued ∈ kernel.inodes, issued.number < b.nextIno ∧
    (issued.number ≠ rootIno → InodeFaithful active b issued)
  handles : ∀ issued ∈ kernel.handles, issued.number < b.nextFh ∧ HandleFaithful active b issued

/-- A step that hands the mount over finds no request that still works on the old backend, and
a bridge that does not reuse the kernel's numbers. -/
def Smooth (w : World) : Action → Prop
  | .leave conn newOwner =>
    ∀ m ∈ w.mount, m.ownerConn = conn →
      ∀ deviceId ∈ (m.members.erase conn).lookup newOwner,
        m.begun = [] ∧ Unreused ⟨newOwner, deviceId⟩ (w.bridges newOwner) m.kernel
  | _ => True

structure Inv (w : World) : Prop where
  bridges : ∀ conn, (w.bridges conn).Ok
  owner : ∀ m ∈ w.mount, m.ownerConn = m.active.conn
  kernel : ∀ m ∈ w.mount, KernelOk m.active (w.bridges m.active.conn) m.kernel
  begun : ∀ m ∈ w.mount, ∀ b ∈ m.begun, b.backend = m.active

theorem inv_start (users : Nat → Nat × Nat) : Inv (start users) where
  bridges _ := Bridge.ok_new _ _
  owner := nofun
  kernel := nofun
  begun := nofun

variable {w : World} {conn : Nat} {b : Bridge}

theorem Inv.setBridge
    (hw : Inv w)
    (hb : b.Ok)
    (hkernel : ∀ m ∈ w.mount, m.active.conn = conn → KernelOk m.active (w.bridges conn) m.kernel →
        KernelOk m.active b m.kernel) : Inv (w.setBridge conn b) where
  bridges conn' := by
    by_cases h : conn' = conn
    · subst h
      simpa only [setBridge, update_self] using hb
    · simpa only [World.setBridge, update_of_ne h] using hw.bridges conn'
  owner := hw.owner
  kernel m hm := by
    have hk := hw.kernel m hm
    by_cases h : m.active.conn = conn
    · have hnew := hkernel m hm h (h ▸ hk)
      simpa only [World.setBridge, h, update_self] using hnew
    · simpa only [World.setBridge, update_of_ne h] using hk
  begun := hw.begun

theorem Inv.ensureRootIno (hw : Inv w) (conn deviceId : Nat) :
    Inv (w.setBridge conn ((w.bridges conn).ensureRootIno deviceId)) := by
  have hgrows := (w.bridges conn).grows_ensureRootIno deviceId
  exact hw.setBridge (hgrows.ok (hw.bridges conn)) fun _ _ _ hk => hk.grows hgrows

theorem ok_clearOpens (hok : b.Ok) : b.clearOpens.Ok :=
  ⟨hok.coherent, hok.allocated, hok.root, hok.started, fun _ _ h => nomatch h⟩

theorem Inv.clearOpens (hw : Inv w) (conn : Nat) :
    Inv (w.setBridge conn (w.bridges conn).clearOpens) := by
  refine hw.setBridge (ok_clearOpens (hw.bridges conn)) fun _ _ _ hk => ?_
  exact hk.of_back (fun _ _ h => h) (fun _ _ _ h => nomatch h) rfl le_rfl

/-- What the invariant says of a mount. -/
structure MountOk (w : World) (m : SharedMount) : Prop where
  owner : m.ownerConn = m.active.conn
  kernel : KernelOk m.active (w.bridges m.active.conn) m.kernel
  begun : ∀ b ∈ m.begun, b.backend = m.active

theorem Inv.mountOk (hw : Inv w) {m : SharedMount} (hm : m ∈ w.mount) : MountOk w m :=
  ⟨hw.owner m hm, hw.kernel m hm, hw.begun m hm⟩

theorem Inv.withMount (hw : Inv w) {m : SharedMount} (hm : MountOk w m) :
    Inv { w with mount := some m } where
  bridges := hw.bridges
  owner := by rintro _ ⟨⟩; exact hm.owner
  kernel := by rintro _ ⟨⟩; exact hm.kernel
  begun := by rintro _ ⟨⟩; exact hm.begun

theorem inv_join (hw : Inv w) (conn deviceId : Nat) : Inv (w.join conn deviceId) := by
  have hroot := hw.ensureRootIno conn deviceId
  unfold World.join
  cases hmount : w.mount with
  | none =>
    simp only [setBridge, hmount]
    exact hroot.withMount ⟨rfl, kernelOk_empty _ _, fun _ h => nomatch h⟩
  | some was =>
    simp only [setBridge, hmount]
    have hwas := hroot.mountOk (m := was) hmount
    exact hroot.withMount ⟨hwas.owner, hwas.kernel, hwas.begun⟩

theorem Unreused.kernelOk {active active' : ActiveBackend} {b' : Bridge} {kernel : Kernel}
    (h : Unreused active' b' kernel)
    (hok : b'.Ok)
    (hk : KernelOk active b kernel) : KernelOk active' b' kernel where
  inodes issued hmem path hpath := by
    by_cases hroot : issued.number = rootIno
    · have hrootPath : path = rootPath := hok.root _ _ (hroot ▸ hpath)
      exact ⟨hrootPath ▸ hk.root_path issued hmem hroot, .inl hroot⟩
    · exact (h.inodes issued hmem).2 hroot path hpath
  handles issued hmem := (h.handles issued hmem).2
  inodes_below issued hmem := (h.inodes issued hmem).1
  handles_below issued hmem := (h.handles issued hmem).1
  root_path := hk.root_path

theorem inv_handOver
    (hw : Inv w)
    {m : SharedMount}
    (hm : m ∈ w.mount)
    (members : Table Nat Nat) {newOwner deviceId : Nat}
    (hne : newOwner ≠ m.active.conn)
    (hbegun : m.begun = [])
    (hunreused : Unreused ⟨newOwner, deviceId⟩ (w.bridges newOwner) m.kernel) :
    Inv (w.handOver m members newOwner deviceId) := by
  have hroot := hw.ensureRootIno newOwner deviceId
  refine (hroot.clearOpens m.active.conn).withMount ⟨rfl, ?_, fun b hb => ?_⟩
  · have hk := hunreused.kernelOk (hw.bridges newOwner) (hw.kernel m hm)
    simpa only [setBridge, update_of_ne hne, update_self] using
      hk.grows ((w.bridges newOwner).grows_ensureRootIno deviceId)
  · rw [hbegun] at hb
    cases hb

variable {t : World}

theorem inv_leave
    (hw : Inv w)
    {newOwner : Nat}
    (hsmooth : Smooth w (.leave conn newOwner))
    (h : w.leave conn newOwner = some t) : Inv t := by
  unfold leave at h
  split at h
  · cases h
    exact hw
  · next m hm =>
    dsimp only at h
    split at h
    · cases h
      exact { bridges := hw.bridges, owner := nofun, kernel := nofun, begun := nofun }
    · split at h
      · next howner =>
        obtain ⟨deviceId, hdevice, rfl⟩ := map_eq_some_iff.mp h
        obtain ⟨hbegun, hunreused⟩ := hsmooth m hm howner deviceId hdevice
        refine inv_handOver hw hm _ ?_ hbegun hunreused
        rintro rfl
        rw [← howner, hw.owner m hm, AList.lookup_erase] at hdevice
        cases hdevice
      · cases h
        exact hw.withMount ⟨hw.owner m hm, hw.kernel m hm, hw.begun m hm⟩

theorem good_run (request : Request) (site : Site) {active : ActiveBackend} {kernel : Kernel}
    (rest : Bridge)
    (hours : site.ours = true → site = active.site)
    (hok : b.Ok)
    (hk : KernelOk active (shownBridge site active rest b) kernel) :
    Good site active rest [] (request.run site b kernel).2 :=
  (keeps_perform hours request.operation).afterwards ⟨hok, hk, fun _ hmem => nomatch hmem⟩

theorem shownBridge_bridges (w : World) (site : Site) (active : ActiveBackend) :
    shownBridge site active (w.bridges active.conn) (w.bridges site.conn) =
      w.bridges active.conn := by
  unfold shownBridge
  split
  · next hconn => rw [hconn]
  · rfl

theorem Inv.afterRun
    (hw : Inv w)
    (site : Site) {s : FuseState}
    (hok : s.bridge.Ok)
    (hk : ∀ m ∈ w.mount,
        KernelOk m.active (shownBridge site m.active (w.bridges m.active.conn) s.bridge) s.kernel) :
    Inv
      { w.setBridge site.conn s.bridge with
        mount := w.mount.map fun m => { m with kernel := s.kernel } } where
  bridges conn := by
    by_cases h : conn = site.conn
    · subst h
      simpa only [World.setBridge, update_self] using hok
    · simpa only [World.setBridge, update_of_ne h] using hw.bridges conn
  owner _ hm := by
    obtain ⟨m, hmount, rfl⟩ := map_eq_some_iff.mp hm
    exact hw.owner m hmount
  kernel _ hm := by
    obtain ⟨m, hmount, rfl⟩ := map_eq_some_iff.mp hm
    have hnew := hk m hmount
    unfold shownBridge at hnew
    split at hnew
    · next hconn => simpa only [World.setBridge, ← hconn, update_self] using hnew
    · next hconn => simpa only [World.setBridge, update_of_ne (Ne.symm hconn)] using hnew
  begun _ hm := by
    obtain ⟨m, hmount, rfl⟩ := map_eq_some_iff.mp hm
    exact hw.begun m hmount

theorem Inv.run (hw : Inv w) (request : Request) (site : Site) {m : SharedMount}
    (hm : w.mount = some m)
    (hours : site.ours = true → site = m.active.site) :
    let s := (request.run site (w.bridges site.conn) m.kernel).2
    Inv { w.setBridge site.conn s.bridge with mount := some { m with kernel := s.kernel } } := by
  intro s
  have hgood := good_run request site (w.bridges m.active.conn) hours (hw.bridges site.conn)
    ((shownBridge_bridges w site m.active).symm ▸ hw.kernel m hm)
  have hafter := hw.afterRun site hgood.ok fun m' hm' => by
    cases hm.symm.trans hm'
    exact hgood.kernel
  rwa [hm] at hafter

theorem inv_begin (hw : Inv w) {request : Request} (h : step w (.begin request) = some t) :
    Inv t := by
  obtain ⟨m, hm, h⟩ := bind_eq_some_iff.mp h
  split at h <;> cases h
  refine hw.withMount ⟨hw.owner m hm, hw.kernel m hm, fun b hb => ?_⟩
  rcases List.mem_cons.mp hb with rfl | hold
  · rfl
  · exact hw.begun m hm b hold

/-- No hand-over came between: the request finishes on the backend that is still active. -/
theorem inv_finish (hw : Inv w) {thread : Nat} (h : step w (.finish thread) = some t) : Inv t := by
  obtain ⟨m, hm, h⟩ := bind_eq_some_iff.mp h
  obtain ⟨b, hb, rfl⟩ := map_eq_some_iff.mp h
  have hbackend : b.backend = m.active := hw.begun m hm b (List.mem_of_getElem? hb)
  rw [hbackend]
  have hafter := hw.run b.request m.active.site hm fun _ => rfl
  have hok := hafter.mountOk rfl
  exact hafter.withMount
    ⟨hok.owner, hok.kernel, fun b hb => hok.begun b (List.mem_of_mem_eraseIdx hb)⟩

theorem inv_elsewhere
    (hw : Inv w)
    {deviceId : Nat} {request : Request}
    (h : step w (.elsewhere conn deviceId request) = some t) : Inv t := by
  cases h
  cases hmount : w.mount with
  | none =>
    -- no kernel looks on: any backend will do for the tables
    have hgood := good_run request ⟨conn, deviceId, false⟩ (w.bridges conn) (fun h => nomatch h)
      (hw.bridges conn) (kernelOk_empty ⟨conn, deviceId⟩ _)
    have hafter := hw.afterRun ⟨conn, deviceId, false⟩ hgood.ok fun m hm => by
      cases hmount.symm.trans hm
    rw [hmount] at hafter
    exact hafter
  | some m => exact hw.run request ⟨conn, deviceId, false⟩ hmount nofun

theorem inv_step {action : Action}
    (hw : Inv w)
    (hsmooth : Smooth w action)
    (h : step w action = some t) : Inv t := by
  cases action with
  | begin request => exact inv_begin hw h
  | finish thread => exact inv_finish hw h
  | join conn deviceId =>
    cases h
    exact inv_join hw conn deviceId
  | leave conn newOwner => exact inv_leave hw hsmooth h
  | elsewhere conn deviceId request => exact inv_elsewhere hw h
  | rootElsewhere conn deviceId =>
    cases h
    exact hw.ensureRootIno conn deviceId
  | clearElsewhere conn =>
    cases h
    exact hw.clearOpens conn

theorem Inv.faithful (hw : Inv w) : Faithful w :=
  fun m hm => ⟨(hw.kernel m hm).inodes, (hw.kernel m hm).handles⟩

/-- Along every run of a shared mount, with any connections joining and leaving, every number the
kernel has leads to what it was returned for or to nothing, as long as no hand-over overtakes
a request or goes to a bridge that reuses one of those numbers. -/
theorem faithful_always_of_smooth (users : Nat → Nat × Nat) (schedule : List Action)
    (hsmooth : Careful step Smooth (World.start users) schedule) :
    Always step Faithful (World.start users) schedule :=
  always_of_careful Inv (fun _ hw => hw.faithful) (fun _ _ _ hw hok h => inv_step hw hok h) schedule
    (inv_start users) hsmooth

instance (active : ActiveBackend) (b : Bridge) : DecidablePred (InodeFaithful active b) :=
  fun issued =>
  inferInstanceAs (Decidable (∀ path ∈ b.pathFor active.deviceId issued.number, _))

instance (active : ActiveBackend) (b : Bridge) : DecidablePred (HandleFaithful active b) :=
  fun issued =>
  inferInstanceAs (Decidable (∀ handle ∈ b.opens.lookup issued.number, _))

instance : DecidablePred Faithful := fun w => inferInstanceAs (Decidable (∀ m ∈ w.mount, _))

instance (active : ActiveBackend) (b : Bridge) (kernel : Kernel) :
    Decidable (Unreused active b kernel) :=
  decidable_of_iff
    ((∀ issued ∈ kernel.inodes, issued.number < b.nextIno ∧
        (issued.number ≠ rootIno → InodeFaithful active b issued)) ∧
      ∀ issued ∈ kernel.handles, issued.number < b.nextFh ∧ HandleFaithful active b issued)
    ⟨fun h => ⟨h.1, h.2⟩, fun h => ⟨h.inodes, h.handles⟩⟩

instance (w : World) : DecidablePred (Smooth w)
  | .leave _ _ => inferInstanceAs (Decidable (∀ m ∈ w.mount, _))
  | .begin _ | .finish _ | .join _ _ | .elsewhere _ _ _ | .rootElsewhere _ _ | .clearElsewhere _ =>
    isTrue trivial

def lookupIn (files : List String) (name : String) : Request :=
  { operation := .lookup rootIno (some name.toList)
    visits := .asListed
    replies :=
      [.create (.ok 10)] ++ files.map (fun file => .queryDir (.ok (some ⟨5, 0, file.toList⟩))) ++
        [.queryDir (.ok none), .close 0] }

def openAs (ino fileId : Nat) : Request :=
  ⟨.openFile ino false false, .asListed, [.create (.ok fileId)]⟩

def oneUser (_ : Nat) : Nat × Nat := (1000, 1000)

def smoothRun : List Action :=
  [.join 1 7, .join 2 9, .begin (lookupIn ["a.txt"] "a.txt"), .finish 0, .begin (openAs 2 11),
    .begin (lookupIn ["a.txt"] "a.txt"), .finish 1, .finish 0, .rootElsewhere 2 8,
    .elsewhere 2 8 (lookupIn ["x", "y"] "x"), .elsewhere 2 8 (openAs 2 12),
    .elsewhere 2 8 ⟨.release 1, .asListed, [.close 0]⟩, .leave 1 2,
    .begin (lookupIn ["b.txt"] "b.txt"), .finish 0, .begin (openAs 4 21), .finish 0]

theorem faithful_smoothRun :
    Careful step Smooth (World.start oneUser) smoothRun ∧
    Always step Faithful (World.start oneUser) smoothRun := by
  have hsmooth : Careful step Smooth (start oneUser) smoothRun := by decide +kernel
  exact ⟨hsmooth, faithful_always_of_smooth oneUser smoothRun hsmooth⟩

def handOverRun : List Action :=
  [.join 1 7, .join 2 9, .begin (lookupIn ["a.txt"] "a.txt"), .finish 0, .begin (openAs 2 11),
    .finish 0, .leave 1 2, .begin (lookupIn ["b.txt"] "b.txt"), .finish 0, .begin (openAs 2 21),
    .finish 0]

theorem handOver_reuses_numbers :
    ∃ w m,
      exec step (World.start oneUser) handOverRun = some w ∧
      w.mount = some m ∧
      ⟨2, 1, 7, ["\\a.txt".toList]⟩ ∈ m.kernel.inodes ∧
      ⟨1, 1, ⟨7, 11⟩⟩ ∈ m.kernel.handles ∧
      m.active = ⟨2, 9⟩ ∧
      (w.bridges 2).pathFor 9 2 = some "\\b.txt".toList ∧
      (w.bridges 2).opens.lookup 1 = some ⟨9, 21⟩ ∧
      ¬ Faithful w := by
  have hrun : (exec step (start oneUser) handOverRun).any (fun w => w.mount.any fun m =>
      ⟨2, 1, 7, ["\\a.txt".toList]⟩ ∈ m.kernel.inodes ∧ ⟨1, 1, ⟨7, 11⟩⟩ ∈ m.kernel.handles ∧
      m.active = ⟨2, 9⟩ ∧ (w.bridges 2).pathFor 9 2 = some "\\b.txt".toList ∧
      (w.bridges 2).opens.lookup 1 = some ⟨9, 21⟩ ∧ ¬ Faithful w) = true := by decide +kernel
  obtain ⟨w, hw, hany⟩ := (any_eq_true _ _).mp hrun
  obtain ⟨m, hm, hfacts⟩ := (any_eq_true _ _).mp hany
  exact ⟨w, m, hw, hm, of_decide_eq_true hfacts⟩

end Kmsrdp.Guarantees.MountNumbers
