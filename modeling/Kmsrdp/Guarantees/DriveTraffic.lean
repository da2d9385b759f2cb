import Kmsrdp.Library.Execution
import Kmsrdp.Guarantees.DrivePaths

/-!
# The paths a drive client is sent

A run of the shared mount with everything it sends, also for other mounts of the same connections.
Every path sent is canonical until a request exchanges a file of the root directory that the client
opens (`SwapsInRoot`).
-/
namespace Kmsrdp.Guarantees.DriveTraffic
open Library.Execution Source.Rdpdr Guarantees.DrivePaths Option

/-- A request that an action runs, and where it does. -/
structure Run where
  site : Site
  bridge : Bridge
  kernel : Kernel
  request : Request

def runOf (w : World) : Action → Option Run
  | .finish thread =>
    w.mount.bind fun m => m.begun[thread]?.map fun b =>
      ⟨b.backend.site, w.bridges b.backend.conn, m.kernel, b.request⟩
  | .elsewhere conn deviceId request =>
    some ⟨⟨conn, deviceId, false⟩, w.bridges conn, w.mount.elim .empty (·.kernel), request⟩
  | .begin _ | .join _ _ | .leave _ _ | .rootElsewhere _ _ | .clearElsewhere _ => none

def Run.outcome (run : Run) : FuseState := (run.request.run run.site run.bridge run.kernel).2

/-- The mount and all the commands its clients have been sent. -/
structure Traffic where
  world : World
  sent : List DriveCommand

def Traffic.start (users : Nat → Nat × Nat) : Traffic := ⟨.start users, []⟩

def Traffic.step (s : Traffic) (action : Action) : Option Traffic :=
  (Source.Rdpdr.step s.world action).map fun w =>
    ⟨w, s.sent ++ (runOf s.world action).elim [] fun run => run.outcome.sent⟩

def SentCanonical (s : Traffic) : Prop := ∀ command ∈ s.sent, CanonicalCommand command

/-- The action exchanges no file of a root directory. -/
def SwapFree (s : Traffic) (action : Action) : Prop :=
  ∀ run ∈ runOf s.world action, ¬ SwapsInRoot run.site run.bridge run.request

structure Inv (s : Traffic) : Prop where
  tables : ∀ conn, Tables (s.world.bridges conn)
  sent : SentCanonical s

theorem inv_start (users : Nat → Nat × Nat) : Inv (.start users) where
  tables _ := tables_new _ _
  sent _ h := absurd h List.not_mem_nil

variable {w : World}

theorem tables_setBridge
    (hw : ∀ conn, Tables (w.bridges conn))
    {conn : Nat} {b : Bridge}
    (hb : Tables b)
    (conn' : Nat) : Tables ((w.setBridge conn b).bridges conn') := by
  by_cases h : conn' = conn
  · subst h
    simpa only [World.setBridge, Function.update_self] using hb
  · simpa only [World.setBridge, Function.update_of_ne h] using hw conn'

theorem tables_clearOpens {b : Bridge} (h : Tables b) : Tables b.clearOpens := h.of_eq rfl rfl

theorem tables_handOver
    (hw : ∀ conn, Tables (w.bridges conn))
    (m : SharedMount) (members : Table Nat Nat) (newOwner deviceId conn : Nat) :
    Tables ((w.handOver m members newOwner deviceId).bridges conn) := by
  have hroot : ∀ other,
      Tables ((w.setBridge newOwner ((w.bridges newOwner).ensureRootIno deviceId)).bridges other) :=
    tables_setBridge hw ((hw newOwner).ensureRootIno deviceId)
  exact tables_setBridge hroot (tables_clearOpens (hroot m.active.conn)) conn

theorem tables_leave {t : World}
    (hw : ∀ conn, Tables (w.bridges conn))
    {leaving newOwner : Nat}
    (h : w.leave leaving newOwner = some t)
    (conn : Nat) : Tables (t.bridges conn) := by
  unfold World.leave at h
  split at h
  · cases h
    exact hw conn
  · dsimp only at h
    split at h
    · cases h
      exact hw conn
    · split at h
      · obtain ⟨deviceId, -, rfl⟩ := map_eq_some_iff.mp h
        exact tables_handOver hw _ _ newOwner deviceId conn
      · cases h
        exact hw conn

variable {action : Action}

theorem tables_step {t : World}
    (hw : ∀ conn, Tables (w.bridges conn))
    (hrun : ∀ run ∈ runOf w action, Tables run.outcome.bridge)
    (h : Source.Rdpdr.step w action = some t)
    (conn : Nat) : Tables (t.bridges conn) := by
  cases action with
  | begin request =>
    obtain ⟨m, -, h⟩ := bind_eq_some_iff.mp h
    split at h <;> cases h
    exact hw conn
  | finish thread =>
    obtain ⟨m, hm, h⟩ := bind_eq_some_iff.mp h
    obtain ⟨b, hb, rfl⟩ := map_eq_some_iff.mp h
    have hmem := hrun _ (bind_eq_some_iff.mpr ⟨m, hm, map_eq_some_iff.mpr ⟨b, hb, rfl⟩⟩)
    exact tables_setBridge hw hmem conn
  | join conn' deviceId =>
    cases h
    exact tables_setBridge hw ((hw conn').ensureRootIno deviceId) conn
  | leave conn' newOwner => exact tables_leave hw h conn
  | elsewhere conn' deviceId request =>
    cases h
    exact tables_setBridge hw (hrun _ rfl) conn
  | rootElsewhere conn' deviceId =>
    cases h
    exact tables_setBridge hw ((hw conn').ensureRootIno deviceId) conn
  | clearElsewhere conn' =>
    cases h
    exact tables_setBridge hw (tables_clearOpens (hw conn')) conn

theorem tables_runOf (hw : ∀ conn, Tables (w.bridges conn)) {run : Run} (h : run ∈ runOf w action) :
    Tables run.bridge := by
  cases action with
  | finish thread =>
    obtain ⟨m, -, h⟩ := bind_eq_some_iff.mp h
    obtain ⟨b, -, rfl⟩ := map_eq_some_iff.mp h
    exact hw b.backend.conn
  | elsewhere conn deviceId request =>
    cases h
    exact hw conn
  | begin _ => cases h
  | join _ _ => cases h
  | leave _ _ => cases h
  | rootElsewhere _ _ => cases h
  | clearElsewhere _ => cases h

theorem inv_step {s t : Traffic} (hs : Inv s)
    (hfree : SwapFree s action)
    (h : s.step action = some t) : Inv t := by
  obtain ⟨w, hw, rfl⟩ := map_eq_some_iff.mp h
  have hclean : ∀ run ∈ runOf s.world action, Clean run.outcome := fun run hrun =>
    clean_run run.site (tables_runOf hs.tables hrun) (hfree run hrun) run.kernel
  refine ⟨tables_step hs.tables (fun run hrun => (hclean run hrun).tables) hw, fun command hmem => ?_⟩
  rcases List.mem_append.mp hmem with hold | hnew
  · exact hs.sent command hold
  · cases hrun : runOf s.world action with
    | none =>
      rw [hrun] at hnew
      exact absurd hnew List.not_mem_nil
    | some run =>
      rw [hrun] at hnew
      exact (hclean run hrun).sent command hnew

theorem step_of_runOf {run : Run} (h : run ∈ runOf w action) :
    ∃ t, Source.Rdpdr.step w action = some t := by
  cases action with
  | finish thread =>
    obtain ⟨m, hm, h⟩ := bind_eq_some_iff.mp h
    obtain ⟨b, hb, -⟩ := map_eq_some_iff.mp h
    exact ⟨_, bind_eq_some_iff.mpr ⟨m, hm, map_eq_some_iff.mpr ⟨b, hb, rfl⟩⟩⟩
  | elsewhere conn deviceId request => exact ⟨_, rfl⟩
  | begin _ => cases h
  | join _ _ => cases h
  | leave _ _ => cases h
  | rootElsewhere _ _ => cases h
  | clearElsewhere _ => cases h

theorem broken_of_swap {s : Traffic} (h : ¬ SwapFree s action) :
    ∃ t, s.step action = some t ∧ ¬ SentCanonical t := by
  obtain ⟨run, hrest⟩ := Classical.not_forall.mp h
  obtain ⟨hrun, hswaps⟩ := Classical.not_imp.mp hrest
  obtain ⟨w, hw⟩ := step_of_runOf hrun
  obtain ⟨command, hmem, hbad⟩ := exchanging_run run.site (Classical.not_not.mp hswaps) run.kernel
  refine ⟨_, map_eq_some_iff.mpr ⟨w, hw, rfl⟩, fun hcanonical => hbad (hcanonical command ?_)⟩
  rw [mem_def.mp hrun]
  exact List.mem_append_right _ hmem

/-- In every run of a shared mount, with any requests, names, answers and directory entries, all
paths sent are canonical exactly when no request exchanges a file of a root directory that the
client lets it open. -/
theorem sent_paths_canonical_iff (users : Nat → Nat × Nat) (schedule : List Action) :
    Always Traffic.step SentCanonical (.start users) schedule ↔
      Careful Traffic.step SwapFree (.start users) schedule :=
  always_iff_careful Inv (fun _ hs => hs.sent) (fun _ _ _ hs hfree h => inv_step hs hfree h)
    (fun _ _ _ hswap => broken_of_swap hswap) schedule (inv_start users)

def exchangeInRoot : Request :=
  { operation := .rename rootIno (some ['a']) rootIno (some ['b']) ⟨false, true, false⟩
    visits := .asListed
    replies :=
      [.create (.ok 10), .setInfo (.ok ()), .close 0, .create (.ok 11), .setInfo (.ok ()), .close 0,
        .create (.ok 12), .setInfo (.ok ()), .close 0] }

def exchangeRun : List Action := [.join 1 7, .begin exchangeInRoot, .finish 0]

theorem exchange_doubles_separator :
    ∃ t,
      exec Traffic.step (.start fun _ => (1000, 1000)) exchangeRun = some t ∧
      .setInformation 7 10 (.rename "\\\\.__kmsrdp_xchg_1".toList false) 3 ∈ t.sent ∧
      ¬ SentCanonical t :=
    by
  have hrun : (exec Traffic.step (.start fun _ => (1000, 1000)) exchangeRun).any (fun t =>
      .setInformation 7 10 (.rename "\\\\.__kmsrdp_xchg_1".toList false) 3 ∈ t.sent) =
        true := by decide +kernel
  obtain ⟨t, ht, hany⟩ := (any_eq_true _ _).mp hrun
  have hmem := of_decide_eq_true hany
  refine ⟨t, ht, hmem, fun hcanonical => ?_⟩
  have hdoubled : ¬ Canonical (exchangeName "\\a".toList 1) := not_canonical_exchangeName rfl 1
  exact hdoubled (hcanonical _ hmem _ (List.mem_singleton_self _))

end Kmsrdp.Guarantees.DriveTraffic
