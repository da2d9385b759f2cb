import Kmsrdp.Library.PartialMap
import Kmsrdp.Source.Server.Connections

/-!
# Failed credential checks of one address

After five failed checks no sixth should run until the lockout ends or a success clears the record.
For this handshakes of one address must not overlap, since sixteen may be past the limiter's
question at once (`overlapping_checks`); a failure must find the limiter's window open; and a locked
address must not be dropped from a full table.
-/
namespace Kmsrdp.Guarantees.FailedChecks
open Library.Execution Library.PartialMap Source.Server.AuthLimit Source.Server.Connections Function

/-- Fewer than five checks had failed before the newest one. So at most five fail, and none runs
after them. -/
def FewChecks (w : World) : Prop :=
  ∀ ip newest older, w.checks ip = newest :: older → older.count false < maxFailures

/-- The task is past the limiter's question, and its own verdict is not recorded. -/
def InHandshake : Stage → Prop
  | .negotiating _ _ | .failed | .approved _ => True
  | .spawned | .authenticated _ | .done => False

/-- No other task of the address is in its handshake. -/
def Alone (tasks : Nat → Option Task) (conn : Nat) (ip : IpAddr) : Prop :=
  ∀ other t, other ≠ conn → tasks other = some t → t.ip = ip → ¬ InHandshake t.stage

/-- If failed checks of the address are on record, the limiter is still counting in their window;
and no address that is locked out makes room. -/
def WindowKept (w : World) (ip victim : IpAddr) : Prop :=
  (0 < w.recorded ip → ∃ state, w.map.lookup ip = some state ∧ state.lockedUntil = none ∧
    w.clock - state.first ≤ window) ∧
  (Evicts w.map ip w.clock → ¬ Blocked w.map victim w.clock)

/-- Checks of one address do not overlap, and a failure finds its window kept. -/
def Orderly (w : World) : Action → Prop
  | .begin conn =>
    ∀ t, w.tasks conn = some t → ¬ Blocked w.map t.ip w.clock → Alone w.tasks conn t.ip
  | .record conn victim => ∀ t, w.tasks conn = some t → t.stage = .failed → WindowKept w t.ip victim
  | .timeout conn victim =>
    ∀ t, w.tasks conn = some t → InHandshake t.stage → WindowKept w t.ip victim
  | _ => True

/-- What holds of one address: `busy` says that a task of it is in its handshake, `failing` that a
failed check of it is not recorded yet. -/
structure AddressOk (entry : Option FailureState) (clock : Nat) (checks : List Bool)
    (recorded : Nat)
    (lockEnd : Option Nat) (busy failing : Prop) : Prop where
  few : ∀ newest older, checks = newest :: older → older.count false < maxFailures
  pending : failing → checks.count false = recorded + 1
  settled : ¬ failing → checks.count false = recorded
  counted : ∀ state, entry = some state → state.lockedUntil = none →
    recorded ≤ state.count ∧ state.count < maxFailures
  below : lockEnd = none → recorded < maxFailures
  locked : ∀ ending, lockEnd = some ending → clock < ending ∧ ¬ busy ∧
    ∃ state, entry = some state ∧ state.lockedUntil = some ending
  known : ∀ state ending, entry = some state → state.lockedUntil = some ending → clock < ending →
    lockEnd = some ending

section Address
variable {entry entry' : Option FailureState} {clock : Nat} {checks : List Bool} {recorded : Nat}
  {lockEnd : Option Nat} {busy failing : Prop}
section
variable (h : AddressOk entry clock checks recorded lockEnd busy failing)
include h

theorem AddressOk.subset
    (hsub : ∀ state, entry' = some state → entry = some state)
    (hkept : ∀ state ending, entry = some state → state.lockedUntil = some ending → clock < ending →
        entry' = some state) : AddressOk entry' clock checks recorded lockEnd busy failing :=
  { h with
    counted := fun state hstate => h.counted state (hsub state hstate)
    locked := by
      intro ending hlock
      obtain ⟨hclock, hbusy, state, hstate, hlocked⟩ := h.locked ending hlock
      exact ⟨hclock, hbusy, state, hkept state ending hstate hlocked hclock, hlocked⟩
    known := fun state ending hstate => h.known state ending (hsub state hstate) }

theorem AddressOk.tasks {busy' failing' : Prop}
    (hbusy : busy' → busy)
    (hfailing : failing' ↔ failing) :
    AddressOk entry clock checks recorded lockEnd busy' failing' :=
  { h with
    pending := fun hf => h.pending (hfailing.mp hf)
    settled := fun hf => h.settled fun hf' => hf (hfailing.mpr hf')
    locked := fun ending hlock =>
      have ⟨hclock, hidle, hentry⟩ := h.locked ending hlock
      ⟨hclock, fun hb => hidle (hbusy hb), hentry⟩ }

theorem AddressOk.unlocked (hbusy : busy) : lockEnd = none := by
  cases hlock : lockEnd with
  | none => rfl
  | some ending => exact absurd hbusy (h.locked ending hlock).2.1

theorem AddressOk.enter (hnone : lockEnd = none) (busy' : Prop) :
    AddressOk entry clock checks recorded lockEnd busy' failing :=
  { h with locked := fun ending hlock => by cases hnone.symm.trans hlock }

theorem AddressOk.check
    (hbusy : busy)
    (hsettled : ¬ failing)
    (ok : Bool) {failing' : Prop}
    (hfailing : failing' ↔ ok = false) :
    AddressOk entry clock (ok :: checks) recorded lockEnd busy failing' :=
  { h with
    few := by
      intro newest older heq
      cases heq
      rw [h.settled hsettled]
      exact h.below (h.unlocked hbusy)
    pending := by
      intro hf
      rw [hfailing.mp hf, List.count_cons_self, h.settled hsettled]
    settled := by
      intro hf
      have hok : ok = true := by simpa using mt hfailing.mpr hf
      rw [hok, List.count_cons_of_ne (by decide), h.settled hsettled] }

end

theorem addressOk_cleared
    (hentry : ∀ state, entry = some state → state.lockedUntil = none → state.count < maxFailures)
    (hlive :
      ∀ state ending, entry = some state → state.lockedUntil = some ending → ¬ clock < ending)
    (hfailing : ¬ failing) : AddressOk entry clock [] 0 none busy failing where
  few := fun newest older heq => by cases heq
  pending := fun hf => absurd hf hfailing
  settled := fun _ => rfl
  counted := fun state hstate hlocked => ⟨Nat.zero_le _, hentry state hstate hlocked⟩
  below := fun _ => by decide
  locked := fun ending hlock => by cases hlock
  known := fun state ending hstate hlocked hclock =>
    absurd hclock (hlive state ending hstate hlocked)

section
variable (h : AddressOk entry clock checks recorded lockEnd busy failing)
include h

theorem AddressOk.advance
    (hbusy : failing → busy) {now : Nat} (hle : clock ≤ now) :
    let ended := lockEnd.any fun ending => ending ≤ now
    AddressOk entry now (if ended then [] else checks) (if ended then 0 else recorded)
      (if ended then none else lockEnd) busy failing := by
  by_cases hover : (lockEnd.any fun ending => ending ≤ now) = true
  · obtain ⟨ending, rfl, hending⟩ := (Option.any_eq_true _ _).mp hover
    simp only [hover, if_true]
    refine addressOk_cleared (fun state hstate hlocked => (h.counted state hstate hlocked).2) ?_
      fun hf => (h.locked ending rfl).2.1 (hbusy hf)
    intro state ending' hstate hlocked hnow
    cases h.known state ending' hstate hlocked (by omega)
    exact Nat.not_lt.mpr (decide_eq_true_iff.mp hending) hnow
  · simp only [if_neg hover]
    refine ⟨h.few, h.pending, h.settled, h.counted, h.below, ?_, ?_⟩
    · rintro ending rfl
      obtain ⟨-, hrest⟩ := h.locked ending rfl
      exact ⟨by simpa using hover, hrest⟩
    · exact fun state ending hstate hlocked hnow => h.known state ending hstate hlocked (by omega)

/-- A failure of the only handshake is told to the limiter: `after` of the failed checks are on
record then. -/
theorem AddressOk.fail
    (hbusy : busy)
    {after : Nat}
    (hafter : checks.count false = after)
    (hle : after ≤ recorded + 1)
    (hgc : ∀ state, entry' = some state ↔ entry = some state ∧ entryLive state clock = true)
    (hopen : 0 < recorded →
        ∃ state, entry = some state ∧ state.lockedUntil = none ∧ clock - state.first ≤ window) :
    AddressOk (some ((entry'.getD ⟨0, clock, none⟩).fail clock)) clock checks after
      ((entry'.getD ⟨0, clock, none⟩).fail clock).lockedUntil False False := by
  have hnone := h.unlocked hbusy
  have hpos : 0 < lockout := by decide
  -- the entry that is counted in, and what it has counted
  obtain ⟨state, hstate, hlocked, hwindow, hcount, hfew⟩ : ∃ state,
    entry'.getD ⟨0, clock, none⟩ = state ∧
      state.lockedUntil = none ∧ clock - state.first ≤ window ∧ recorded ≤ state.count ∧
      state.count < maxFailures := by
    cases hentry : entry' with
    | none =>
      refine ⟨_, rfl, rfl, by simp, ?_, show 0 < maxFailures by decide⟩
      by_contra hrecorded
      obtain ⟨state, hstate, hlocked, hwindow⟩ := hopen (by omega)
      have hlive : entryLive state clock = true := by simp [entryLive, hlocked, hwindow]
      cases hentry.symm.trans ((hgc state).mpr ⟨hstate, hlive⟩)
    | some state =>
      obtain ⟨hstate, hlive⟩ := (hgc state).mp hentry
      cases hlocked : state.lockedUntil with
      | none =>
        obtain ⟨hcount, hfew⟩ := h.counted state hstate hlocked
        exact ⟨state, rfl, hlocked, by simpa [entryLive, hlocked] using hlive, hcount, hfew⟩
      | some ending =>
        have hclock : clock < ending := by simpa [entryLive, hlocked] using hlive
        cases hnone.symm.trans (h.known state ending hstate hlocked hclock)
  rw [hstate, FailureState.fail_of_open hlocked hwindow]
  have hmin : min (state.count + 1) u32Max = state.count + 1 := by
    unfold maxFailures u32Max at *
    omega
  rw [hmin]
  refine ⟨h.few, False.elim, fun _ => hafter, ?_, ?_, ?_, ?_⟩
  · intro state' heq hunlocked
    cases heq
    split at hunlocked
    · cases hunlocked
    · next hless =>
      dsimp only
      omega
  · intro hunlocked
    split at hunlocked
    · cases hunlocked
    · next hless => omega
  · intro ending hending
    refine ⟨?_, id, _, rfl, hending⟩
    split at hending
    · cases hending
      omega
    · cases hending
  · intro state' ending heq hending _
    cases heq
    exact hending

end
end Address

def someTask (tasks : Nat → Option Task) (ip : IpAddr) (inStage : Stage → Prop) : Prop :=
  ∃ conn t, tasks conn = some t ∧ t.ip = ip ∧ inStage t.stage

section Tasks
variable {tasks : Nat → Option Task} {conn : Nat} {t after : Task} {ip : IpAddr}
    {inStage : Stage → Prop}

theorem someTask_update_iff :
    someTask (update tasks conn (some after)) ip inStage ↔
      after.ip = ip ∧ inStage after.stage ∨
      ∃ other t, other ≠ conn ∧ tasks other = some t ∧ t.ip = ip ∧ inStage t.stage := by
  constructor
  · rintro ⟨other, t, htask, hip, hstage⟩
    by_cases hsame : other = conn
    · rw [hsame, update_self] at htask
      cases htask
      exact .inl ⟨hip, hstage⟩
    · rw [update_of_ne hsame] at htask
      exact .inr ⟨other, t, hsame, htask, hip, hstage⟩
  · rintro (⟨hip, hstage⟩ | ⟨other, t, hsame, htask, hip, hstage⟩)
    · exact ⟨conn, after, update_self _ _ _, hip, hstage⟩
    · exact ⟨other, t, (update_of_ne hsame _ _).trans htask, hip, hstage⟩

theorem someTask_update_idle
    (hbefore : ∀ t, tasks conn = some t → t.ip = ip → ¬ inStage t.stage)
    (hafter : after.ip = ip → ¬ inStage after.stage) :
    someTask (update tasks conn (some after)) ip inStage ↔ someTask tasks ip inStage := by
  rw [someTask_update_iff]
  constructor
  · rintro (⟨hip, hstage⟩ | ⟨other, t, -, htask, hip, hstage⟩)
    · exact absurd hstage (hafter hip)
    · exact ⟨other, t, htask, hip, hstage⟩
  · rintro ⟨other, t, htask, hip, hstage⟩
    refine .inr ⟨other, t, ?_, htask, hip, hstage⟩
    rintro rfl
    exact hbefore t htask hip hstage

theorem someTask_update_alone
    (halone : Alone tasks conn ip)
    (stage : Stage)
    (hsub : ∀ stage, inStage stage → InHandshake stage) :
    someTask (update tasks conn (some ⟨ip, stage⟩)) ip inStage ↔ inStage stage := by
  rw [someTask_update_iff]
  constructor
  · rintro (⟨-, hstage⟩ | ⟨other, t, hsame, htask, hip, hstage⟩)
    · exact hstage
    · exact absurd (hsub _ hstage) (halone other t hsame htask hip)
  · exact fun hstage => .inl ⟨rfl, hstage⟩

theorem inHandshake_of_failed (stage : Stage) (h : stage = .failed) : InHandshake stage := by
  rw [h]
  trivial

def Serial (tasks : Nat → Option Task) : Prop :=
  ∀ conn t, tasks conn = some t → InHandshake t.stage → Alone tasks conn t.ip

theorem Serial.update
    (h : Serial tasks)
    (hafter : InHandshake after.stage → Alone tasks conn after.ip) :
    Serial (update tasks conn (some after)) := by
  intro one t hone hstage other t' hne hother hip hstage'
  by_cases hsame : one = conn
  · subst hsame
    rw [update_self] at hone
    cases hone
    rw [update_of_ne hne] at hother
    exact hafter hstage other t' hne hother hip hstage'
  · rw [update_of_ne hsame] at hone
    by_cases hsame' : other = conn
    · subst hsame'
      rw [update_self] at hother
      cases hother
      exact hafter hstage' one t hsame hone hip.symm hstage
    · rw [update_of_ne hsame'] at hother
      exact h one t hone hstage other t' hne hother hip hstage'

end Tasks

structure Inv (w : World) : Prop where
  fresh : ∀ conn, w.nextConn ≤ conn → w.tasks conn = none
  serial : Serial w.tasks
  ok : ∀ ip, AddressOk (w.map.lookup ip) w.clock (w.checks ip) (w.recorded ip) (w.lockEnd ip)
    (someTask w.tasks ip InHandshake) (someTask w.tasks ip (· = .failed))

theorem inv_start : Inv .start where
  fresh := fun _ _ => rfl
  serial := fun conn t h => by cases h
  ok := fun ip => addressOk_cleared (fun state h => by cases h) (fun state ending h => by cases h)
    fun ⟨_, _, h, _⟩ => by cases h

variable {w : World} {conn : Nat} {t : Task}

theorem busy_of_failing (tasks : Nat → Option Task) (ip : IpAddr)
    (h : someTask tasks ip (· = .failed)) : someTask tasks ip InHandshake := by
  obtain ⟨conn, t, htask, hip, hstage⟩ := h
  exact ⟨conn, t, htask, hip, inHandshake_of_failed _ hstage⟩

theorem Inv.gc (h : Inv w) : Inv { w with map := gc w.map w.clock } where
  fresh := h.fresh
  serial := h.serial
  ok := by
    intro ip
    refine (h.ok ip).subset (fun state hstate => (lookup_gc_eq_some_iff.mp hstate).1) ?_
    intro state ending hstate hlocked hclock
    exact lookup_gc_eq_some_iff.mpr ⟨hstate, by simp [entryLive, hlocked, hclock]⟩

theorem Inv.spawn (h : Inv w) (waiting : Option IpAddr) (permits : Nat) (ip : IpAddr) :
    Inv
      { w with
        waiting := waiting, permits := permits, nextConn := w.nextConn + 1
        tasks := update w.tasks w.nextConn (some ⟨ip, .spawned⟩) } where
  fresh := unused_take h.fresh _
  serial := h.serial.update False.elim
  ok := by
    intro other
    have hnone := h.fresh w.nextConn (Nat.le_refl _)
    refine (h.ok other).tasks (someTask_update_idle (fun t htask => ?_) fun _ => id).mp
      (someTask_update_idle (fun t htask => ?_) fun _ => Stage.noConfusion)
    · cases hnone.symm.trans htask
    · cases hnone.symm.trans htask

theorem Inv.endTask (h : Inv w) (htask : w.tasks conn = some t) (hstage : t.stage ≠ .failed) :
    Inv (w.endTask conn t) where
  fresh := unused_replace h.fresh htask _
  serial := h.serial.update False.elim
  ok := by
    intro ip
    refine (h.ok ip).tasks (fun hbusy => ?_)
      (someTask_update_idle (fun t' htask' _ => ?_) fun _ => Stage.noConfusion)
    · rcases someTask_update_iff.mp hbusy with ⟨-, hdone⟩ | ⟨other, t', -, hrest⟩
      · exact hdone.elim
      · exact ⟨other, t', hrest⟩
    · cases htask.symm.trans htask'
      exact hstage

theorem someTask_other (w : World)
    (htask : w.tasks conn = some t)
    (stage : Stage) {ip : IpAddr}
    (hip : ip ≠ t.ip)
    (inStage : Stage → Prop) :
    someTask (update w.tasks conn (some { t with stage := stage })) ip inStage ↔
      someTask w.tasks ip inStage := by
  refine someTask_update_idle (fun t' htask' hip' => ?_) fun hip' => absurd hip'.symm hip
  cases htask.symm.trans htask'
  exact absurd hip'.symm hip

theorem not_failing_of_alone
    (halone : Alone w.tasks conn t.ip)
    (htask : w.tasks conn = some t)
    (hstage : t.stage ≠ .failed) : ¬ someTask w.tasks t.ip (· = .failed) := by
  rintro ⟨other, t', htask', hip, hfailed⟩
  by_cases hsame : other = conn
  · subst hsame
    cases htask.symm.trans htask'
    exact hstage hfailed
  · exact halone other t' hsame htask' hip (inHandshake_of_failed _ hfailed)

theorem Inv.begin
    (h : Inv w)
    (htask : w.tasks conn = some t)
    (hstage : t.stage = .spawned)
    (hunblocked : ¬ Blocked w.map t.ip w.clock)
    (halone : Alone w.tasks conn t.ip)
    (deadline : Nat) : Inv (w.setStage conn t (.negotiating deadline false)) where
  fresh := unused_replace h.fresh htask _
  serial := h.serial.update fun _ => halone
  ok := by
    intro ip
    have hfailing : someTask
        (update w.tasks conn (some { t with stage := .negotiating deadline false })) ip
        (· = .failed) ↔ someTask w.tasks ip (· = .failed) := by
      refine someTask_update_idle (fun t' htask' _ => ?_) fun _ => Stage.noConfusion
      cases htask.symm.trans htask'
      exact hstage.trans_ne Stage.noConfusion
    by_cases hip : ip = t.ip
    · subst hip
      have hnone : w.lockEnd t.ip = none := by
        cases hlock : w.lockEnd t.ip with
        | none => rfl
        | some ending =>
          obtain ⟨hclock, -, state, hstate, hlocked⟩ := (h.ok t.ip).locked ending hlock
          exact absurd ⟨state, ending, hstate, hlocked, hclock⟩ hunblocked
      exact ((h.ok t.ip).enter hnone _).tasks id hfailing
    · exact (h.ok ip).tasks (someTask_other w htask _ hip _).mp hfailing

theorem Inv.check
    (h : Inv w)
    (htask : w.tasks conn = some t)
    {deadline : Nat} {nla : Bool}
    (hstage : t.stage = .negotiating deadline nla)
    (ok : Bool) {next : Stage}
    (hpassed : next ≠ .failed) : Inv (w.check conn t ok next) := by
  have hin : InHandshake t.stage := by
    rw [hstage]
    trivial
  have halone := h.serial conn t htask hin
  refine ⟨unused_replace h.fresh htask _, h.serial.update fun _ => halone, fun ip => ?_⟩
  show AddressOk (w.map.lookup ip) w.clock (update w.checks t.ip (ok :: w.checks t.ip) ip)
      (w.recorded ip)
    (w.lockEnd ip) _ _
  by_cases hip : ip = t.ip
  · subst hip
    rw [update_self]
    have hfailing : someTask
        (update w.tasks conn (some { t with stage := if ok then next else .failed })) t.ip
        (· = .failed) ↔ ok = false := by
      refine (someTask_update_alone halone _ inHandshake_of_failed).trans ?_
      cases ok with
      | false => exact iff_of_true rfl rfl
      | true => exact iff_of_false hpassed (by decide)
    have hbusy : someTask w.tasks t.ip InHandshake := ⟨conn, t, htask, rfl, hin⟩
    have hchecked := (h.ok t.ip).check hbusy
      (not_failing_of_alone halone htask (hstage.trans_ne Stage.noConfusion)) ok hfailing
    exact hchecked.tasks (fun _ => hbusy) Iff.rfl
  · rw [update_of_ne hip]
    exact (h.ok ip).tasks (someTask_other w htask _ hip _).mp (someTask_other w htask _ hip _)

theorem Inv.fail
    (h : Inv w)
    (htask : w.tasks conn = some t)
    (hin : InHandshake t.stage)
    {victim : IpAddr}
    (hkept : WindowKept w t.ip victim)
    {map : FailureMap}
    (hrecord : recordFailure w.map t.ip w.clock victim = some map)
    {after : Nat}
    (hafter : (w.checks t.ip).count false = after)
    (hle : after ≤ w.recorded t.ip + 1) :
    Inv
      {(w.endTask conn t).afterFailure t.ip map with recorded := update w.recorded t.ip after} := by
  have halone := h.serial conn t htask hin
  refine ⟨unused_replace h.fresh htask _, h.serial.update False.elim, fun ip => ?_⟩
  have hlookup := lookup_recordFailure hrecord ip
  show AddressOk (map.lookup ip) w.clock (w.checks ip) (update w.recorded t.ip after ip)
    (update w.lockEnd t.ip ((map.lookup t.ip).bind fun state => state.lockedUntil) ip) _ _
  by_cases hip : ip = t.ip
  · subst hip
    rw [if_pos rfl] at hlookup
    rw [update_self, update_self, hlookup]
    have hfailed := (h.ok t.ip).fail ⟨conn, t, htask, rfl, hin⟩ hafter hle
      (fun state => lookup_gc_eq_some_iff) hkept.1
    exact hfailed.tasks (someTask_update_alone halone _ fun _ => id).mp
      ((someTask_update_alone halone _ inHandshake_of_failed).trans
        (iff_of_false Stage.noConfusion id))
  · rw [if_neg hip] at hlookup
    rw [update_of_ne hip, update_of_ne hip]
    refine ((h.ok ip).subset ?_ ?_).tasks (someTask_other w htask _ hip _).mp
      (someTask_other w htask _ hip _)
    · intro state hstate
      rw [hlookup] at hstate
      split at hstate
      · cases hstate
      · exact (lookup_gc_eq_some_iff.mp hstate).1
    · intro state ending hstate hlocked hclock
      rw [hlookup, if_neg]
      · exact lookup_gc_eq_some_iff.mpr ⟨hstate, by simp [entryLive, hlocked, hclock]⟩
      · rintro ⟨hevicts, rfl⟩
        exact hkept.2 hevicts ⟨state, ending, hstate, hlocked, hclock⟩

theorem Inv.succeed
    (h : Inv w)
    (htask : w.tasks conn = some t)
    {deadline : Nat}
    (hstage : t.stage = .approved deadline) :
    Inv ((w.setStage conn t (.authenticated deadline)).afterSuccess t.ip) := by
  have halone := h.serial conn t htask (by rw [hstage]; trivial)
  refine ⟨unused_replace h.fresh htask _, h.serial.update False.elim, fun ip => ?_⟩
  show AddressOk ((recordSuccess w.map t.ip).lookup ip) w.clock (update w.checks t.ip [] ip)
    (update w.recorded t.ip 0 ip) (update w.lockEnd t.ip none ip) _ _
  by_cases hip : ip = t.ip
  · subst hip
    have hgone : (recordSuccess w.map t.ip).lookup t.ip = none := AList.lookup_erase _ _
    rw [update_self, update_self, update_self, hgone]
    refine addressOk_cleared (fun state hstate => by cases hstate)
      (fun state ending hstate => by cases hstate) ?_
    exact fun hfailing =>
      Stage.noConfusion ((someTask_update_alone halone _ inHandshake_of_failed).mp hfailing)
  · rw [update_of_ne hip, update_of_ne hip, update_of_ne hip,
      show (recordSuccess w.map t.ip).lookup ip = w.map.lookup ip from AList.lookup_erase_ne hip]
    exact (h.ok ip).tasks (someTask_other w htask _ hip _).mp (someTask_other w htask _ hip _)

theorem inv_step (w : World) (action : Action) (after : World)
    (h : Inv w)
    (horderly : Orderly w action)
    (hstep : step w action = some after) : Inv after := by
  cases change_of_step hstep with
  | ticked now later =>
    exact ⟨h.fresh, h.serial, fun ip => (h.ok ip).advance (busy_of_failing w.tasks ip) later⟩
  | accepted ip waiting => exact ⟨h.fresh, h.serial, h.gc.ok⟩
  | spawned ip => exact h.spawn none _ ip
  | refused conn t task stage => exact h.gc.endTask task (stage.trans_ne Stage.noConfusion)
  | begun conn t task stage unblocked deadline =>
    refine h.gc.begin task stage (fun hblocked => unblocked ?_) (horderly t task unblocked) deadline
    exact (blocked_gc_iff (Nat.le_refl _)).mp hblocked
  | exchanged conn t deadline ok task stage => exact h.check task stage ok Stage.noConfusion
  | informed conn t deadline nla ok task stage => exact h.check task stage ok Stage.noConfusion
  | recordedFailure conn t victim map task stage record =>
    have hin := inHandshake_of_failed _ stage
    exact h.fail task hin (horderly t task stage) record
      ((h.ok t.ip).pending ⟨conn, t, task, rfl, stage⟩)
      (Nat.le_refl _)
  | recordedSuccess conn t victim deadline task stage => exact h.succeed task stage
  | finished conn t task stage => exact h.endTask task stage
  | timedOut conn t victim deadline nla map task stage record =>
    have hin : InHandshake t.stage := by
      rw [stage]
      trivial
    have hsettled := (h.ok t.ip).settled
      (not_failing_of_alone (h.serial conn t task hin) task (stage.trans_ne Stage.noConfusion))
    have hfailed := h.fail task hin (horderly t task hin) record hsettled (Nat.le_succ _)
    rwa [update_eq_self] at hfailed
  | timedOutLate conn t victim deadline task stage =>
    exact h.endTask task (stage.trans_ne Stage.noConfusion)

/-- In every run whose steps are orderly, a credential check of an address runs only when fewer than
five have failed since its last success or lockout. -/
theorem few_checks_of_orderly (schedule : List Action)
    (horderly : Careful step Orderly .start schedule) : Always step FewChecks .start schedule :=
  always_of_careful Inv (fun _ h ip => (h.ok ip).few) inv_step schedule inv_start horderly

def someAddress : IpAddr := .v4 0xC000020A

def failedTwice : List Action :=
  [.accept someAddress, .permit, .begin 0, .clientInfo 0 false, .record 0 someAddress,
    .accept someAddress, .permit, .begin 1, .clientInfo 1 false, .record 1 someAddress]

theorem failedTwice_few : Always step FewChecks .start failedTwice := by
  refine few_checks_of_orderly failedTwice ?_
  refine .cons trivial rfl (.cons trivial rfl (.cons ?_ rfl (.cons trivial rfl (.cons ?_ rfl ?_))))
  · rintro t ht - other t' hne ht' - -
    cases (update_of_ne hne _ _).symm.trans ht'
  · rintro t ht -
    cases ht
    exact ⟨fun hrecorded => absurd hrecorded (by decide),
      fun hevicts => absurd hevicts.1 (by decide +kernel)⟩
  refine .cons trivial rfl
    (.cons trivial rfl (.cons ?_ rfl (.cons trivial rfl (.cons ?_ rfl trivial))))
  · rintro t ht - other t' hne ht' - hin
    match other with
    | 0 =>
      -- the first connection is over
      cases ht'
      exact hin
    | 1 => exact hne rfl
    | n + 2 => cases ht'
  · rintro t ht -
    cases ht
    exact ⟨fun _ => ⟨_, rfl, rfl, by decide +kernel⟩,
      fun hevicts => absurd hevicts.1 (by decide +kernel)⟩

def overlapping : List Action :=
  (List.replicate 6 [.accept someAddress, .permit]).flatten ++ (List.range 6).map .begin ++
    (List.range 5).flatMap (fun conn => [.clientInfo conn false, .record conn someAddress]) ++
    [.clientInfo 5 false]

/-- The sixth check runs, and fails, while the address is locked out. -/
theorem overlapping_checks :
    (exec step .start overlapping).map
      (fun w => (w.checks someAddress, (isBlocked w.map someAddress w.clock).1)) =
      some (List.replicate 6 false, true) ∧
    ¬ Always step FewChecks .start overlapping := by
  have hrun : (exec step .start overlapping).map (fun w =>
      (w.checks someAddress, (isBlocked w.map someAddress w.clock).1)) =
        some (List.replicate 6 false, true) := by
    decide +kernel
  refine ⟨hrun, fun h => ?_⟩
  obtain ⟨w, hexec, hw⟩ := Option.map_eq_some_iff.mp hrun
  have hfew := h.last hexec someAddress false (List.replicate 5 false) (congrArg Prod.fst hw)
  exact absurd hfew (by decide)

end Kmsrdp.Guarantees.FailedChecks
