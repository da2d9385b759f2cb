import Kmsrdp.Source.Server.AuthLimit

/-!
# Five failures in a minute and the lockout

An address that fails five times within 60 seconds, with no success among them, should be locked out
for 300.
-/
namespace Kmsrdp.Guarantees.AuthLockout
open Library.Execution Source.Server.AuthLimit Function Nat List FailureState

/-- The limiter, the time of the last call, and two histories of each address, newest first: the
failures since its last success, and those of them since its entry last made room for another. -/
structure World where
  map : FailureMap
  clock : Nat
  failures : IpAddr → List Nat
  kept : IpAddr → List Nat

def World.start : World := ⟨∅, 0, fun _ => [], fun _ => []⟩

inductive Action where
  | failure (ip : IpAddr) (now : Nat) (victim : IpAddr)
  | success (ip : IpAddr) (now : Nat)
  | query (ip : IpAddr) (now : Nat)

def Action.now : Action → Nat
  | .failure _ now _ | .success _ now | .query _ now => now

def World.failed (w : World) (ip : IpAddr) (now : Nat) (victim : IpAddr) (map : FailureMap) :
    World where
  map := map
  clock := now
  failures := Function.update w.failures ip (now :: w.failures ip)
  kept :=
    Function.update (if Evicts w.map ip now then Function.update w.kept victim [] else w.kept) ip
      (now :: w.kept ip)

def World.call (w : World) : Action → Option World
  | .failure ip now victim => (recordFailure w.map ip now victim).map (w.failed ip now victim)
  | .success ip now =>
    some ⟨recordSuccess w.map ip, now, Function.update w.failures ip [],
      Function.update w.kept ip []⟩
  | .query ip now => some ⟨(isBlocked w.map ip now).2, now, w.failures, w.kept⟩

def step (w : World) (action : Action) : Option World :=
  if w.clock ≤ action.now then w.call action else none

/-- Four of the failures lie within 60 seconds before the instant. -/
def FourSince (times : List Nat) (now : Nat) : Prop :=
  ∃ a b c d, [a, b, c, d].Sublist times ∧ now - d ≤ window

/-- Five of the failures lie within 60 seconds, the last of them at the instant. -/
def FiveBy (times : List Nat) (fifth : Nat) : Prop :=
  ∃ a b c d, [fifth, a, b, c, d].Sublist times ∧ fifth - d ≤ window

/-- The 300 seconds after a fifth failure are not over. -/
def Due (w : World) (ip : IpAddr) (now : Nat) : Prop :=
  ∃ fifth, FiveBy (w.failures ip) fifth ∧ now < fifth + lockout

/-- `is_blocked` answers true, now and whenever it is asked before the 300 seconds are over. -/
def LockedOut (w : World) : Prop :=
  ∀ ip now, w.clock ≤ now → Due w ip now → (isBlocked w.map ip now).1 = true

/-- A count begins with a failure and takes those within 60 seconds of it until there are five. It
then stands for 300 seconds. -/
def count (now : Nat) : List Nat → List Nat
  | [] => [now]
  | newest :: rest =>
    if maxFailures ≤ rest.length + 1 then
      if now < newest + lockout then newest :: rest else [now]
    else if now - rest.getLastD newest ≤ window then now :: newest :: rest
    else [now]

/-- The failures of the last count in a history. -/
def counted : List Nat → List Nat
  | [] => []
  | now :: earlier => count now (counted earlier)

/-- A failure at the instant makes the count five, or is at the instant at which it became five. -/
def CountsToFive (times : List Nat) (now : Nat) : Prop :=
  ∃ a b c d, counted (now :: times) = [now, a, b, c, d]

/-- A fifth failure makes the count five, and nobody who is due is dropped for it. -/
def CountKept (w : World) : Action → Prop
  | .failure ip now victim => w.clock ≤ now → (recordFailure w.map ip now victim).isSome →
      (FourSince (w.failures ip) now → CountsToFive (w.kept ip) now) ∧
        (Evicts w.map ip now → ¬ Due w victim now)
  | _ => True

variable {w : World} {map after : FailureMap} {ip victim : IpAddr} {now later : Nat}

theorem fiveBy_cons_iff {times : List Nat} {fifth : Nat} :
    FiveBy (now :: times) fifth ↔ FiveBy times fifth ∨ fifth = now ∧ FourSince times now := by
  constructor
  · rintro ⟨a, b, c, d, hsub, hspan⟩
    rcases cons_sublist_cons'.mp hsub with hold | ⟨rfl, hfour⟩
    · exact .inl ⟨a, b, c, d, hold, hspan⟩
    · exact .inr ⟨rfl, a, b, c, d, hfour, hspan⟩
  · rintro (⟨a, b, c, d, hsub, hspan⟩ | ⟨rfl, a, b, c, d, hfour, hspan⟩)
    · exact ⟨a, b, c, d, cons_sublist_cons'.mpr (.inl hsub), hspan⟩
    · exact ⟨a, b, c, d, cons_sublist_cons'.mpr (.inr ⟨rfl, hfour⟩), hspan⟩

theorem length_counted_le (times : List Nat) : (counted times).length ≤ maxFailures := by
  induction times with
  | nil => exact zero_le _
  | cons now earlier ih =>
    unfold counted count
    split
    · exact (by decide : 1 ≤ maxFailures)
    · next newest rest heq =>
      rw [heq, length_cons] at ih
      split
      · split <;> simp only [length_cons, length_nil] <;> omega
      · split <;> simp only [length_cons, length_nil] <;> omega

theorem counted_sublist (times : List Nat) : (counted times).Sublist times := by
  induction times with
  | nil => exact .refl _
  | cons now earlier ih =>
    have hone : [now].Sublist (now :: earlier) := cons_sublist_cons.mpr (nil_sublist _)
    unfold counted count
    split
    · exact hone
    · next newest rest heq =>
      rw [heq] at ih
      split
      · split
        · exact ih.cons now
        · exact hone
      · split
        · exact cons_sublist_cons.mpr ih
        · exact hone

theorem span_counted {times : List Nat} {newest : Nat} {rest : List Nat}
    (h : counted times = newest :: rest) : newest - rest.getLastD newest ≤ window := by
  induction times generalizing newest rest with
  | nil => cases h
  | cons now earlier ih =>
    have hone : [now] = newest :: rest → newest - rest.getLastD newest ≤ window := by
      rintro ⟨⟩
      simp
    unfold counted count at h
    split at h
    · exact hone h
    · next newest' rest' heq =>
      split at h
      · split at h
        · exact ih (heq.trans h)
        · exact hone h
      · split at h
        · next hspan =>
          cases h
          rwa [getLastD_cons]
        · exact hone h

theorem rest_of_five {times : List Nat} {newest : Nat} {rest : List Nat}
    (h : counted times = newest :: rest)
    (hfive : maxFailures ≤ rest.length + 1) : ∃ a b c d, rest = [a, b, c, d] := by
  have hlength := length_counted_le times
  rw [h, length_cons] at hlength
  rw [← length_eq_four]
  unfold maxFailures at *
  omega

/-- A count of five is five failures of the history within 60 seconds. -/
theorem fiveBy_of_counted {times : List Nat} {newest : Nat} {rest : List Nat}
    (h : counted times = newest :: rest)
    (hfive : maxFailures ≤ rest.length + 1) : FiveBy times newest := by
  obtain ⟨a, b, c, d, rfl⟩ := rest_of_five h hfive
  exact ⟨a, b, c, d, h ▸ counted_sublist times, span_counted h⟩

/-- The entry that the limiter keeps of a count. -/
def stateOf : List Nat → Option FailureState
  | [] => none
  | newest :: rest => some ⟨rest.length + 1, rest.getLastD newest,
      if maxFailures ≤ rest.length + 1 then some (newest + lockout) else none⟩

theorem fail_stateOf (now : Nat) {times : List Nat} (hlength : times.length ≤ maxFailures) :
    some ((((stateOf times).filter (entryLive · now)).getD ⟨0, now, none⟩).fail now) =
      stateOf (count now times) := by
  cases times with
  | nil =>
    rw [stateOf, Option.filter_none, Option.getD_none, fail_new]
    rfl
  | cons newest rest =>
    rw [length_cons] at hlength
    unfold stateOf count
    by_cases hfive : maxFailures ≤ rest.length + 1
    · by_cases hlocked : now < newest + lockout
      · have hfail : fail ⟨rest.length + 1, rest.getLastD newest, some (newest + lockout)⟩ now =
            _ :=
          fail_of_locked rfl hlocked
        have hlive : entryLive ⟨rest.length + 1, rest.getLastD newest, some (newest + lockout)⟩
            now = true :=
          decide_eq_true hlocked
        simp only [if_pos hfive, if_pos hlocked, Option.filter_some, hlive, if_true,
          Option.getD_some, hfail]
      · have hdead : entryLive ⟨rest.length + 1, rest.getLastD newest, some (newest + lockout)⟩
            now = false :=
          decide_eq_false hlocked
        simp only [if_pos hfive, if_neg hlocked, Option.filter_some, hdead, Bool.false_eq_true,
          if_false, Option.getD_none, fail_new]
        rfl
    · by_cases hwindow : now - rest.getLastD newest ≤ window
      · have hcount : min (rest.length + 1 + 1) u32Max = rest.length + 1 + 1 := by
          unfold u32Max
          unfold maxFailures at hfive
          omega
        have hfail : fail ⟨rest.length + 1, rest.getLastD newest, none⟩ now = _ :=
          fail_of_open rfl hwindow
        have hlive : entryLive ⟨rest.length + 1, rest.getLastD newest, none⟩ now = true :=
          decide_eq_true hwindow
        simp only [if_neg hfive, if_pos hwindow, Option.filter_some, hlive, if_true,
          Option.getD_some, hfail, hcount, length_cons, getLastD_cons]
      · have hdead : entryLive ⟨rest.length + 1, rest.getLastD newest, none⟩ now = false :=
          decide_eq_false hwindow
        simp only [if_neg hfive, if_neg hwindow, Option.filter_some, hdead, Bool.false_eq_true,
          if_false, Option.getD_none, fail_new]
        rfl

/-- The table holds the counts of the histories, all of them that are not over, and has not outgrown
its bound. -/
structure Tracks (w : World) : Prop where
  stated : ∀ ip state, w.map.lookup ip = some state → stateOf (counted (w.kept ip)) = some state
  live : ∀ ip now state, w.clock ≤ now → stateOf (counted (w.kept ip)) = some state →
    entryLive state now = true → w.map.lookup ip = some state
  past : ∀ ip, ∀ time ∈ w.kept ip, time ≤ w.clock
  kept : ∀ ip, (w.kept ip).Sublist (w.failures ip)
  tracked : w.map.entries.length ≤ maxTracked

theorem entryLive_of_le {state : FailureState}
    (hle : now ≤ later)
    (h : entryLive state later = true) : entryLive state now = true := by
  unfold entryLive at *
  split at h <;> simp only [decide_eq_true_eq] at * <;> omega

theorem tracks_start : Tracks .start where
  stated := nofun
  live := nofun
  past := nofun
  kept _ := .refl _
  tracked := zero_le _

theorem Tracks.lookup_gc (h : Tracks w) (hle : w.clock ≤ now) (ip : IpAddr) :
    (gc w.map now).lookup ip = (stateOf (counted (w.kept ip))).filter (entryLive · now) := by
  ext state
  rw [lookup_gc_eq_some_iff, Option.filter_eq_some_iff]
  constructor
  · exact fun ⟨hlookup, hlive⟩ => ⟨h.stated ip state hlookup, hlive⟩
  · exact fun ⟨hstate, hlive⟩ => ⟨h.live ip now state hle hstate hlive, hlive⟩

theorem Tracks.lookup_failed
    (h : Tracks w)
    (hle : w.clock ≤ now)
    (hmap : recordFailure w.map ip now victim = some map) :
    map.lookup ip = stateOf (counted (now :: w.kept ip)) := by
  rw [lookup_recordFailure hmap, if_pos rfl, h.lookup_gc hle]
  exact fail_stateOf now (length_counted_le _)

theorem length_gc_le : (gc map now).entries.length ≤ map.entries.length := length_filter_le _ _

theorem length_erase_of_mem (h : ip ∈ map) :
    (map.erase ip).entries.length + 1 = map.entries.length := by
  have hkeys := congrArg length (AList.keys_erase ip map)
  rw [List.length_erase_of_mem h] at hkeys
  have hpos := length_pos_of_mem h
  simp only [AList.keys, keys, length_map] at hkeys hpos
  omega

theorem length_recordFailure_le
    (h : recordFailure map ip now victim = some after)
    (htracked : map.entries.length ≤ maxTracked) : after.entries.length ≤ maxTracked := by
  obtain ⟨kept, hkept, rfl⟩ := Option.map_eq_some_iff.mp h
  have hgc : (gc map now).entries.length ≤ maxTracked := le_trans length_gc_le htracked
  have hkeeps : (kept.erase ip).entries.length ≤ kept.entries.length :=
    (kerase_sublist _ _).length_le
  unfold evictIfFull at hkept
  split at hkept
  case isTrue hroom =>
    cases hkept
    rcases hroom with hfew | hmem
    · exact le_trans (succ_le_succ hkeeps) hfew
    · exact le_trans (le_of_eq (length_erase_of_mem hmem)) hgc
  case isFalse =>
    obtain ⟨hvictim, hsome⟩ := Option.ite_none_right_eq_some.mp hkept
    cases hsome
    have hmem : victim ∈ gc map now := by
      by_contra hnot
      rw [isVictim, AList.lookup_eq_none.mpr hnot] at hvictim
      cases hvictim
    exact le_trans (succ_le_succ hkeeps) (le_trans (le_of_eq (length_erase_of_mem hmem)) hgc)

theorem kept_failed (w : World) (ip : IpAddr) (now : Nat) (victim : IpAddr) (map : FailureMap)
    (other : IpAddr) :
    (w.failed ip now victim map).kept other =
      if other = ip then now :: w.kept ip
      else if Evicts w.map ip now ∧ other = victim then []
      else w.kept other := by
  simp only [World.failed, update_apply]
  split
  · rfl
  · by_cases hevicts : Evicts w.map ip now <;> simp [hevicts, update_apply]

theorem Tracks.failed
    (h : Tracks w)
    (hle : w.clock ≤ now)
    (hmap : recordFailure w.map ip now victim = some map) :
    Tracks (w.failed ip now victim map) where
  stated other state hlookup := by
    change map.lookup other = some state at hlookup
    rw [kept_failed]
    by_cases hother : other = ip
    · rw [if_pos hother, ← h.lookup_failed hle hmap, ← hother, hlookup]
    · rw [lookup_recordFailure hmap, if_neg hother] at hlookup
      obtain ⟨hkept, hlookup⟩ := Option.ite_none_left_eq_some.mp hlookup
      rw [if_neg hother, if_neg hkept]
      exact h.stated other state (lookup_gc_eq_some_iff.mp hlookup).1
  live other later state hlater hstate hlive := by
    change now ≤ later at hlater
    change map.lookup other = some state
    rw [kept_failed] at hstate
    by_cases hother : other = ip
    · rw [if_pos hother] at hstate
      rw [hother, h.lookup_failed hle hmap, hstate]
    · rw [lookup_recordFailure hmap, if_neg hother]
      rw [if_neg hother] at hstate
      by_cases hevicted : Evicts w.map ip now ∧ other = victim
      · rw [if_pos hevicted] at hstate
        cases hstate
      · have hnow := entryLive_of_le hlater hlive
        rw [if_neg hevicted] at hstate ⊢
        exact lookup_gc_eq_some_iff.mpr ⟨h.live other now state hle hstate hnow, hnow⟩
  past other time htime := by
    change time ≤ now
    rw [kept_failed] at htime
    split at htime
    · rcases mem_cons.mp htime with rfl | hold
      · exact le_refl _
      · exact le_trans (h.past ip time hold) hle
    · split at htime
      · cases htime
      · exact le_trans (h.past other time htime) hle
  kept other := by
    rw [kept_failed]
    change List.Sublist _ (update w.failures ip (now :: w.failures ip) other)
    split
    · next hother =>
      rw [hother, update_self]
      exact cons_sublist_cons.mpr (h.kept ip)
    · next hother =>
      rw [update_of_ne hother]
      split
      · exact nil_sublist _
      · exact h.kept other
  tracked := length_recordFailure_le hmap h.tracked

theorem Tracks.succeeded (h : Tracks w) (hle : w.clock ≤ now) (ip : IpAddr) :
    Tracks ⟨recordSuccess w.map ip, now, update w.failures ip [], update w.kept ip []⟩ where
  stated other state hlookup := by
    dsimp only [recordSuccess] at hlookup ⊢
    by_cases hother : other = ip
    · rw [hother, AList.lookup_erase] at hlookup
      cases hlookup
    · rw [AList.lookup_erase_ne hother] at hlookup
      rw [update_of_ne hother]
      exact h.stated other state hlookup
  live other later state hlater hstate hlive := by
    dsimp only [recordSuccess] at hstate ⊢
    by_cases hother : other = ip
    · rw [hother, update_self] at hstate
      cases hstate
    · rw [update_of_ne hother] at hstate
      rw [AList.lookup_erase_ne hother]
      exact h.live other later state (le_trans hle hlater) hstate hlive
  past other time htime := by
    dsimp only at htime
    by_cases hother : other = ip
    · rw [hother, update_self] at htime
      cases htime
    · rw [update_of_ne hother] at htime
      exact le_trans (h.past other time htime) hle
  kept other := by
    dsimp only
    by_cases hother : other = ip
    · rw [hother, update_self, update_self]
    · rw [update_of_ne hother, update_of_ne hother]
      exact h.kept other
  tracked := le_trans (kerase_sublist _ _).length_le h.tracked

theorem Tracks.asked (h : Tracks w) (hle : w.clock ≤ now) :
    Tracks ⟨gc w.map now, now, w.failures, w.kept⟩ where
  stated ip state hlookup := h.stated ip state (lookup_gc_eq_some_iff.mp hlookup).1
  live ip later state hlater hstate hlive := by
    have hnow := entryLive_of_le hlater hlive
    exact lookup_gc_eq_some_iff.mpr ⟨h.live ip now state hle hstate hnow, hnow⟩
  past ip time htime := le_trans (h.past ip time htime) hle
  kept := h.kept
  tracked := le_trans length_gc_le h.tracked

theorem tracks_step (w : World) (action : Action) (after : World)
    (h : Tracks w)
    (hstep : step w action = some after) : Tracks after := by
  obtain ⟨hle, hcall⟩ := Option.ite_none_right_eq_some.mp hstep
  cases action with
  | failure ip now victim =>
    obtain ⟨map, hmap, rfl⟩ := Option.map_eq_some_iff.mp hcall
    exact h.failed hle hmap
  | success ip now =>
    cases hcall
    exact h.succeeded hle ip
  | query ip now =>
    cases hcall
    rw [snd_isBlocked]
    exact h.asked hle

theorem blocked_failed_iff
    (h : Tracks w)
    (hle : w.clock ≤ now)
    (hmap : recordFailure w.map ip now victim = some map) :
    Blocked map ip (now + lockout - 1) ↔ CountsToFive (w.kept ip) now := by
  have hpos : 0 < lockout := by decide
  rw [Blocked, h.lookup_failed hle hmap, CountsToFive]
  have hpast : ∀ time ∈ counted (now :: w.kept ip), time ≤ now := by
    intro time htime
    rcases mem_cons.mp ((counted_sublist _).subset htime) with rfl | hold
    · exact le_refl _
    · exact le_trans (h.past ip time hold) hle
  constructor
  · rintro ⟨state, lockEnd, hstate, hlocked, hend⟩
    cases htimes : counted (now :: w.kept ip) with
    | nil =>
      rw [htimes] at hstate
      cases hstate
    | cons newest rest =>
      rw [htimes] at hstate hpast
      cases hstate
      obtain ⟨hfive, ⟨⟩⟩ := Option.ite_none_right_eq_some.mp hlocked
      obtain rfl : newest = now := le_antisymm (hpast newest mem_cons_self) (by omega)
      obtain ⟨a, b, c, d, rfl⟩ := rest_of_five htimes hfive
      exact ⟨a, b, c, d, rfl⟩
  · rintro ⟨a, b, c, d, heq⟩
    rw [heq]
    exact ⟨_, now + lockout, rfl, rfl, by omega⟩

theorem blocked_recordFailure {other : IpAddr}
    (h : recordFailure map ip now victim = some after)
    (hle : now ≤ later)
    (hkept : other ≠ ip → ¬ (Evicts map ip now ∧ other = victim))
    (hblocked : Blocked map other later) : Blocked after other later := by
  obtain ⟨state, lockEnd, hlookup, hlocked, hlater⟩ := (blocked_gc_iff hle).mpr hblocked
  refine ⟨state, lockEnd, ?_, hlocked, hlater⟩
  rw [lookup_recordFailure h]
  by_cases hother : other = ip
  · subst hother
    rw [if_pos rfl, hlookup, Option.getD_some, fail_of_locked hlocked (by omega)]
  · rw [if_neg hother, if_neg (hkept hother)]
    exact hlookup

theorem lockedOut_start : LockedOut .start := by
  rintro ip now - ⟨fifth, ⟨a, b, c, d, hsub, -⟩, -⟩
  cases hsub

theorem lockedOut_failure
    (h : LockedOut w)
    (htracks : Tracks w)
    (hle : w.clock ≤ now)
    (hmap : recordFailure w.map ip now victim = some map)
    (hfifth : FourSince (w.failures ip) now → CountsToFive (w.kept ip) now)
    (hvictim : Evicts w.map ip now → ¬ Due w victim now) :
    LockedOut (w.failed ip now victim map) := by
  intro other later hlater hdue
  rw [isBlocked_iff]
  obtain ⟨fifth, hfive, hrest⟩ := hdue
  dsimp only [World.failed] at hlater hfive ⊢
  have hold : Due w other later → Blocked map other later := by
    intro hdue
    refine blocked_recordFailure hmap hlater ?_ (isBlocked_iff.mp (h other later (by omega) hdue))
    rintro hother ⟨hevicts, rfl⟩
    obtain ⟨fifth', hfive', hrest'⟩ := hdue
    exact hvictim hevicts ⟨fifth', hfive', by omega⟩
  by_cases hother : other = ip
  · subst hother
    rw [update_self] at hfive
    rcases fiveBy_cons_iff.mp hfive with hfive | ⟨rfl, hfour⟩
    · exact hold ⟨fifth, hfive, hrest⟩
    · exact ((blocked_failed_iff htracks hle hmap).mpr (hfifth hfour)).of_le (by omega)
  · rw [update_of_ne hother] at hfive
    exact hold ⟨fifth, hfive, hrest⟩

theorem lockedOut_step {action : Action} {after : World}
    (h : LockedOut w)
    (htracks : Tracks w)
    (hkept : CountKept w action)
    (hstep : step w action = some after) : LockedOut after := by
  by_cases hle : w.clock ≤ action.now
  · rw [step, if_pos hle] at hstep
    cases action with
    | failure ip now victim =>
      obtain ⟨map, hmap, rfl⟩ := Option.map_eq_some_iff.mp hstep
      obtain ⟨hfifth, hvictim⟩ := hkept hle (Option.isSome_of_eq_some hmap)
      exact lockedOut_failure h htracks hle hmap hfifth hvictim
    | success ip now =>
      cases hstep
      rintro other later hlater ⟨fifth, hfive, hrest⟩
      dsimp only at hfive
      by_cases hother : other = ip
      · rw [hother, update_self] at hfive
        obtain ⟨a, b, c, d, hsub, -⟩ := hfive
        cases hsub
      · rw [update_of_ne hother] at hfive
        obtain ⟨state, lockEnd, hlookup, hlocked, hend⟩ :=
          isBlocked_iff.mp (h other later (le_trans hle hlater) ⟨fifth, hfive, hrest⟩)
        exact isBlocked_iff.mpr
          ⟨state, lockEnd, (AList.lookup_erase_ne hother).trans hlookup, hlocked, hend⟩
    | query ip now =>
      cases hstep
      intro other later hlater hdue
      rw [isBlocked_iff, snd_isBlocked, blocked_gc_iff hlater, ← isBlocked_iff]
      exact h other later (le_trans hle hlater) hdue
  · rw [step, if_neg hle] at hstep
    cases hstep

theorem not_kept_breaks {action : Action} (h : Tracks w) (hbad : ¬ CountKept w action) :
    ∃ after, step w action = some after ∧ ¬ LockedOut after := by
  cases action with
  | failure ip now victim =>
    simp only [CountKept, not_forall] at hbad
    obtain ⟨hle, hsome, hbad⟩ := hbad
    obtain ⟨map, hmap⟩ := Option.isSome_iff_exists.mp hsome
    refine ⟨w.failed ip now victim map, ?_, fun hlocked => hbad ⟨?_, ?_⟩⟩
    · refine (if_pos hle).trans ?_
      rw [World.call, hmap]
      rfl
    · intro hfour
      have hpos : 0 < lockout := by decide
      refine (blocked_failed_iff h hle hmap).mp
        (isBlocked_iff.mp (hlocked ip (now + lockout - 1) ?_ ?_))
      · show now ≤ now + lockout - 1
        omega
      · refine ⟨now, ?_, by omega⟩
        show FiveBy (update w.failures ip (now :: w.failures ip) ip) now
        rw [update_self]
        exact fiveBy_cons_iff.mpr (.inr ⟨rfl, hfour⟩)
    · rintro hevicts ⟨fifth, hfive, hrest⟩
      have hother := victim_ne hmap hevicts
      have hdue : Due (w.failed ip now victim map) victim now := by
        refine ⟨fifth, ?_, hrest⟩
        show FiveBy (update w.failures ip (now :: w.failures ip) victim) fifth
        rwa [update_of_ne hother]
      obtain ⟨state, lockEnd, hlookup, -, -⟩ :=
        isBlocked_iff.mp (hlocked victim now (le_refl _) hdue)
      have hgone := lookup_recordFailure hmap victim
      rw [if_neg hother, if_pos ⟨hevicts, rfl⟩] at hgone
      cases hgone.symm.trans hlookup
  | success ip now => exact absurd trivial hbad
  | query ip now => exact absurd trivial hbad

/-- All along a history every address is locked out for 300 seconds after five failures within 60
seconds, exactly when each such fifth failure makes a count of its history five, and no failure of
another address takes the entry of one whose 300 seconds are running. -/
theorem locked_out_iff (history : List Action) :
    Always step LockedOut .start history ↔ Careful step CountKept .start history :=
  always_iff_careful (fun w => LockedOut w ∧ Tracks w) (fun _ h => h.1)
    (fun _ _ _ h hkept hstep => ⟨lockedOut_step h.1 h.2 hkept hstep, tracks_step _ _ _ h.2 hstep⟩)
    (fun _ _ h hbad => not_kept_breaks h.2 hbad) history ⟨lockedOut_start, tracks_start⟩

def someAddress : IpAddr := .v4 0xC000020A

def spreadFailures : List Action :=
  [0, 50, 55, 61, 62, 63].map fun seconds => .failure someAddress (seconds * second) someAddress

/-- Five failures lie within the 13 seconds from 50 to 63, and the address is not locked out. -/
theorem spreadFailures_not_locked :
    (exec step .start spreadFailures).map
      (fun w => (w.failures someAddress, (isBlocked w.map someAddress w.clock).1)) =
      some ([63, 62, 61, 55, 50, 0].map (· * second), false) ∧
    ¬ Always step LockedOut .start spreadFailures := by
  refine ⟨by decide +kernel, fun h => ?_⟩
  have hlast := h.last (t := _) rfl someAddress (63 * second) (le_refl _)
    ⟨63 * second,
      ⟨62 * second, 61 * second, 55 * second, 50 * second, by decide +kernel, by decide⟩, by decide⟩
  exact absurd hlast (by decide +kernel)

/-- Nobody is blocked without five failures of their own, the table keeps its bound, and a locked
address makes room only when all tracked ones are locked. -/
structure Sound (w : World) : Prop where
  blocked : ∀ ip now, (isBlocked w.map ip now).1 = true → Due w ip now
  tracked : w.map.entries.length ≤ maxTracked
  room : ∀ ip now victim after dropped, recordFailure w.map ip now victim = some after →
    Blocked w.map dropped now →
    dropped ∉ after → ∀ other ∈ gc w.map now, Blocked w.map other now

theorem locked_of_dropped {dropped other : IpAddr}
    (h : recordFailure map ip now victim = some after)
    (hblocked : Blocked map dropped now)
    (hdropped : dropped ∉ after)
    (hother : other ∈ gc map now) : Blocked map other now := by
  obtain ⟨state, lockEnd, hlookup, hlocked, hnow⟩ := (blocked_gc_iff (le_refl now)).mpr hblocked
  have hgone := lookup_recordFailure h dropped
  rw [AList.lookup_eq_none.mpr hdropped] at hgone
  by_cases hevicted : Evicts map ip now ∧ dropped = victim
  · obtain ⟨hevicts, rfl⟩ := hevicted
    obtain ⟨kept, hkept, -⟩ := Option.map_eq_some_iff.mp h
    rw [evictIfFull, if_neg fun hroom => hroom.elim (fun hlt => not_lt.mpr hevicts.1 hlt) hevicts.2]
      at hkept
    obtain ⟨hvictim, -⟩ := Option.ite_none_right_eq_some.mp hkept
    obtain ⟨state', hstate'⟩ := Option.isSome_iff_exists.mp (AList.lookup_isSome.mpr hother)
    obtain ⟨hmap, hlive⟩ := lookup_gc_eq_some_iff.mp hstate'
    simp only [isVictim, hlookup, Bool.and_eq_true, all_eq_true, Bool.or_eq_true, beq_iff_eq]
      at hvictim
    rcases hvictim.2 _ (AList.mem_lookup_iff.mp hstate') with rfl | hkey
    · exact absurd hother hevicts.2
    · cases hlocked' : state'.lockedUntil with
      | none => simp [keyLe, hlocked, hlocked'] at hkey
      | some lockEnd' =>
        exact ⟨state', lockEnd', hmap, hlocked', by simpa [entryLive, hlocked'] using hlive⟩
  · split at hgone
    · cases hgone
    · cases hgone.trans hlookup

theorem Tracks.due (h : Tracks w) (hblocked : Blocked w.map ip now) : Due w ip now := by
  obtain ⟨state, lockEnd, hlookup, hlocked, hnow⟩ := hblocked
  have hstate := h.stated ip state hlookup
  cases htimes : counted (w.kept ip) with
  | nil =>
    rw [htimes] at hstate
    cases hstate
  | cons newest rest =>
    rw [htimes] at hstate
    cases hstate
    obtain ⟨hfive, ⟨⟩⟩ := Option.ite_none_right_eq_some.mp hlocked
    obtain ⟨a, b, c, d, hsub, hspan⟩ := fiveBy_of_counted htimes hfive
    exact ⟨newest, ⟨a, b, c, d, hsub.trans (h.kept ip), hspan⟩, hnow⟩

/-- In every state of every history a block has its five failures, at most 4096 addresses are
tracked, and a locked address makes room only when no unlocked one is tracked. -/
theorem blocks_sound_always (history : List Action) : Always step Sound .start history := by
  refine always_of_invariant Tracks (fun w h => ⟨fun ip now hblocked => ?_, h.tracked, ?_⟩)
    tracks_step history
    tracks_start
  · exact h.due (isBlocked_iff.mp hblocked)
  · exact fun _ _ _ _ _ hfailure hblocked hdropped _ => locked_of_dropped hfailure hblocked hdropped

end Kmsrdp.Guarantees.AuthLockout
