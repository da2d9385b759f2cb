import Mathlib.Algebra.Ring.Nat
import Mathlib.Data.List.AList
import Kmsrdp.Library.Execution

/-!
# The limiter of failed authentications

Model of `rdpcore-server/src/auth_limit.rs`. Instants are nanoseconds, and differences saturate at
zero as `duration_since` does. A call takes the lock once; the instant it reads is an argument. When
the table is full the address with the least key makes room; a tie is broken by a hash map, so the
call names the victim.
-/
namespace Kmsrdp.Source.Server.AuthLimit
open AList

inductive IpAddr where
  | v4 (bits : BitVec 32)
  | v6 (bits : BitVec 128)
  deriving DecidableEq

def second : Nat := 1000000000
def maxFailures : Nat := 5
def window : Nat := 60 * second
def lockout : Nat := 300 * second
def maxTracked : Nat := 4096
def u32Max : Nat := 2 ^ 32 - 1

structure FailureState where
  count : Nat
  first : Nat
  lockedUntil : Option Nat

abbrev FailureMap := AList fun _ : IpAddr => FailureState

def entryLive (state : FailureState) (now : Nat) : Bool :=
  match state.lockedUntil with
  | some lockEnd => now < lockEnd
  | none => now - state.first ≤ window

def gc (map : FailureMap) (now : Nat) : FailureMap where
  entries := map.entries.filter fun entry => entryLive entry.2 now
  nodupKeys := map.nodupKeys.sublist List.filter_sublist

def keyLe (a b : FailureState) : Bool :=
  match a.lockedUntil.isSome, b.lockedUntil.isSome with
  | false, true => true
  | true, false => false
  | _, _ => a.first ≤ b.first

def isVictim (map : FailureMap) (incoming victim : IpAddr) : Bool :=
  match map.lookup victim with
  | some state =>
    victim != incoming && map.entries.all fun entry => entry.1 == incoming || keyLe state entry.2
  | none => false

def evictIfFull (map : FailureMap) (incoming victim : IpAddr) : Option FailureMap :=
  if map.entries.length < maxTracked ∨ incoming ∈ map then some map
  else if isVictim map incoming victim then some (map.erase victim)
  else none

def isBlocked (map : FailureMap) (ip : IpAddr) (now : Nat) : Bool × FailureMap :=
  let map := gc map now
  match map.lookup ip with
  | none => (false, map)
  | some state =>
    (match state.lockedUntil with
      | some lockEnd => now < lockEnd
      | none => false, map)

def recordSuccess (map : FailureMap) (ip : IpAddr) : FailureMap := map.erase ip

def FailureState.fail (state : FailureState) (now : Nat) : FailureState :=
  if state.lockedUntil.any fun lockEnd => now < lockEnd then state
  else
    let state := if now - state.first > window then ⟨0, now, none⟩ else state
    let count := min (state.count + 1) u32Max
    { state with
      count := count
      lockedUntil := if count ≥ maxFailures then some (now + lockout) else state.lockedUntil }

def recordFailure (map : FailureMap) (ip : IpAddr) (now : Nat) (victim : IpAddr) :
    Option FailureMap :=
  (evictIfFull (gc map now) ip victim).map fun map =>
    map.insert ip (((map.lookup ip).getD ⟨0, now, none⟩).fail now)

variable {map after : FailureMap} {ip other victim : IpAddr} {now : Nat} {state : FailureState}

theorem lookup_gc_eq_some_iff :
    (gc map now).lookup ip = some state ↔
      map.lookup ip = some state ∧ entryLive state now = true := by
  rw [← Option.mem_def, mem_lookup_iff, ← Option.mem_def, mem_lookup_iff]
  exact List.mem_filter

def Blocked (map : FailureMap) (ip : IpAddr) (now : Nat) : Prop :=
  ∃ state lockEnd, map.lookup ip = some state ∧ state.lockedUntil = some lockEnd ∧ now < lockEnd

theorem Blocked.of_le {later : Nat} (h : Blocked map ip later) (hle : now ≤ later) :
    Blocked map ip now := by
  obtain ⟨state, lockEnd, hlookup, hlocked, hlater⟩ := h
  exact ⟨state, lockEnd, hlookup, hlocked, by omega⟩

theorem isBlocked_iff : (isBlocked map ip now).1 = true ↔ Blocked map ip now := by
  unfold isBlocked
  dsimp only
  constructor
  · intro h
    cases hlookup : (gc map now).lookup ip with
    | none =>
      rw [hlookup] at h
      cases h
    | some state =>
      rw [hlookup] at h
      cases hlocked : state.lockedUntil with
      | none => simp [hlocked] at h
      | some lockEnd =>
        simp only [hlocked, decide_eq_true_eq] at h
        exact ⟨state, lockEnd, (lookup_gc_eq_some_iff.mp hlookup).1, hlocked, h⟩
  · rintro ⟨state, lockEnd, hlookup, hlocked, hnow⟩
    have hlive : entryLive state now = true := by simp [entryLive, hlocked, hnow]
    rw [lookup_gc_eq_some_iff.mpr ⟨hlookup, hlive⟩]
    simp [hlocked, hnow]

theorem blocked_gc_iff {later : Nat} (h : now ≤ later) :
    Blocked (gc map now) ip later ↔ Blocked map ip later := by
  constructor
  · rintro ⟨state, lockEnd, hlookup, hlocked, hlater⟩
    exact ⟨state, lockEnd, (lookup_gc_eq_some_iff.mp hlookup).1, hlocked, hlater⟩
  · rintro ⟨state, lockEnd, hlookup, hlocked, hlater⟩
    refine ⟨state, lockEnd, lookup_gc_eq_some_iff.mpr ⟨hlookup, ?_⟩, hlocked, hlater⟩
    simp only [entryLive, hlocked, decide_eq_true_eq]
    omega

theorem snd_isBlocked : (isBlocked map ip now).2 = gc map now := by
  unfold isBlocked
  dsimp only
  split <;> rfl

def Evicts (map : FailureMap) (ip : IpAddr) (now : Nat) : Prop :=
  maxTracked ≤ (gc map now).entries.length ∧ ip ∉ gc map now

instance decidableEvicts : Decidable (Evicts map ip now) := inferInstanceAs (Decidable (_ ∧ _))

theorem victim_ne (h : recordFailure map ip now victim = some after) (hevicts : Evicts map ip now) :
    victim ≠ ip := by
  obtain ⟨kept, hkept, -⟩ := Option.map_eq_some_iff.mp h
  rw [evictIfFull,
    if_neg fun hroom => hroom.elim (fun hlt => Nat.not_lt.mpr hevicts.1 hlt) hevicts.2] at hkept
  rintro rfl
  have hnone : (gc map now).lookup victim = none := lookup_eq_none.mpr hevicts.2
  rw [isVictim, hnone] at hkept
  cases hkept

/-- What a failure does to each entry of the table. -/
theorem lookup_recordFailure (h : recordFailure map ip now victim = some after) (other : IpAddr) :
    after.lookup other =
      if other = ip then some ((((gc map now).lookup ip).getD ⟨0, now, none⟩).fail now)
      else if Evicts map ip now ∧ other = victim then none
      else (gc map now).lookup other := by
  obtain ⟨kept, hkept, rfl⟩ := Option.map_eq_some_iff.mp h
  unfold evictIfFull at hkept
  by_cases hevicts : Evicts map ip now
  · rw [if_neg fun hroom => hroom.elim (fun hlt => Nat.not_lt.mpr hevicts.1 hlt) hevicts.2] at hkept
    by_cases hvictim : isVictim (gc map now) ip victim = true
    · rw [if_pos hvictim] at hkept
      cases hkept
      have hnone : (gc map now).lookup ip = none := lookup_eq_none.mpr hevicts.2
      have herased : ((gc map now).erase victim).lookup ip = none :=
        lookup_eq_none.mpr fun hmem => hevicts.2 (mem_erase.mp hmem).2
      by_cases hother : other = ip
      · rw [if_pos hother, hother, lookup_insert, herased, hnone]
      · rw [if_neg hother, lookup_insert_ne hother]
        by_cases hsame : other = victim
        · rw [if_pos ⟨hevicts, hsame⟩, hsame, lookup_erase]
        · rw [if_neg fun h => hsame h.2, lookup_erase_ne hsame]
    · rw [if_neg hvictim] at hkept
      cases hkept
  · have hroom : (gc map now).entries.length < maxTracked ∨ ip ∈ gc map now := by
      by_contra hfull
      rw [not_or, Nat.not_lt] at hfull
      exact hevicts hfull
    rw [if_pos hroom] at hkept
    cases hkept
    by_cases hother : other = ip
    · rw [if_pos hother, hother, lookup_insert]
    · rw [if_neg hother, lookup_insert_ne hother, if_neg fun h => hevicts h.1]

theorem FailureState.fail_of_locked {lockEnd : Nat}
    (hlocked : state.lockedUntil = some lockEnd)
    (hnow : now < lockEnd) : state.fail now = state := by
  rw [FailureState.fail, hlocked]
  simp [hnow]

theorem FailureState.fail_of_open
    (hlocked : state.lockedUntil = none)
    (hwindow : now - state.first ≤ window) :
    state.fail now =
      ⟨min (state.count + 1) u32Max, state.first,
        if maxFailures ≤ min (state.count + 1) u32Max then some (now + lockout) else none⟩ := by
  rw [FailureState.fail, hlocked]
  simp [Nat.not_lt.mpr hwindow, hlocked]

theorem FailureState.fail_new : (⟨0, now, none⟩ : FailureState).fail now = ⟨1, now, none⟩ := by
  rw [FailureState.fail_of_open rfl (by simp)]
  rfl

end Kmsrdp.Source.Server.AuthLimit
