import Mathlib.Tactic.Common
import Mathlib.Data.List.Basic

/-!
# Executions of a partial step function

`none` means that an action is not enabled. What every step keeps holds after every schedule, and
what the steps with a side condition keep holds after every schedule of such steps.
-/
namespace Kmsrdp.Library.Execution
variable {σ α : Type}

def exec (step : σ → α → Option σ) : σ → List α → Option σ
  | s, [] => some s
  | s, a :: rest =>
    match step s a with
    | none => none
    | some t => exec step t rest

/-- Every action of the schedule meets `ok` in the state in which it is taken. -/
def Careful (step : σ → α → Option σ) (ok : σ → α → Prop) : σ → List α → Prop
  | _, [] => True
  | s, a :: rest => ok s a ∧ ∀ t, step s a = some t → Careful step ok t rest

variable {step : σ → α → Option σ} {ok : σ → α → Prop}

theorem Careful.cons {s t : σ} {a : α} {rest : List α}
    (hok : ok s a)
    (hstep : step s a = some t)
    (hrest : Careful step ok t rest) : Careful step ok s (a :: rest) := by
  refine ⟨hok, fun t' hstep' => ?_⟩
  cases hstep.symm.trans hstep'
  exact hrest

instance decidableCareful (step : σ → α → Option σ) (ok : σ → α → Prop)
    [∀ s a, Decidable (ok s a)] : ∀ s schedule, Decidable (Careful step ok s schedule)
  | _, [] => isTrue trivial
  | s, a :: rest =>
    match h : step s a with
    | none => decidable_of_iff (ok s a) ⟨fun hok => ⟨hok, fun t ht => by simp [h] at ht⟩, And.left⟩
    | some t =>
      have : Decidable (Careful step ok t rest) := decidableCareful step ok t rest
      decidable_of_iff (ok s a ∧ Careful step ok t rest)
        ⟨fun hok => Careful.cons hok.1 h hok.2, fun hok => ⟨hok.1, hok.2 t h⟩⟩

/-- Every state of the execution has the property, the first one included. -/
def Always (step : σ → α → Option σ) (good : σ → Prop) : σ → List α → Prop
  | s, [] => good s
  | s, a :: rest => good s ∧ ∀ t, step s a = some t → Always step good t rest

theorem exec_cons_some {s u : σ} {a : α} {rest : List α} (h : exec step s (a :: rest) = some u) :
    ∃ t, step s a = some t ∧ exec step t rest = some u := by
  unfold exec at h
  split at h
  · cases h
  · next t ht => exact ⟨t, ht, h⟩

theorem exec_append (step : σ → α → Option σ) (s : σ) (front back : List α) :
    exec step s (front ++ back) = (exec step s front).bind fun t => exec step t back := by
  induction front generalizing s with
  | nil => rfl
  | cons a rest ih =>
    simp only [List.cons_append, exec]
    cases step s a with
    | none => rfl
    | some t => exact ih t

variable (inv : σ → Prop)

theorem exec_invariant
    (hstep : ∀ s a t, inv s → step s a = some t → inv t)
    (schedule : List α) {s t : σ} (hs : inv s)
    (h : exec step s schedule = some t) : inv t := by
  induction schedule generalizing s with
  | nil =>
    cases h
    exact hs
  | cons a rest ih =>
    obtain ⟨m, hm, hrest⟩ := exec_cons_some h
    exact ih (hstep s a m hs hm) hrest

variable {good : σ → Prop}

theorem Always.head {s : σ} {schedule : List α} (h : Always step good s schedule) : good s := by
  cases schedule with
  | nil => exact h
  | cons a rest => exact h.1

theorem Always.last {s t : σ} {schedule : List α}
    (h : Always step good s schedule)
    (hexec : exec step s schedule = some t) : good t := by
  induction schedule generalizing s with
  | nil =>
    cases hexec
    exact h
  | cons a rest ih =>
    obtain ⟨m, hm, hrest⟩ := exec_cons_some hexec
    exact ih (h.2 m hm) hrest

/-- When careful steps keep an invariant that implies the property, the property holds all
along a careful execution. -/
theorem always_of_careful
    (hgood : ∀ s, inv s → good s)
    (keeps : ∀ s a t, inv s → ok s a → step s a = some t → inv t)
    (schedule : List α) {s : σ} (hs : inv s)
    (hok : Careful step ok s schedule) : Always step good s schedule := by
  induction schedule generalizing s with
  | nil => exact hgood s hs
  | cons a rest ih =>
    refine ⟨hgood s hs, fun t hstep => ?_⟩
    exact ih (keeps s a t hs hok.1 hstep) (hok.2 t hstep)

/-- When every step keeps an invariant that implies the property, the property holds all
along any execution. -/
theorem always_of_invariant
    (hgood : ∀ s, inv s → good s)
    (keeps : ∀ s a t, inv s → step s a = some t → inv t)
    (schedule : List α) {s : σ} (hs : inv s) : Always step good s schedule := by
  induction schedule generalizing s with
  | nil => exact hgood s hs
  | cons a rest ih => exact ⟨hgood s hs, fun t hstep => ih (keeps s a t hs hstep)⟩

/-- When careful steps keep an invariant that implies the property, and any other step
breaks the property at once, then the property holds all along an execution exactly when
every step of it is careful. -/
theorem always_iff_careful
    (hgood : ∀ s, inv s → good s)
    (keeps : ∀ s a t, inv s → ok s a → step s a = some t → inv t)
    (breaks : ∀ s a, inv s → ¬ ok s a → ∃ t, step s a = some t ∧ ¬ good t)
    (schedule : List α) {s : σ} (hs : inv s) :
    Always step good s schedule ↔ Careful step ok s schedule := by
  induction schedule generalizing s with
  | nil => exact ⟨fun _ => trivial, fun _ => hgood s hs⟩
  | cons a rest ih =>
    constructor
    · rintro ⟨-, hrest⟩
      have hok : ok s a := by
        by_contra hbad
        obtain ⟨t, hstep, hbroken⟩ := breaks s a hs hbad
        exact hbroken (hrest t hstep).head
      refine ⟨hok, fun t hstep => ?_⟩
      exact (ih (keeps s a t hs hok hstep)).mp (hrest t hstep)
    · exact always_of_careful inv hgood keeps (a :: rest) hs

end Kmsrdp.Library.Execution
