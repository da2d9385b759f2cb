import Mathlib.Logic.Function.Basic

/-!
# Partial maps that change in one place

A table is a function to `Option`, and a step replaces one entry with `Function.update`. What holds
of all entries is to be checked for the new one only, and numbers given out in order stay unused
from the next one on.
-/
namespace Kmsrdp.Library.PartialMap
open Function
section Entries
variable {κ α : Type} [DecidableEq κ] {f : κ → Option α} {k : κ} {v : Option α}

theorem entries_update {P : κ → α → Prop}
    (hold : ∀ k' a, k' ≠ k → f k' = some a → P k' a)
    (hnew : ∀ a, v = some a → P k a) : ∀ k' a, update f k v k' = some a → P k' a :=
  (forall_update_iff f fun k' entry => ∀ a, entry = some a → P k' a).mpr
    ⟨hnew, fun k' hne a => hold k' a hne⟩

theorem none_of_update {a : α} {k' : κ} (h : update f k (some a) k' = none) :
    k' ≠ k ∧ f k' = none := by
  have hne : k' ≠ k := by
    rintro rfl
    rw [update_self] at h
    cases h
  rw [update_of_ne hne] at h
  exact ⟨hne, h⟩

end Entries
section Numbers
variable {α : Type} {f : Nat → Option α} {next : Nat}

theorem unused_replace
    (h : ∀ i, next ≤ i → f i = none)
    {k : Nat} {a : α}
    (hk : f k = some a)
    (v : Option α) : ∀ i, next ≤ i → update f k v i = none := by
  intro i hi
  have hne : i ≠ k := by
    rintro rfl
    cases hk.symm.trans (h i hi)
  rw [update_of_ne hne, h i hi]

theorem unused_take (h : ∀ i, next ≤ i → f i = none) (v : Option α) :
    ∀ i, next + 1 ≤ i → update f next v i = none := by
  intro i hi
  rw [update_of_ne (by omega), h i (by omega)]

end Numbers
end Kmsrdp.Library.PartialMap
