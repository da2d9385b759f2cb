import Mathlib.Algebra.Ring.Nat
import Mathlib.Tactic.Common

/-!
# Places in rows of one width

The place of a column in a row is `row * width + column`. It determines the row and the column, and
what holds of the places of all rows holds of every column of every row.
-/
namespace Kmsrdp.Library.Grid
open Nat
variable {width rows row column : Nat}

theorem place_div (h : column < width) : (row * width + column) / width = row := by
  rw [add_comm, add_mul_div_right _ _ (by omega), div_eq_of_lt h, zero_add]

theorem place_mod (h : column < width) : (row * width + column) % width = column := by
  rw [add_comm, add_mul_mod_self_right, mod_eq_of_lt h]

theorem place_inj {row' column' : Nat}
    (h : column < width)
    (h' : column' < width)
    (heq : row * width + column = row' * width + column') : row = row' ∧ column = column' := by
  have hdiv := congrArg (· / width) heq
  have hmod := congrArg (· % width) heq
  simp only [place_div h, place_div h', place_mod h, place_mod h'] at hdiv hmod
  exact ⟨hdiv, hmod⟩

theorem place_lt (hcolumn : column < width) (hrow : row < rows) :
    row * width + column < rows * width := by
  have hnext := mul_le_mul_right width (show row + 1 ≤ rows from hrow)
  rw [succ_mul] at hnext
  omega

variable {P : Nat → Prop}

theorem forall_place_iff :
    (∀ k < rows * width, P k) ↔ ∀ row < rows, ∀ column < width, P (row * width + column) := by
  constructor
  · exact fun h row hrow column hcolumn => h _ (place_lt hcolumn hrow)
  · intro h k hk
    have hwidth : 0 < width := Nat.pos_of_mul_pos_left (Nat.zero_lt_of_lt hk)
    rw [← Nat.div_add_mod' k width]
    exact h _ (Nat.div_lt_of_lt_mul (by rwa [Nat.mul_comm])) _ (Nat.mod_lt k hwidth)

theorem exists_place_iff :
    (∃ k < rows * width, P k) ↔ ∃ row < rows, ∃ column < width, P (row * width + column) := by
  have hnone : (∀ k < rows * width, ¬ P k) ↔ _ := forall_place_iff
  simpa using not_congr hnone

end Kmsrdp.Library.Grid
