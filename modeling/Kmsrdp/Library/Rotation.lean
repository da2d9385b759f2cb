import Mathlib.Tactic.Common
import Mathlib.Data.List.Basic

/-!
# Turns of a rotating index

Places `0 … count - 1` are tried in turn from `next` on; `rank` is how many are tried ahead of a
given one. Taking an earlier place lowers the rank, and a new place at the end raises it at most by
one.
-/
namespace Kmsrdp.Library.Rotation
open List

/-- The number of places ahead of `place`. -/
def rank (count next place : Nat) : Nat :=
  if next ≤ place then place - next else place + count - next

theorem rotate_eq {count next offset : Nat} (hnext : next < count) (hoffset : offset < count) :
    (next + offset) % count =
      if next + offset < count then next + offset else next + offset - count := by
  split
  · next hlt => exact Nat.mod_eq_of_lt hlt
  · next hge =>
    rw [Nat.mod_eq_sub_mod (Nat.not_lt.mp hge)]
    exact Nat.mod_eq_of_lt (by omega)

section Places
variable {count next place : Nat}

theorem rank_lt (hnext : next < count) (hplace : place < count) :
    rank count next place < count := by
  unfold rank
  split <;> omega

theorem rotate_rank (hnext : next < count) (hplace : place < count) :
    (next + rank count next place) % count = place := by
  rw [rotate_eq hnext (rank_lt hnext hplace)]
  unfold rank
  split <;> split <;> omega

theorem rank_advance
    (hnext : next < count)
    (hplace : place < count)
    {offset : Nat}
    (hoffset : offset < rank count next place) :
    rank count ((next + offset + 1) % count) place + offset + 1 = rank count next place := by
  have hlt := rank_lt hnext hplace
  rw [Nat.add_assoc next, rotate_eq hnext (by omega)]
  unfold rank at *
  split at hoffset <;> split <;> split <;> omega

theorem rank_grow (hnext : next < count) :
    rank (count + 1) next place ≤ rank count next place + 1 := by
  unfold rank
  split <;> omega

end Places

theorem exists_offset (start place count : Nat) (h : place < count) :
    ∃ offset < count, (start + offset) % count = place := by
  have hcount : 0 < count := Nat.lt_of_le_of_lt (Nat.zero_le _) h
  have hstart := Nat.mod_lt start hcount
  refine ⟨rank count (start % count) place, rank_lt hstart h, ?_⟩
  rw [← Nat.mod_add_mod, rotate_rank hstart h]

theorem findSome?_range {α : Type} {f : Nat → Option α} {count : Nat} {a : α}
    (h : (range count).findSome? f = some a) :
    ∃ offset < count, f offset = some a ∧ ∀ j < offset, f j = none := by
  obtain ⟨front, offset, back, hrange, hfound, hnone⟩ := findSome?_eq_some_iff.mp h
  have hmem : offset ∈ range count := by
    rw [hrange]
    exact mem_append_right _ mem_cons_self
  have hlt := mem_range.mp hmem
  refine ⟨offset, hlt, hfound, fun j hj => hnone j ?_⟩
  have hsorted := pairwise_lt_range (n := count)
  have hj' : j ∈ front ++ offset :: back := by
    rw [← hrange]
    exact mem_range.mpr (Nat.lt_trans hj hlt)
  rw [hrange, pairwise_append] at hsorted
  rcases mem_append.mp hj' with hfront | hback
  · exact hfront
  · -- behind the offset there are larger ones only
    rcases mem_cons.mp hback with rfl | hlater
    · exact absurd hj (Nat.lt_irrefl _)
    · have := rel_of_pairwise_cons hsorted.2.1 hlater
      exact absurd hj (by omega)

end Kmsrdp.Library.Rotation
