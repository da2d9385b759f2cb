import Mathlib.Algebra.Ring.Nat
import Mathlib.Tactic.Common
import Mathlib.Data.List.Basic

/-!
# Byte strings, slices and saturating offsets

`sliceGet` is the checked range access `buf.get(start..stop)`: it succeeds only when the range lies
in the buffer.
-/
namespace Kmsrdp.Library.ByteString
open List

abbrev Bytes := List UInt8

variable {α : Type}

theorem mapM_eq_some_map {β : Type} {f : α → Option β} {g : α → β} {l : List α}
    (h : ∀ a ∈ l, f a = some (g a)) : l.mapM f = some (l.map g) := by
  induction l with
  | nil => rfl
  | cons a rest ih =>
    rw [mapM_cons, h a mem_cons_self, ih fun b hb => h b (mem_cons_of_mem _ hb)]
    rfl

/-- `buf.get(start..stop)`. -/
def sliceGet (buf : List α) (start stop : Nat) : Option (List α) :=
  if start ≤ stop ∧ stop ≤ buf.length then some ((buf.drop start).take (stop - start)) else none

variable {count : Nat}

theorem sliceGet_of_le {buf : List α} {start : Nat} (h : start + count ≤ buf.length) :
    sliceGet buf start (start + count) = some ((buf.drop start).take count) := by
  rw [sliceGet, if_pos ⟨by omega, h⟩]
  congr 1
  congr 1
  omega

theorem window_eq_iff (fallback : α) {left right : List α} {i j : Nat}
    (hleft : i + count ≤ left.length)
    (hright : j + count ≤ right.length) :
    (left.drop i).take count = (right.drop j).take count ↔
      ∀ k, k < count → left.getD (i + k) fallback = right.getD (j + k) fallback := by
  constructor
  · intro h k hk
    have hat := congrArg (fun l => l.getD k fallback) h
    simpa [getD_eq_getElem?_getD, getElem?_take, getElem?_drop, hk] using hat
  · intro h
    apply ext_getElem?
    intro k
    by_cases hk : k < count
    · have hat := h k hk
      rw [getD_eq_getElem?_getD, getD_eq_getElem?_getD,
        getElem?_eq_getElem (by omega), getElem?_eq_getElem (by omega)] at hat
      rw [getElem?_take, getElem?_take, if_pos hk, if_pos hk, getElem?_drop,
        getElem?_drop, getElem?_eq_getElem (by omega),
        getElem?_eq_getElem (by omega)]
      simpa using hat
    · rw [getElem?_take, getElem?_take, if_neg hk, if_neg hk]

/-- `buf[start..start + part.len()].copy_from_slice(part)`. -/
def sliceSet (buf : List α) (start : Nat) (part : List α) : Option (List α) :=
  if start + part.length ≤ buf.length
    then some (buf.take start ++ (part ++ buf.drop (start + part.length)))
  else none

theorem sliceSet_append_replicate {front part : List α} {start n : Nat}
    (hstart : front.length = start)
    (hpart : part.length ≤ n)
    (fallback : α) :
    sliceSet (front ++ replicate n fallback) start part =
      some (front ++ part ++ replicate (n - part.length) fallback) := by
  subst hstart
  rw [sliceSet, if_pos (by rw [length_append, length_replicate]; omega), take_left,
    drop_append, drop_of_length_le (Nat.le_add_right _ _), drop_replicate, nil_append,
    Nat.add_sub_cancel_left, append_assoc]

theorem sliceSet_replicate_zero {part : List α} {n : Nat} (hpart : part.length ≤ n) (fallback : α) :
    sliceSet (replicate n fallback) 0 part = some (part ++ replicate (n - part.length) fallback) :=
  sliceSet_append_replicate (rfl : ([] : List α).length = 0) hpart fallback

theorem sliceGet_zero_of_le {buf : List α} (h : count ≤ buf.length) :
    sliceGet buf 0 count = some (buf.take count) := by
  rw [sliceGet, if_pos ⟨Nat.zero_le _, h⟩]
  rfl

def usizeMax : Nat := 2 ^ 64 - 1

def satAdd (a b : Nat) : Nat := min (a + b) usizeMax

def satMul (a b : Nat) : Nat := min (a * b) usizeMax

variable {a b : Nat}

theorem satMul_of_le (h : a * b ≤ usizeMax) : satMul a b = a * b := by
  unfold satMul
  omega

theorem satAdd_of_le (h : a + b ≤ usizeMax) : satAdd a b = a + b := by
  unfold satAdd
  omega

theorem satAdd_satMul {c d : Nat} (h : a * b + c * d ≤ usizeMax) :
    satAdd (satMul a b) (satMul c d) = a * b + c * d := by
  rw [satMul_of_le (by omega), satMul_of_le (by omega), satAdd_of_le h]

end Kmsrdp.Library.ByteString
