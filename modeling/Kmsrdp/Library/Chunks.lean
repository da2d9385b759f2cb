import Mathlib.Algebra.Ring.Nat
import Mathlib.Tactic.Common
import Mathlib.Data.List.Basic

/-!
# Cutting a list into chunks

`chunks n l` is `l.chunks(n)` of a slice: consecutive pieces of `n` elements, the last one possibly
shorter, none empty, that join to the list.
-/
namespace Kmsrdp.Library.Chunks
open List Nat
variable {α : Type}

/-- At most `fuel` pieces; the length of the list is always enough. -/
def chunksUpTo (n : Nat) : Nat → List α → List (List α)
  | 0, _ => []
  | _ + 1, [] => []
  | fuel + 1, a :: rest => (a :: rest).take n :: chunksUpTo n fuel ((a :: rest).drop n)

def chunks (n : Nat) (l : List α) : List (List α) := chunksUpTo n l.length l

variable {n fuel : Nat} {l : List α}

theorem flatten_chunksUpTo (hn : 0 < n) (hfuel : l.length ≤ fuel) :
    (chunksUpTo n fuel l).flatten = l := by
  induction fuel generalizing l with
  | zero =>
    have hl : l = [] := by simpa using hfuel
    simp [hl, chunksUpTo]
  | succ fuel ih =>
    cases l with
    | nil => rfl
    | cons a rest =>
      have hshort : ((a :: rest).drop n).length ≤ fuel := by
        rw [length_drop]
        omega
      rw [chunksUpTo, flatten_cons, ih hshort, take_append_drop]

theorem flatten_chunks (hn : 0 < n) (l : List α) : (chunks n l).flatten = l :=
  flatten_chunksUpTo hn (le_refl _)

theorem chunksUpTo_fuel (hn : 0 < n) {fuel' : Nat} (h : l.length ≤ fuel) (h' : l.length ≤ fuel') :
    chunksUpTo n fuel l = chunksUpTo n fuel' l := by
  induction fuel generalizing fuel' l with
  | zero =>
    have hl : l = [] := by simpa using h
    cases fuel' <;> simp [hl, chunksUpTo]
  | succ fuel ih =>
    cases l with
    | nil => cases fuel' <;> rfl
    | cons a rest =>
      cases fuel' with
      | zero => simp at h'
      | succ fuel' =>
        have hshort : ((a :: rest).drop n).length ≤ rest.length := by
          rw [length_drop, length_cons]
          omega
        rw [length_cons] at h h'
        rw [chunksUpTo, chunksUpTo,
          ih (le_trans hshort (le_of_succ_le_succ h)) (le_trans hshort (le_of_succ_le_succ h'))]

theorem chunks_eq_cons (hn : 0 < n) (hl : l ≠ []) :
    chunks n l = l.take n :: chunks n (l.drop n) := by
  obtain ⟨a, rest, rfl⟩ := exists_cons_of_ne_nil hl
  have hshort : ((a :: rest).drop n).length ≤ rest.length := by
    rw [length_drop, length_cons]
    omega
  rw [chunks, length_cons, chunksUpTo, chunks, chunksUpTo_fuel hn hshort (le_refl _)]

theorem chunks_ne_nil (n : Nat) (hl : l ≠ []) : chunks n l ≠ [] := by
  cases l with
  | nil => exact absurd rfl hl
  | cons a rest =>
    rw [chunks, length_cons, chunksUpTo]
    exact cons_ne_nil _ _

variable {piece : List α}

theorem ne_nil_of_mem_chunksUpTo (hn : 0 < n) (h : piece ∈ chunksUpTo n fuel l) : piece ≠ [] := by
  induction fuel generalizing l with
  | zero => cases h
  | succ fuel ih =>
    cases l with
    | nil => cases h
    | cons a rest =>
      rcases mem_cons.mp h with rfl | h
      · simp [ne_of_gt hn]
      · exact ih h

theorem ne_nil_of_mem_chunks (hn : 0 < n) (h : piece ∈ chunks n l) : piece ≠ [] :=
  ne_nil_of_mem_chunksUpTo hn h

theorem chunks_of_lt (hn : 0 < n) (hlong : n < l.length) :
    ∃ rest, rest ≠ [] ∧ chunks n l = l.take n :: rest :=
  ⟨chunks n (l.drop n), chunks_ne_nil n (by simpa using hlong),
    chunks_eq_cons hn (ne_nil_of_length_pos (by omega))⟩

theorem length_le_of_mem_chunksUpTo (h : piece ∈ chunksUpTo n fuel l) : piece.length ≤ n := by
  induction fuel generalizing l with
  | zero => cases h
  | succ fuel ih =>
    cases l with
    | nil => cases h
    | cons a rest =>
      rcases mem_cons.mp h with rfl | h
      · rw [length_take]
        exact min_le_left _ _
      · exact ih h

theorem length_le_of_mem_chunks (h : piece ∈ chunks n l) : piece.length ≤ n :=
  length_le_of_mem_chunksUpTo h

theorem length_flatten_le {pieces : List (List α)} (h : ∀ piece ∈ pieces, piece.length ≤ n) :
    pieces.flatten.length ≤ pieces.length * n := by
  induction pieces with
  | nil => exact zero_le _
  | cons piece rest ih =>
    have hpiece := h piece mem_cons_self
    have hrest := ih fun other hother => h other (mem_cons_of_mem _ hother)
    rw [flatten_cons, length_append, length_cons, succ_mul]
    omega

theorem chunks_one (hl : l ≠ []) (hshort : l.length ≤ n) : chunks n l = [l] := by
  have hpos := length_pos_iff.mpr hl
  rw [chunks_eq_cons (by omega) hl, take_of_length_le hshort, drop_of_length_le hshort]
  rfl

theorem chunks_min (n : Nat) (l : List α) : chunks (min n (max l.length 1)) l = chunks n l := by
  rcases le_total n (max l.length 1) with hle | hle
  · rw [min_eq_left hle]
  · rw [min_eq_right hle]
    cases l with
    | nil => rfl
    | cons a rest =>
      have hne := cons_ne_nil a rest
      rw [chunks_one hne (le_max_left _ _), chunks_one hne (le_trans (le_max_left _ _) hle)]

variable {β : Type}

theorem chunksUpTo_map (f : α → β) (n fuel : Nat) (l : List α) :
    chunksUpTo n fuel (l.map f) = (chunksUpTo n fuel l).map (map f) := by
  induction fuel generalizing l with
  | zero => rfl
  | succ fuel ih =>
    cases l with
    | nil => rfl
    | cons a rest =>
      rw [map_cons, chunksUpTo, chunksUpTo, ← map_cons, ← map_drop, ih, ← map_take]
      rfl

theorem chunks_map (f : α → β) (n : Nat) (l : List α) :
    chunks n (l.map f) = (chunks n l).map (map f) := by
  rw [chunks, length_map, chunksUpTo_map, chunks]

theorem flatten_slices (width n : Nat) (l : List α) :
    ((range n).map fun i => (l.drop (i * width)).take width).flatten = l.take (n * width) := by
  induction n with
  | zero => simp
  | succ n ih =>
    rw [range_succ, map_append, flatten_append, ih, succ_mul, take_add]
    simp

variable {width : Nat}

theorem length_flatten_rows {f : Nat → List α} (hwidth : ∀ i < n, (f i).length = width) :
    ((range n).map f).flatten.length = n * width := by
  induction n with
  | zero => simp
  | succ n ih =>
    rw [range_succ, map_append, flatten_append, length_append,
      ih fun i hi => hwidth i (by omega), succ_mul]
    simp [hwidth n (lt_succ_self n)]

theorem slice_flatten_rows {i : Nat} {f : Nat → List α}
    (hwidth : ∀ i < n, (f i).length = width)
    (hi : i < n)
    (rest : List α) : ((((range n).map f).flatten ++ rest).drop (i * width)).take width = f i := by
  obtain ⟨m, rfl⟩ : ∃ m, n = i + (m + 1) := ⟨n - i - 1, by omega⟩
  have hfront : ((range i).map f).flatten.length = i * width :=
    length_flatten_rows fun j hj => hwidth j (by omega)
  rw [range_add, map_append, flatten_append, append_assoc, drop_left' hfront,
    range_succ_eq_map, map_cons, map_cons, flatten_cons, append_assoc, add_zero,
    take_left' (hwidth i hi)]

theorem getElem?_flatMap_blocks {f : α → List β}
    (hwidth : ∀ a ∈ l, (f a).length = width)
    {i j : Nat}
    (hj : j < width) : (l.flatMap f)[i * width + j]? = l[i]?.bind fun a => (f a)[j]? := by
  induction l generalizing i with
  | nil => simp
  | cons a rest ih =>
    have hfirst := hwidth a mem_cons_self
    rw [flatMap_cons]
    cases i with
    | zero => rw [zero_mul, zero_add, getElem?_append_left (by omega)]; rfl
    | succ i =>
      have hskip : (i + 1) * width + j - (f a).length = i * width + j := by
        rw [hfirst, succ_mul]
        omega
      rw [getElem?_append_right (by rw [hfirst, succ_mul]; omega), hskip,
        ih fun b hb => hwidth b (mem_cons_of_mem _ hb)]
      rfl

end Kmsrdp.Library.Chunks
