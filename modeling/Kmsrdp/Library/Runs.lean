import Mathlib.Data.List.SplitBy
import Mathlib.Data.List.TakeWhile

/-!
# Runs of a list

A run is a maximal stretch of equal elements. An encoder that takes the head of a list and counts
the elements equal to it takes the first run, and what it leaves has the other runs.
-/
namespace Kmsrdp.Library.Runs
open List
variable {α : Type} [BEq α] [LawfulBEq α]

def runs (l : List α) : List (List α) := l.splitBy (· == ·)

omit [LawfulBEq α] in
@[simp] theorem runs_nil : runs ([] : List α) = [] := rfl

theorem takeWhile_beq_eq_replicate (a : α) (rest : List α) :
    rest.takeWhile (· == a) = replicate (rest.takeWhile (· == a)).length a := by
  rw [eq_replicate_iff]
  refine ⟨rfl, fun b hb => ?_⟩
  simpa using mem_takeWhile_imp hb

theorem cons_eq_run_append (a : α) (rest : List α) :
    a :: rest = replicate (1 + (rest.takeWhile (· == a)).length) a ++ rest.dropWhile (· == a) := by
  rw [Nat.add_comm, replicate_succ, cons_append, ← takeWhile_beq_eq_replicate,
    takeWhile_append_dropWhile]

theorem runs_replicate (a : α) {n : Nat} (hn : n ≠ 0) : runs (replicate n a) = [replicate n a] := by
  apply splitBy_of_isChain
  · rwa [ne_eq, replicate_eq_nil_iff]
  · exact isChain_replicate_of_rel n (beq_self_eq_true a)

theorem head?_dropWhile_ne (a : α) (rest : List α) : (rest.dropWhile (· == a)).head? ≠ some a := by
  intro hhead
  have hnot := head?_dropWhile_not (· == a) rest
  rw [hhead] at hnot
  exact absurd (beq_self_eq_true a) (Bool.eq_false_iff.mp hnot)

theorem runs_replicate_append {a : α} {rest : List α}
    (h : rest.head? ≠ some a)
    {n : Nat}
    (hn : n ≠ 0) : runs (replicate n a ++ rest) = replicate n a :: runs rest := by
  rw [runs, splitBy_append, ← runs, ← runs, runs_replicate a hn, singleton_append]
  intro last hlast next hnext
  have hlast : last = a := eq_of_mem_replicate (mem_of_mem_getLast? hlast)
  rw [hlast, beq_eq_false_iff_ne]
  rintro rfl
  exact h hnext

theorem runs_cons (a : α) (rest : List α) :
    runs (a :: rest) =
      replicate (1 + (rest.takeWhile (· == a)).length) a :: runs (rest.dropWhile (· == a)) := by
  rw [cons_eq_run_append a rest]
  exact runs_replicate_append (head?_dropWhile_ne a rest) (by omega)

theorem run_induction {motive : List α → Prop} (nil : motive [])
    (run : ∀ (a : α) (n : Nat) (rest : List α), rest.head? ≠ some a → motive rest →
        motive (replicate (n + 1) a ++ rest))
    (l : List α) : motive l :=
    by
  induction hlength : l.length using Nat.strong_induction_on generalizing l with
  | _ length ih =>
    cases l with
    | nil => exact nil
    | cons a rest =>
      rw [cons_eq_run_append a rest, Nat.add_comm 1]
      refine run a _ _ (head?_dropWhile_ne a rest) (ih _ ?_ _ rfl)
      have hshort := (dropWhile_sublist (l := rest) (· == a)).length_le
      rw [length_cons] at hlength
      omega

end Kmsrdp.Library.Runs
