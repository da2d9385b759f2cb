import Mathlib.Data.List.Basic

/-!
# Writing cells into planes

Several buffers side by side, each cell addressed by its plane and its offset. A write outside its
plane fails.
-/
namespace Kmsrdp.Library.Planes
open List
variable {α : Type}

def valueAt (planes : List (List α)) (place : Nat × Nat) : Option α :=
  planes[place.1]?.bind (·[place.2]?)

def write (planes : List (List α)) (place : Nat × Nat) (value : α) : Option (List (List α)) :=
  if (valueAt planes place).isSome then some (planes.modify place.1 (·.set place.2 value)) else none

def writeAll (planes : List (List α)) (cells : List ((Nat × Nat) × α)) : Option (List (List α)) :=
  cells.foldlM (fun planes cell => write planes cell.1 cell.2) planes

theorem valueAt_modify {planes : List (List α)} {place : Nat × Nat}
    (h : (valueAt planes place).isSome)
    (value : α) (other : Nat × Nat) :
    valueAt (planes.modify place.1 (·.set place.2 value)) other =
      if other = place then some value else valueAt planes other := by
  obtain ⟨plane, offset⟩ := place
  obtain ⟨plane', offset'⟩ := other
  simp only [valueAt, getElem?_modify, Prod.mk.injEq] at h ⊢
  cases hat : planes[plane]? with
  | none => simp [hat] at h
  | some row =>
    have hlt : offset < row.length := by simpa [hat] using h
    by_cases hplane : plane = plane'
    · subst hplane
      by_cases hoffset : offset = offset'
      · subst hoffset
        simp [hat, hlt]
      · simp [hat, hoffset, Ne.symm hoffset]
    · simp [hplane, Ne.symm hplane]

theorem map_length_modify (planes : List (List α)) (place : Nat × Nat) (value : α) :
    (planes.modify place.1 (·.set place.2 value)).map length = planes.map length := by
  apply ext_getElem?
  intro plane
  rw [getElem?_map, getElem?_map, getElem?_modify]
  split <;> simp [Function.comp_def]

theorem writeAll_spec (cells : List ((Nat × Nat) × α)) (planes : List (List α))
    (hin : ∀ cell ∈ cells, (valueAt planes cell.1).isSome)
    (hone : ∀ cell ∈ cells, ∀ other ∈ cells, cell.1 = other.1 → cell = other) :
    ∃ after,
      writeAll planes cells = some after ∧
      after.map length = planes.map length ∧
      (∀ cell ∈ cells, valueAt after cell.1 = some cell.2) ∧
      ∀ place, (∀ cell ∈ cells, cell.1 ≠ place) → valueAt after place = valueAt planes place := by
  induction cells generalizing planes with
  | nil => exact ⟨planes, rfl, rfl, by simp, fun _ _ => rfl⟩
  | cons cell cells ih =>
    have hcell := hin cell mem_cons_self
    have hread := valueAt_modify hcell cell.2
    obtain ⟨after, hall, hlengths, hwritten, hkept⟩ :=
      ih (planes.modify cell.1.1 (·.set cell.1.2 cell.2)) (fun other hmem => by
          rw [hread]
          split
          · rfl
          · exact hin other (mem_cons_of_mem _ hmem))
        (fun one hone' other hother =>
          hone one (mem_cons_of_mem _ hone') other (mem_cons_of_mem _ hother))
    have hfirst : writeAll planes (cell :: cells) = some after := by
      rw [← hall, writeAll, foldlM_cons, write, if_pos hcell]
      rfl
    refine ⟨after, hfirst, hlengths.trans (map_length_modify ..), ?_, ?_⟩
    · intro other hmem
      by_cases hlater : ∃ late ∈ cells, late.1 = other.1
      · obtain ⟨late, hlate, hplace⟩ := hlater
        rw [← hone late (mem_cons_of_mem _ hlate) other hmem hplace]
        exact hwritten late hlate
      · -- not written again, so it is the first cell and keeps what the first write put there
        push Not at hlater
        obtain rfl : other = cell := (mem_cons.mp hmem).resolve_right fun hrest =>
          hlater other hrest rfl
        rw [hkept other.1 hlater, hread, if_pos rfl]
    · intro place hplace
      rw [hkept place fun other hmem => hplace other (mem_cons_of_mem _ hmem), hread,
        if_neg (hplace cell mem_cons_self).symm]

end Kmsrdp.Library.Planes
