import Mathlib.Data.Finset.Card

/-!
# Counting holders

Each holder of a finite set holds at most one target. `holders` are those of one target; the
lemmas say how their number changes when a holder comes or goes.
-/
namespace Kmsrdp.Library.Holders
open Finset
variable {η κ : Type} [DecidableEq κ]

def holders (target : η → Option κ) (held : Finset η) (k : κ) : Finset η :=
  held.filter fun h => target h = some k

variable {held : Finset η}

theorem mem_holders {target : η → Option κ} {k : κ} {h : η} :
    h ∈ holders target held k ↔ h ∈ held ∧ target h = some k := mem_filter

variable [DecidableEq η]

theorem card_holders_insert (target : η → Option κ) {h : η} (hnew : h ∉ held) (k : κ) :
    (holders target (insert h held) k).card =
      (holders target held k).card + if target h = some k then 1 else 0 := by
  unfold holders
  rw [filter_insert]
  split
  · exact card_insert_of_notMem fun hmem => hnew (mem_filter.mp hmem).1
  · rfl

theorem card_holders_erase (target : η → Option κ) {h : η} (hold : h ∈ held) (k : κ) :
    (holders target held k).card =
      (holders target (held.erase h) k).card + if target h = some k then 1 else 0 := by
  conv_lhs => rw [← insert_erase hold]
  exact card_holders_insert target (notMem_erase h held) k

end Kmsrdp.Library.Holders
