import Mathlib.Tactic.Common
import Mathlib.Data.List.Basic

/-!
# Paths of components behind separators

A path is rendered with a separator in front of each component. Where no component contains the
separator, cutting the rendered path at a separator cuts its list of components.
-/
namespace Kmsrdp.Library.SeparatedPaths
open List
variable {α : Type} {sep : α}

def render (sep : α) (components : List (List α)) : List α :=
  components.flatMap fun component => sep :: component

theorem render_append (components more : List (List α)) :
    render sep (components ++ more) = render sep components ++ render sep more :=
  flatMap_append

theorem render_singleton (component : List α) : render sep [component] = sep :: component :=
  append_nil _

theorem render_eq_nil {components : List (List α)} (h : render sep components = []) :
    components = [] := by
  cases components with
  | nil => rfl
  | cons component rest => cases h

theorem render_eq_append_cons {components : List (List α)}
    (hfree : ∀ component ∈ components, sep ∉ component)
    {front rest : List α}
    (h : render sep components = front ++ sep :: rest) :
    ∃ before after,
      components = before ++ after ∧
      render sep before = front ∧
      render sep after = sep :: rest := by
  induction components generalizing front with
  | nil => exact absurd h.symm (append_ne_nil_of_right_ne_nil _ (cons_ne_nil _ _))
  | cons component later ih =>
    cases front with
    | nil => exact ⟨[], component :: later, rfl, rfl, h⟩
    | cons first front =>
      have hcons : sep :: (component ++ render sep later) = first :: (front ++ sep :: rest) := h
      obtain ⟨hfirst, htail⟩ := cons.inj hcons
      subst hfirst
      rcases append_eq_append_iff.mp htail with ⟨middle, hfront, hlater⟩ | ⟨middle, hcomponent, hrest⟩
      · obtain ⟨before, after, hsplit, hbefore, hafter⟩ :=
          ih (fun other hother => hfree other (mem_cons_of_mem _ hother)) hlater
        refine ⟨component :: before, after, congrArg _ hsplit, ?_, hafter⟩
        show sep :: (component ++ render sep before) = _
        rw [hbefore, hfront]
      · -- the component would reach over the separator
        cases middle with
        | nil =>
          rw [append_nil] at hcomponent
          rw [nil_append] at hrest
          refine ⟨[component], later, rfl, ?_, hrest.symm⟩
          rw [render_singleton, hcomponent]
        | cons c middle =>
          have hsep : c = sep := (cons.inj hrest).1.symm
          refine absurd ?_ (hfree component mem_cons_self)
          rw [hcomponent, hsep]
          exact mem_append_right _ mem_cons_self

end Kmsrdp.Library.SeparatedPaths
