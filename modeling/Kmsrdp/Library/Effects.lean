import Mathlib.Tactic.Common

/-!
# Computations with a state that failures keep

`Effect σ ε α` changes a state and returns or fails; what it changed before it failed stays changed.
`Meets before op after failed` says what holds before, after a return and after a failure.
-/
namespace Kmsrdp.Library.Effects
variable {σ ε α β : Type}

abbrev Effect (σ ε α : Type) := ExceptT ε (StateM σ) α

def runOn (op : Effect σ ε α) (s : σ) : Except ε α × σ := StateT.run (ExceptT.run op) s

def attempt (op : Effect σ ε α) : Effect σ ε (Except ε α) :=
  fun s => (.ok (runOn op s).1, (runOn op s).2)

def Meets (before : σ → Prop) (op : Effect σ ε α) (after : α → σ → Prop) (failed : σ → Prop) :
    Prop :=
  ∀ s, before s →
    match (runOn op s).1 with
    | .ok a => after a (runOn op s).2
    | .error _ => failed (runOn op s).2

def Keeps (inv : σ → Prop) (op : Effect σ ε α) : Prop := Meets inv op (fun _ => inv) inv

theorem runOn_bind (op : Effect σ ε α) (next : α → Effect σ ε β) (s : σ) :
    runOn (op >>= next) s =
      match (runOn op s).1 with
      | .ok a => runOn (next a) (runOn op s).2
      | .error e => (.error e, (runOn op s).2) := by
  show ExceptT.bindCont next (op s).1 (op s).2 =
    match (op s).1 with
    | .ok a => next a (op s).2
    | .error e => (.error e, (op s).2)
  cases (op s).1 <;> rfl

variable {before failed inv : σ → Prop}
variable {after : α → σ → Prop}

theorem meets_pure {a : α} (h : ∀ s, before s → after a s) :
    Meets before (pure a : Effect σ ε α) after failed := h

theorem meets_throw {e : ε} (h : ∀ s, before s → failed s) :
    Meets before (throw e : Effect σ ε α) after failed := h

theorem meets_modify {f : σ → σ} {after : Unit → σ → Prop} (h : ∀ s, before s → after () (f s)) :
    Meets before (modify f : Effect σ ε Unit) after failed := h

theorem meets_modifyGet {f : σ → α × σ} (h : ∀ s, before s → after (f s).1 (f s).2) :
    Meets before (modifyGet f : Effect σ ε α) after failed := h

theorem meets_get {after : σ → σ → Prop} (h : ∀ s, before s → after s s) :
    Meets before (get : Effect σ ε σ) after failed := h

variable {op : Effect σ ε α}

theorem meets_bind {between : α → σ → Prop} {next : α → Effect σ ε β} {after : β → σ → Prop}
    (hop : Meets before op between failed)
    (hnext : ∀ a, Meets (between a) (next a) after failed) :
    Meets before (op >>= next) after failed := by
  intro s hs
  have hfirst := hop s hs
  rw [runOn_bind]
  cases hresult : (runOn op s).1 with
  | ok a =>
    rw [hresult] at hfirst
    exact hnext a _ hfirst
  | error e =>
    rw [hresult] at hfirst
    exact hfirst

theorem meets_mono {after' : α → σ → Prop} {failed' : σ → Prop}
    (hop : Meets before op after failed)
    (hafter : ∀ a s, after a s → after' a s)
    (hfailed : ∀ s, failed s → failed' s) : Meets before op after' failed' := by
  intro s hs
  have h := hop s hs
  cases hresult : (runOn op s).1 with
  | ok a =>
    rw [hresult] at h
    exact hafter a _ h
  | error e =>
    rw [hresult] at h
    exact hfailed _ h

theorem meets_of_fact {fact : Prop} (hop : fact → Meets before op after failed) :
    Meets (fun s => before s ∧ fact) op after failed := fun s hs => hop hs.2 s hs.1

theorem Meets.afterwards {after : σ → Prop}
    (hop : Meets before op (fun _ => after) after)
    {s : σ} (hs : before s) : after (runOn op s).2 := by
  have h := hop s hs
  cases hresult : (runOn op s).1 <;> rw [hresult] at h <;> exact h

theorem meets_attempt {after : σ → Prop} (hop : Meets before op (fun _ => after) after) :
    Meets before (attempt op) (fun _ => after) failed :=
  fun _ hs => hop.afterwards hs

theorem keeps_attempt (hop : Keeps inv op) : Keeps inv (attempt op) := meets_attempt hop

theorem keeps_forM {items : List β} {f : β → Effect σ ε PUnit}
    (h : ∀ item ∈ items, Keeps inv (f item)) : Keeps inv (items.forM f) := by
  induction items with
  | nil => exact meets_pure fun _ hs => hs
  | cons item items ih =>
    exact meets_bind (h item List.mem_cons_self) fun _ =>
      ih fun other hother => h other (List.mem_cons_of_mem _ hother)

theorem Keeps.afterwards (hop : Keeps inv op) {s : σ} (hs : inv s) : inv (runOn op s).2 :=
  Meets.afterwards hop hs

end Kmsrdp.Library.Effects
