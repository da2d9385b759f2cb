import Kmsrdp.Library.Execution
import Kmsrdp.Source.Server.Injection

/-!
# Clicks and text on the host

`translate_mouse` keeps the position of an event only where it is a mere move, so a click lands
where the last move went. A character outside the basic plane comes in two events, and each half is
typed by itself.
-/
namespace Kmsrdp.Guarantees.InputInjection
open Library.Execution Source.Pdu Source.Server.SharedInput List

/-- Whenever a button goes up or down, the position last injected is that of the event. -/
def Placed (start : Pointer) (events : List PointerEvent) : Prop :=
  ∀ before e, before ++ [e] <+: events →
    (before.foldl Pointer.event start).input.injectsButton e.translated →
      (before.foldl Pointer.event start).position = some (e.x, e.y)

def moveOf (e : PointerEvent) : Option (UInt16 × UInt16) :=
  match e.translated with
  | .move x y => some (x, y)
  | _ => none

theorem position_foldl (start : Pointer) (events : List PointerEvent) :
    (events.foldl Pointer.event start).position =
      (events.reverse.findSome? moveOf).or start.position := by
  induction events using reverseRecOn with
  | nil => rfl
  | append_singleton before e ih =>
    rw [foldl_append, reverse_append, reverse_singleton, singleton_append, findSome?_cons,
      foldl_cons, foldl_nil]
    simp only [Pointer.event, moveOf, ih]
    cases e.translated <;> rfl

/-- Clicks land where they should exactly if each that is injected has the position of the last move
before it. -/
theorem placed_iff (start : Pointer) (events : List PointerEvent) :
    Placed start events ↔
      ∀ before e, before ++ [e] <+: events →
        (before.foldl Pointer.event start).input.injectsButton e.translated →
          (before.reverse.findSome? moveOf).or start.position = some (e.x, e.y) := by
  simp only [Placed, position_foldl]

/-- A press at (5, 7) after a move to (1, 1). -/
theorem click_misplaced :
    ¬ Placed ⟨.new, ⟨⟨∅, ∅⟩, ⟨∅, ∅⟩⟩, none⟩ [⟨0x0800, 1, 1⟩, ⟨0x9000, 5, 7⟩] := by
  intro hplaced
  have hclick := hplaced [⟨0x0800, 1, 1⟩] ⟨0x9000, 5, 7⟩ (prefix_refl _) (by decide)
  revert hclick
  decide

/-- A press and a release for each unit. -/
def keyEvents (units : List Nat) : List FastPathInputEvent :=
  units.flatMap fun unit => [.unicode 0 (UInt16.ofNat unit), .unicode keyRelease (UInt16.ofNat unit)]

def heard : TyperAction → Option FastPathInputEvent
  | .event event => some event
  | .work => none

def keysyms (text : List Char) : List Nat := text.map fun c => unicodeToKeysym c.toNat

variable {schedule : List TyperAction} {s t : Typer} {text : List Char}

theorem exec_typer (h : exec Typer.step s schedule = some t) :
    t.typed ++ t.waiting.map unicodeToKeysym =
      s.typed ++
        (s.waiting ++ (schedule.filterMap heard).filterMap typedChar).map unicodeToKeysym := by
  induction schedule generalizing s with
  | nil =>
    cases h
    simp
  | cons action rest ih =>
    obtain ⟨u, hstep, hrest⟩ := exec_cons_some h
    rw [ih hrest]
    cases action with
    | event event =>
      cases hstep
      cases hchar : typedChar event <;> simp [heard, hchar]
    | work =>
      simp only [Typer.step] at hstep
      split at hstep
      · next codepoint waiting hwaiting =>
        cases hstep
        simp [filterMap_cons, heard, hwaiting]
      · cases hstep

theorem typedChar_keyEvents {units : List Nat} (h : ∀ unit ∈ units, unit < 65536) :
    (keyEvents units).filterMap typedChar = units := by
  induction units with
  | nil => rfl
  | cons unit rest ih =>
    obtain ⟨hunit, hrest⟩ := forall_mem_cons.mp h
    have hpress : typedChar (.unicode 0 (UInt16.ofNat unit)) = some unit := by
      simp [typedChar, dispatchInputEvent, Nat.mod_eq_of_lt hunit]
    have hrelease : typedChar (.unicode keyRelease (UInt16.ofNat unit)) = none := rfl
    rw [keyEvents, flatMap_cons, filterMap_append, ← keyEvents, ih hrest]
    simp [hpress, hrelease]

theorem encodeUtf16_of_basic (h : ∀ c ∈ text, c.toNat < 0x10000) :
    encodeUtf16 text = text.map Char.toNat := by
  induction text with
  | nil => rfl
  | cons c rest ih =>
    obtain ⟨hfirst, hrest⟩ := forall_mem_cons.mp h
    rw [map_cons, ← ih hrest, encodeUtf16, flatMap_cons, if_pos hfirst]
    rfl

theorem exec_events (s : Typer) (events : List FastPathInputEvent) :
    exec Typer.step s (events.map .event) =
      some { s with waiting := s.waiting ++ events.filterMap typedChar } := by
  induction events generalizing s with
  | nil => simp [exec]
  | cons event rest ih =>
    rw [map_cons, exec, Typer.step]
    dsimp only
    rw [ih]
    cases hchar : typedChar event <;> simp [hchar]

theorem exec_work (units typed : List Nat) :
    exec Typer.step ⟨units, typed⟩ (replicate units.length .work) =
      some ⟨[], typed ++ units.map unicodeToKeysym⟩ := by
  induction units generalizing typed with
  | nil => simp [exec]
  | cons unit rest ih =>
    rw [length_cons, replicate_succ, exec, Typer.step]
    dsimp only
    rw [ih]
    simp

theorem basic_of_length_encodeUtf16 (h : (encodeUtf16 text).length ≤ text.length) :
    ∀ c ∈ text, c.toNat < 0x10000 := by
  have hall : text.length ≤ (encodeUtf16 text).length ∧
      ((encodeUtf16 text).length ≤ text.length → ∀ c ∈ text, c.toNat < 0x10000) := by
    clear h
    induction text with
    | nil => simp
    | cons c rest ih =>
      simp only [encodeUtf16, flatMap_cons, length_append, length_cons, forall_mem_cons] at ih ⊢
      split
      · next hbasic =>
        rw [length_singleton]
        exact ⟨by omega, fun h => ⟨hbasic, ih.2 (by omega)⟩⟩
      · rw [length_cons, length_singleton]
        omega
  exact hall.2 h

/-- The text is typed character by character, in order and, once nothing waits, to its end, however
the worker keeps up with the client. -/
def TypedInOrder (text : List Char) : Prop :=
  ∀ schedule t,
    schedule.filterMap heard = keyEvents (encodeUtf16 text) →
    exec Typer.step ⟨[], []⟩ schedule = some t →
    t.typed <+: keysyms text ∧ (t.waiting = [] → t.typed = keysyms text)

/-- A text is typed as it is exactly if all of its characters are in the basic plane. -/
theorem typedInOrder_iff_basic (text : List Char) :
    TypedInOrder text ↔ ∀ c ∈ text, c.toNat < 0x10000 := by
  have hunits : (keyEvents (encodeUtf16 text)).filterMap typedChar = encodeUtf16 text :=
    typedChar_keyEvents fun unit hunit => (mem_encodeUtf16 hunit).1
  constructor
  · intro htyped
    -- all events first, and the worker behind them
    have hrun : exec Typer.step ⟨[], []⟩ ((keyEvents (encodeUtf16 text)).map .event ++
        replicate (encodeUtf16 text).length .work) =
        some ⟨[], (encodeUtf16 text).map unicodeToKeysym⟩ := by
      rw [exec_append, exec_events, hunits, Option.bind_some, nil_append, exec_work, nil_append]
    have hheard : ((keyEvents (encodeUtf16 text)).map TyperAction.event ++
        replicate (encodeUtf16 text).length TyperAction.work).filterMap heard =
          keyEvents (encodeUtf16 text) := by
      simp [filterMap_append, filterMap_map, Function.comp_def, heard, filterMap_replicate]
    have hsame := (htyped _ _ hheard hrun).2 rfl
    have hlength := congrArg length hsame
    rw [length_map, keysyms, length_map] at hlength
    exact basic_of_length_encodeUtf16 hlength.le
  · intro hbasic schedule t hevents h
    have htyped := exec_typer h
    rw [hevents, hunits, encodeUtf16_of_basic hbasic, nil_append, nil_append, map_map] at htyped
    refine ⟨⟨_, htyped⟩, fun hwaiting => ?_⟩
    rwa [hwaiting, map_nil, append_nil] at htyped

/-- An emoji is typed as its two surrogates. -/
theorem surrogates_typed :
    ∃ schedule t,
      schedule.filterMap heard = keyEvents (encodeUtf16 ['😀']) ∧
      exec Typer.step ⟨[], []⟩ schedule = some t ∧
      t = ⟨[], [0x0100D83D, 0x0100DE00]⟩ ∧
      keysyms ['😀'] = [0x0101F600] :=
  ⟨[.event (.unicode 0 0xD83D), .event (.unicode keyRelease 0xD83D), .event (.unicode 0 0xDE00),
    .event (.unicode keyRelease 0xDE00), .work, .work], _, by decide, rfl, by decide, by decide⟩

end Kmsrdp.Guarantees.InputInjection
