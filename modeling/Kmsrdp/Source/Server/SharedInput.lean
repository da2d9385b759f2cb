import Mathlib.Algebra.Ring.Nat
import Mathlib.Data.List.AList
import Mathlib.Data.Finset.Card

/-!
# Input of several sessions into one device

Model of `input_handler.rs` (a client's event), of `ConnectionScopedInput` in
`rdpcore-server/src/input.rs` (what one connection holds down) and of `Input` with `inject_held` in
`kmsrdp/src/bin/rdp_server.rs` (how often each key and button is held), with the scancode table of
`uinput.rs`.
-/
namespace Kmsrdp.Source.Server.SharedInput

inductive FastPathInputEvent where
  | scancode (flags code : UInt8)
  | mouse (pointerFlags x y : UInt16)
  | sync (flags : UInt8)
  | unicode (flags : UInt8) (code : UInt16)
  deriving DecidableEq

inductive KeyboardEvent where
  | pressed (code : UInt8) (extended : Bool)
  | released (code : UInt8) (extended : Bool)
  | unicodePressed (code : UInt16)

inductive HeldButton where
  | left | right | middle
  deriving DecidableEq

inductive MouseEvent where
  | move (x y : UInt16)
  | pressed (button : HeldButton)
  | released (button : HeldButton)
  | verticalScroll (value : Int)
  | horizontalScroll (value : Int)

def keyRelease : UInt8 := 0x01
def keyExtended : UInt8 := 0x02
def keyExtended1 : UInt8 := 0x04

def buttonEvent (down : Bool) (button : HeldButton) : MouseEvent :=
  if down then .pressed button else .released button

def translateMouse (pointerFlags x y : UInt16) : MouseEvent :=
  let raw : Int := (pointerFlags &&& 0xFF).toNat
  let value := if pointerFlags &&& 0x0100 ≠ 0 then raw - 256 else raw
  let down : Bool := pointerFlags &&& 0x8000 ≠ 0
  if pointerFlags &&& 0x0200 ≠ 0 then .verticalScroll value
  else if pointerFlags &&& 0x0400 ≠ 0 then .horizontalScroll value
  else if pointerFlags &&& 0x1000 ≠ 0 then buttonEvent down .left
  else if pointerFlags &&& 0x2000 ≠ 0 then buttonEvent down .right
  else if pointerFlags &&& 0x4000 ≠ 0 then buttonEvent down .middle
  else .move x y

inductive Call where
  | keyboard (event : KeyboardEvent)
  | mouse (event : MouseEvent)

def dispatchInputEvent : FastPathInputEvent → Option Call
  | .scancode flags code =>
    let extended : Bool := flags &&& (keyExtended ||| keyExtended1) ≠ 0
    some (.keyboard (if flags &&& keyRelease ≠ 0 then .released code extended
      else .pressed code extended))
  | .mouse pointerFlags x y => some (.mouse (translateMouse pointerFlags x y))
  | .sync _ => none
  | .unicode flags code =>
    if flags &&& keyRelease = 0 then some (.keyboard (.unicodePressed code)) else none

def linuxKeycodeFromRdpScancode (code : UInt8) (extended : Bool) : Option Nat :=
  if extended then
    match code.toNat with
    | 0x1d => some 97
    | 0x38 => some 100
    | 0x1c => some 96
    | 0x35 => some 98
    | 0x37 => some 99
    | 0x46 => some 119
    | 0x48 => some 103
    | 0x4b => some 105
    | 0x4d => some 106
    | 0x50 => some 108
    | 0x47 => some 102
    | 0x4f => some 107
    | 0x49 => some 104
    | 0x51 => some 109
    | 0x52 => some 110
    | 0x53 => some 111
    | 0x5b => some 125
    | 0x5c => some 126
    | 0x5d => some 127
    | 0x20 => some 113
    | 0x2e => some 114
    | 0x30 => some 115
    | 0x22 => some 164
    | 0x24 => some 166
    | 0x10 => some 165
    | 0x19 => some 163
    | 0x21 => some 140
    | 0x5f => some 142
    | _ => none
  else
    match code.toNat with
    | 0x79 => some 92
    | 0x7b => some 94
    | 0x70 => some 93
    | 0x77 => some 85
    | 0x73 => some 89
    | 0x7d => some 124
    | 0x54 => some 99
    | code => some code

def buttonCode : HeldButton → Nat
  | .left => 0x110
  | .right => 0x111
  | .middle => 0x112

structure Held where
  counts : AList fun _ : Nat => Nat
  down : Finset Nat

def maxCount : Nat := 2 ^ 32 - 1

def injectHeld (held : Held) (id : Nat) (down : Bool) : Held :=
  if down then
    let count := min ((held.counts.lookup id).getD 0 + 1) maxCount
    { counts := held.counts.insert id count
      down := if count = 1 then insert id held.down else held.down }
  else
    match held.counts.lookup id with
    | some count =>
      if 1 < count then { held with counts := held.counts.insert id (count - 1) }
      else { counts := held.counts.erase id, down := held.down.erase id }
    | none => { held with down := held.down.erase id }

structure Input where
  keys : Held
  buttons : Held

def Input.key (input : Input) (code : UInt8) (extended down : Bool) : Input :=
  match linuxKeycodeFromRdpScancode code extended with
  | some keycode => { input with keys := injectHeld input.keys keycode down }
  | none => input

def Input.keyboard (input : Input) : KeyboardEvent → Input
  | .pressed code extended => input.key code extended true
  | .released code extended => input.key code extended false
  | .unicodePressed _ => input

def Input.mouse (input : Input) : MouseEvent → Input
  | .pressed button => { input with buttons := injectHeld input.buttons (buttonCode button) true }
  | .released button => { input with buttons := injectHeld input.buttons (buttonCode button) false }
  | .move _ _ | .verticalScroll _ | .horizontalScroll _ => input

structure ConnectionScopedInput where
  pressedKeys : Finset (UInt8 × Bool)
  pressedButtons : Finset HeldButton

def ConnectionScopedInput.new : ConnectionScopedInput := ⟨∅, ∅⟩

def ConnectionScopedInput.keyboard (conn : ConnectionScopedInput) (inner : Input) :
    KeyboardEvent → ConnectionScopedInput × Input
  | .pressed code extended =>
    if (code, extended) ∈ conn.pressedKeys then (conn, inner)
    else
      ({ conn with pressedKeys := insert (code, extended) conn.pressedKeys },
        inner.keyboard (.pressed code extended))
  | .released code extended =>
    ({ conn with pressedKeys := conn.pressedKeys.erase (code, extended) },
      inner.keyboard (.released code extended))
  | .unicodePressed code => (conn, inner.keyboard (.unicodePressed code))

def ConnectionScopedInput.mouse (conn : ConnectionScopedInput) (inner : Input)
    (event : MouseEvent) :
    ConnectionScopedInput × Input :=
  match event with
  | .pressed button =>
    ({ conn with pressedButtons := insert button conn.pressedButtons }, inner.mouse event)
  | .released button =>
    ({ conn with pressedButtons := conn.pressedButtons.erase button }, inner.mouse event)
  | .move _ _ | .verticalScroll _ | .horizontalScroll _ => (conn, inner.mouse event)

def releaseAll (keys : List (UInt8 × Bool)) (buttons : List HeldButton) (inner : Input) : Input :=
  buttons.foldl (fun input button => input.mouse (.released button))
    (keys.foldl (fun input key => input.keyboard (.released key.1 key.2)) inner)

/-- The sessions with what each has recorded, the shared device, and what each session's client
has pressed and not released since. -/
structure World where
  sessions : Nat → ConnectionScopedInput
  input : Input
  clientKeys : Finset (Nat × UInt8 × Bool)
  clientButtons : Finset (Nat × HeldButton)

inductive Action where
  | event (session : Nat) (event : FastPathInputEvent)
  | disconnect (session : Nat) (keys : List (UInt8 × Bool)) (buttons : List HeldButton)

def World.start : World := ⟨fun _ => .new, ⟨⟨∅, ∅⟩, ⟨∅, ∅⟩⟩, ∅, ∅⟩

def clientKeysAfter (held : Finset (Nat × UInt8 × Bool)) (session : Nat) :
    KeyboardEvent → Finset (Nat × UInt8 × Bool)
  | .pressed code extended => insert (session, code, extended) held
  | .released code extended => held.erase (session, code, extended)
  | .unicodePressed _ => held

def clientButtonsAfter (held : Finset (Nat × HeldButton)) (session : Nat) :
    MouseEvent → Finset (Nat × HeldButton)
  | .pressed button => insert (session, button) held
  | .released button => held.erase (session, button)
  | .move _ _ | .verticalScroll _ | .horizontalScroll _ => held

def World.call (w : World) (session : Nat) : Call → World
  | .keyboard event =>
    let result := (w.sessions session).keyboard w.input event
    { w with
      sessions := Function.update w.sessions session result.1
      input := result.2
      clientKeys := clientKeysAfter w.clientKeys session event }
  | .mouse event =>
    let result := (w.sessions session).mouse w.input event
    { w with
      sessions := Function.update w.sessions session result.1
      input := result.2
      clientButtons := clientButtonsAfter w.clientButtons session event }

def World.disconnect (w : World) (session : Nat) (keys : List (UInt8 × Bool))
    (buttons : List HeldButton) : World :=
  { sessions := Function.update w.sessions session .new
    input := releaseAll keys buttons w.input
    clientKeys := w.clientKeys.filter fun held => held.1 ≠ session
    clientButtons := w.clientButtons.filter fun held => held.1 ≠ session }

def step (w : World) : Action → Option World
  | .event session event =>
    match dispatchInputEvent event with
    | some call => some (w.call session call)
    | none => some w
  | .disconnect session keys buttons =>
    if keys.Nodup ∧ keys.toFinset = (w.sessions session).pressedKeys ∧
        buttons.Nodup ∧ buttons.toFinset = (w.sessions session).pressedButtons then
      some (w.disconnect session keys buttons)
    else none

end Kmsrdp.Source.Server.SharedInput
