import Kmsrdp.Source.Server.SharedInput
import Kmsrdp.Source.Pdu.ClientInfo

/-!
# What a client's input does on the host

Model of the calls `Input` (`kmsrdp/src/bin/rdp_server.rs`) makes of the pointer device, in the
client's coordinates, and of `kmsrdp/src/x11_unicode.rs`: an unbounded channel to a worker that
types one character after the other, in an X11 session that stays.
-/
namespace Kmsrdp.Source.Server.SharedInput

/-- Whether `inject_held` calls the device: at a first press, and at a release but that of one of
several holds. -/
def injectsHeld (held : Held) (id : Nat) (down : Bool) : Bool :=
  let count := (held.counts.lookup id).getD 0
  if down then min (count + 1) maxCount = 1 else count ≤ 1

def Input.injectsButton (input : Input) : MouseEvent → Bool
  | .pressed button => injectsHeld input.buttons (buttonCode button) true
  | .released button => injectsHeld input.buttons (buttonCode button) false
  | .move _ _ | .verticalScroll _ | .horizontalScroll _ => false

structure PointerEvent where
  (pointerFlags x y : UInt16)

def PointerEvent.translated (e : PointerEvent) : MouseEvent := translateMouse e.pointerFlags e.x e.y

/-- The shared input with the position last injected. -/
structure Pointer where
  conn : ConnectionScopedInput
  input : Input
  position : Option (UInt16 × UInt16)

def Pointer.event (p : Pointer) (e : PointerEvent) : Pointer where
  conn := (p.conn.mouse p.input e.translated).1
  input := (p.conn.mouse p.input e.translated).2
  position :=
    match e.translated with
    | .move x y => some (x, y)
    | _ => p.position

def unicodeToKeysym (codepoint : Nat) : Nat :=
  if codepoint ≤ 0xff then codepoint else 0x01000000 + codepoint

/-- The character an event has the typer type. -/
def typedChar (event : FastPathInputEvent) : Option Nat :=
  match dispatchInputEvent event with
  | some (.keyboard (.unicodePressed code)) => some code.toNat
  | _ => none

structure Typer where
  (waiting typed : List Nat)
  deriving DecidableEq

inductive TyperAction where
  | event (event : FastPathInputEvent)
  | work

def Typer.step (t : Typer) : TyperAction → Option Typer
  | .event event => some { t with waiting := t.waiting ++ (typedChar event).toList }
  | .work =>
    match t.waiting with
    | codepoint :: rest => some ⟨rest, t.typed ++ [unicodeToKeysym codepoint]⟩
    | [] => none

end Kmsrdp.Source.Server.SharedInput
