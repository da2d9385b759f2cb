import Kmsrdp.Source.Server.SteadyState

/-!
# Input events and their two encodings

The events a client may send, laid out as MS-RDPBCGR has them. On the slow path (2.2.8.1.1.3) an
event is a time, a message type and six bytes.
-/
namespace Kmsrdp.Client.InputEvents
open Library.ByteString Source.Pdu
open Source.Connector (ioChannelId)
open Source.Server.Framing (SteadyStateFrame)
open Source.Server.SharedInput (FastPathInputEvent keyRelease keyExtended keyExtended1)

structure ToggleFlags where
  (scrollLock numLock capsLock kanaLock : Bool)

def ToggleFlags.byte (toggles : ToggleFlags) : UInt8 :=
  (if toggles.scrollLock then 0x01 else 0) + (if toggles.numLock then 0x02 else 0) +
    (if toggles.capsLock then 0x04 else 0) + (if toggles.kanaLock then 0x08 else 0)

inductive InputEvent where
  | scancode (release extended extended1 : Bool) (code : UInt8)
  | unicode (release : Bool) (code : UInt16)
  | mouse (pointerFlags x y : UInt16)
  | sync (toggles : ToggleFlags)

structure Stamp where
  eventTime : UInt32
  wasDown : Bool

def fastKeyboardFlags (release extended extended1 : Bool) : UInt8 :=
  (if release then keyRelease else 0) ||| ((if extended then keyExtended else 0) |||
    (if extended1 then keyExtended1 else 0))

def InputEvent.fastPath : InputEvent → FastPathInputEvent
  | .scancode release extended extended1 code =>
    .scancode (fastKeyboardFlags release extended extended1) code
  | .unicode release code => .unicode (fastKeyboardFlags release false false) code
  | .mouse pointerFlags x y => .mouse pointerFlags x y
  | .sync toggles => .sync toggles.byte

def fastPathUnit (events : List InputEvent) : SteadyStateFrame :=
  .fastPathInput (FastPathInput.encode ⟨events.map InputEvent.fastPath⟩)

def inputEventSync : Nat := 0x0000
def inputEventScancode : Nat := 0x0004
def inputEventUnicode : Nat := 0x0005
def inputEventMouse : Nat := 0x8001

def slowKeyboardFlags (release wasDown extended extended1 : Bool) : Nat :=
  (if release then 0x8000 else 0) + (if wasDown then 0x4000 else 0) + (if extended then 0x0100 else 0) +
    (if extended1 then 0x0200 else 0)

def InputEvent.messageType : InputEvent → Nat
  | .scancode .. => inputEventScancode
  | .unicode .. => inputEventUnicode
  | .mouse .. => inputEventMouse
  | .sync .. => inputEventSync

def InputEvent.slowPathData (wasDown : Bool) : InputEvent → Bytes
  | .scancode release extended extended1 code =>
    u16Le (slowKeyboardFlags release wasDown extended extended1) ++ (u16Le code.toNat ++ u16Le 0)
  | .unicode release code =>
    u16Le (slowKeyboardFlags release false false false) ++ (u16Le code.toNat ++ u16Le 0)
  | .mouse pointerFlags x y => u16Le pointerFlags.toNat ++ (u16Le x.toNat ++ u16Le y.toNat)
  | .sync toggles => u16Le 0 ++ u32Le toggles.byte.toNat

def slowPathEvent (event : Stamp × InputEvent) : Bytes :=
  u32Le event.1.eventTime.toNat ++ (u16Le event.2.messageType ++ event.2.slowPathData event.1.wasDown)

def slowPathBody (events : List (Stamp × InputEvent)) : Bytes :=
  u16Le events.length ++ (u16Le 0 ++ events.flatMap slowPathEvent)

structure Sender where
  userChannelId : UInt16
  shareId : UInt32
  pduSource : UInt16
  streamId : UInt8

def slowPathPdu (sender : Sender) (events : List (Stamp × InputEvent)) : DataPdu :=
  ⟨sender.shareId.toNat, sender.pduSource.toNat, sender.streamId, .input, slowPathBody events⟩

def slowPathUnit (sender : Sender) (events : List (Stamp × InputEvent)) : SteadyStateFrame :=
  .slowPath (wrapData (SendData.encodeRequest
    ⟨sender.userChannelId.toNat, ioChannelId, (slowPathPdu sender events).encode, true⟩))

theorem length_slowPathEvent (event : Stamp × InputEvent) : (slowPathEvent event).length = 12 := by
  obtain ⟨stamp, event⟩ := event
  cases event <;> rfl

theorem length_slowPathBody (events : List (Stamp × InputEvent)) :
    (slowPathBody events).length = 4 + 12 * events.length := by
  have hevents : (events.flatMap slowPathEvent).length = 12 * events.length := by
    induction events with
    | nil => rfl
    | cons event rest ih =>
      rw [List.flatMap_cons, List.length_append, length_slowPathEvent, ih, List.length_cons]
      omega
  simp only [slowPathBody, List.length_append, length_u16Le, hevents]
  omega

end Kmsrdp.Client.InputEvents
