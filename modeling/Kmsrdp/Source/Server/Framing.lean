import Kmsrdp.Library.AsyncRead

/-!
# Byte-stream framing of the session's socket

Model of `rdpcore-server/src/transport.rs`. Every reader is a chain of `read_exact` calls, a
`ReadProg`; its value is the frame with its header, or the `InvalidData` error.
-/
namespace Kmsrdp.Source.Server.Framing
open Library.ByteString Library.AsyncRead

inductive FramingError where
  | tpktLengthShorterThanHeader
  | fastPathLengthShorterThanHeader

inductive SteadyStateFrame where
  | fastPathInput (bytes : Bytes)
  | slowPath (bytes : Bytes)

/-- The tail common to the readers: compare the declared total length with the header
already in hand, then read what is missing. -/
def readDeclared (header : Bytes) (total : Nat) (short : FramingError) :
    ReadProg (Except FramingError Bytes) :=
  if total < header.length then .done (.error short)
  else .readExact (total - header.length) fun rest => .done (.ok (header ++ rest))

def u16FromBeBytes (high low : UInt8) : Nat := high.toNat * 256 + low.toNat

/-- The part of `read_fastpath_frame_after` behind the first length byte, which holds the
whole length or the high seven bits of it. -/
def readFastpathFrameBody (headerByte length : UInt8) : ReadProg (Except FramingError Bytes) :=
  if length &&& 0x80 = 0 then
    readDeclared [headerByte, length] length.toNat .fastPathLengthShorterThanHeader
  else
    .readExact 1 fun third =>
      readDeclared [headerByte, length, third.headD 0]
        (((length.toNat &&& 0x7F) <<< 8) ||| (third.headD 0).toNat)
        .fastPathLengthShorterThanHeader

def readFastpathFrameAfter (headerByte : UInt8) : ReadProg (Except FramingError Bytes) :=
  .readExact 1 fun second => readFastpathFrameBody headerByte (second.headD 0)

def readTpktFrame : ReadProg (Except FramingError Bytes) :=
  .readExact 4 fun header =>
    readDeclared header (u16FromBeBytes (header.getD 2 0) (header.getD 3 0))
      .tpktLengthShorterThanHeader

def readTpktFrameAfter : ReadProg (Except FramingError Bytes) :=
  .readExact 3 fun restOfHeader =>
    readDeclared (0x03 :: restOfHeader)
      (u16FromBeBytes (restOfHeader.getD 1 0) (restOfHeader.getD 2 0))
      .tpktLengthShorterThanHeader

def readSteadyStateFrame : ReadProg (Except FramingError SteadyStateFrame) :=
  .readExact 1 fun header =>
    if header.headD 0 = 0x03 then
      readTpktFrameAfter.bind fun frame => .done (frame.map .slowPath)
    else
      (readFastpathFrameAfter (header.headD 0)).bind fun frame => .done (frame.map .fastPathInput)

inductive ClientFrame where
  | tpkt (reserved high low : UInt8) (rest : Bytes)
      (length : u16FromBeBytes high low = rest.length + 4)
  | fastPathShort (header len : UInt8) (rest : Bytes) (action : header ≠ 0x03)
      (oneByte : len &&& 0x80 = 0) (length : len.toNat = rest.length + 2)
  | fastPathLong (header high low : UInt8) (rest : Bytes) (action : header ≠ 0x03)
      (twoBytes : high &&& 0x80 ≠ 0)
      (length : (((high.toNat &&& 0x7F) <<< 8) ||| low.toNat) = rest.length + 3)

def ClientFrame.bytes : ClientFrame → Bytes
  | .tpkt reserved high low rest _ => 0x03 :: reserved :: high :: low :: rest
  | .fastPathShort header len rest _ _ _ => header :: len :: rest
  | .fastPathLong header high low rest _ _ _ => header :: high :: low :: rest

def ClientFrame.dispatched (frame : ClientFrame) : SteadyStateFrame :=
  match frame with
  | .tpkt .. => .slowPath frame.bytes
  | .fastPathShort .. => .fastPathInput frame.bytes
  | .fastPathLong .. => .fastPathInput frame.bytes

theorem poll_readDeclared_bind {β : Type} (header rest socket : Bytes) (total : Nat)
    (short : FramingError) (f : Except FramingError Bytes → ReadProg β)
    (htotal : total = rest.length + header.length) :
    poll ((readDeclared header total short).bind f) (rest ++ socket) =
      poll (f (.ok (header ++ rest))) socket := by
  have hmissing : total - header.length = rest.length := by omega
  rw [readDeclared, if_neg (by omega), hmissing]
  exact poll_readExact_append rest socket _ rfl

theorem poll_readSteadyStateFrame_fastPath (header length : UInt8) (socket : Bytes)
    (action : header ≠ 0x03) :
    poll readSteadyStateFrame (header :: length :: socket) =
      poll
        ((readFastpathFrameBody header length).bind fun frame => .done (frame.map .fastPathInput))
        socket := by
  rw [readSteadyStateFrame]
  refine (poll_readExact_append [header] (length :: socket) _ rfl).trans ?_
  rw [if_neg (by simpa using action)]
  rfl

/-- A whole frame is read, and nothing behind it. -/
theorem poll_readSteadyStateFrame (frame : ClientFrame) (socket : Bytes) :
    poll readSteadyStateFrame (frame.bytes ++ socket) = .ready (.ok frame.dispatched) socket := by
  cases frame with
  | tpkt reserved high low rest length =>
    show poll (readTpktFrameAfter.bind _) (reserved :: high :: low :: (rest ++ socket)) = _
    refine (poll_readExact_append [reserved, high, low] (rest ++ socket) _ rfl).trans ?_
    exact poll_readDeclared_bind [0x03, reserved, high, low] rest socket _ _ _ (by simpa using length)
  | fastPathShort header len rest action oneByte length =>
    refine (poll_readSteadyStateFrame_fastPath header len (rest ++ socket) action).trans ?_
    rw [readFastpathFrameBody, if_pos oneByte]
    exact poll_readDeclared_bind [header, len] rest socket _ _ _ (by simpa using length)
  | fastPathLong header high low rest action twoBytes length =>
    refine (poll_readSteadyStateFrame_fastPath header high (low :: (rest ++ socket)) action).trans ?_
    rw [readFastpathFrameBody, if_neg twoBytes]
    refine (poll_readExact_append [low] (rest ++ socket) _ rfl).trans ?_
    exact poll_readDeclared_bind [header, high, low] rest socket _ _ _ (by simpa using length)

end Kmsrdp.Source.Server.Framing
