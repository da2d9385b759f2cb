import Kmsrdp.Source.Pdu.FastPath
import Kmsrdp.Source.Pdu.Share
import Kmsrdp.Source.Server.SharedInput

/-!
# Input on the two paths, and the display requests

Model of the input half of `rdpcore-pdu/src/fastpath.rs` and, from `finalization.rs`, of
`DataPdu::encode` and of the bodies the session reads from a Data PDU. `decodeSlowpathEvent` is one
round of `decode_slowpath_input`: `none` is the `break` that leaves the following events unread.
-/
namespace Kmsrdp.Source.Server.SharedInput.FastPathInputEvent
open Library.ByteString Source.Pdu FastPathInputEvent UInt16

def header (flags eventCode : UInt8) : UInt8 :=
  (flags &&& (0x1F : UInt8)) ||| (eventCode <<< (5 : UInt8))

def encode : FastPathInputEvent → Bytes
  | .scancode flags code => [flags &&& 0x1F] ++ [code]
  | .mouse pointerFlags x y =>
    [header 0 1] ++ (u16Le pointerFlags.toNat ++ (u16Le x.toNat ++ u16Le y.toNat))
  | .sync flags => [header flags 3]
  | .unicode flags code => [header flags 4] ++ u16Le code.toNat

def decodeBody (eventFlags eventCode : UInt8) : Decoder FastPathInputEvent :=
  if eventCode = 0 then do
    let code ← readU8
    return .scancode eventFlags code
  else if eventCode = 1 then do
    let pointerFlags ← readU16Le
    let x ← readU16Le
    let y ← readU16Le
    return .mouse (UInt16.ofNat pointerFlags) (UInt16.ofNat x) (UInt16.ofNat y)
  else if eventCode = 3 then return .sync eventFlags
  else if eventCode = 4 then do
    let code ← readU16Le
    return .unicode eventFlags (UInt16.ofNat code)
  else fail "fast_path_input_event.code" "unsupported or unadvertised event code"

def decode : Decoder FastPathInputEvent := do
  let header ← readU8
  decodeBody (header &&& 0x1F) (header >>> 5)

def onWire : FastPathInputEvent → FastPathInputEvent
  | .scancode flags code => .scancode (flags &&& 0x1F) code
  | .mouse pointerFlags x y => .mouse pointerFlags x y
  | .sync flags => .sync (flags &&& 0x1F)
  | .unicode flags code => .unicode (flags &&& 0x1F) code

theorem header_parts {eventCode : UInt8} (hcode : eventCode < 8) (flags : UInt8) :
    header flags eventCode &&& 0x1F = flags &&& 0x1F ∧
    header flags eventCode >>> 5 = eventCode := by
  have hall : ∀ c < 8, ∀ f < 256, header (UInt8.ofNat f) (UInt8.ofNat c) &&& 0x1F =
      UInt8.ofNat f &&& 0x1F ∧
        header (UInt8.ofNat f) (UInt8.ofNat c) >>> 5 = UInt8.ofNat c := by
    decide +kernel
  have hparts := hall eventCode.toNat (UInt8.lt_iff_toNat_lt.mp hcode) flags.toNat flags.toNat_lt
  rwa [UInt8.ofNat_toNat, UInt8.ofNat_toNat] at hparts

theorem reads_decode {eventCode : UInt8}
    (hcode : eventCode < 8)
    (flags : UInt8) {body : Bytes} {event : FastPathInputEvent}
    (h : Reads (decodeBody (flags &&& 0x1F) eventCode) body event) :
    Reads decode ([header flags eventCode] ++ body) event := by
  refine (reads_readU8 _).bind ?_
  obtain ⟨hflags, hevent⟩ := header_parts hcode flags
  rw [hflags, hevent]
  exact h

theorem reads_word (word : UInt16) : Reads readU16Le (u16Le word.toNat) word.toNat :=
  reads_readU16Le word.toNat_lt

theorem reads_encode (event : FastPathInputEvent) : Reads decode event.encode event.onWire := by
  cases event with
  | scancode flags code =>
    have hzero : header flags 0 = flags &&& 0x1F := UInt8.or_zero
    have hbody : Reads (decodeBody (flags &&& 0x1F) 0) [code] (.scancode (flags &&& 0x1F) code) :=
      (reads_readU8 code).return (scancode (flags &&& 0x1F))
    have h := reads_decode (by decide) flags hbody
    rwa [hzero] at h
  | mouse pointerFlags x y =>
    refine reads_decode (by decide) 0 ?_
    refine (reads_word pointerFlags).bind ((reads_word x).bind ?_)
    have h := (reads_word y).return fun read =>
      mouse (ofNat pointerFlags.toNat) (ofNat x.toNat) (ofNat read)
    simp only [UInt16.ofNat_toNat] at h ⊢
    exact h
  | sync flags =>
    have hbody : Reads (decodeBody (flags &&& 0x1F) 3) [] (.sync (flags &&& 0x1F)) := reads_pure _
    exact reads_decode (by decide) flags hbody
  | unicode flags code =>
    refine reads_decode (by decide) flags ?_
    have h := (reads_word code).return fun read => unicode (flags &&& 0x1F) (ofNat read)
    rwa [UInt16.ofNat_toNat] at h

theorem length_encode_le (event : FastPathInputEvent) : event.encode.length ≤ 7 := by
  cases event <;> simp [encode]

end Kmsrdp.Source.Server.SharedInput.FastPathInputEvent

namespace Kmsrdp.Source.Pdu
open Library.ByteString
open Source.Server.SharedInput (FastPathInputEvent keyRelease keyExtended keyExtended1)

structure FastPathInput where
  events : List FastPathInputEvent

namespace FastPathInput

/-- The number of events travels in the header byte if it is between 1 and 14, and in a byte of
its own otherwise. -/
def encode (input : FastPathInput) : Bytes :=
  let count := input.events.length
  let inHeader : Bool := 0 < count ∧ count < 15
  encodeFastpathFrame ((if inHeader then UInt8.ofNat count else 0) <<< 2)
    (if inHeader then [] else [UInt8.ofNat count]) (input.events.flatMap FastPathInputEvent.encode)

def decode (input : Bytes) : Except DecodeError FastPathInput :=
  decodeFrom (do
    let header ← readU8
    if header &&& 0x03 ≠ 0 then fail "fast_path_input.action" "expected FASTPATH_INPUT"
    else if (header >>> 6) &&& 0x03 ≠ 0 then
      fail "fast_path_input.flags" "encryption is not supported"
    else
      let numEventsNibble := (header >>> 2) &&& 0x0F
      let _ ← readPerLength
      let numEvents ← if numEventsNibble = 0 then readU8 else pure numEventsNibble
      let events ← (List.range numEvents.toNat).mapM fun _ => FastPathInputEvent.decode
      return ⟨events⟩) input

theorem header_fields {count : Nat} (h : count < 15) :
    (UInt8.ofNat count <<< 2) &&& 0x03 = 0 ∧
    ((UInt8.ofNat count <<< 2) >>> 6) &&& 0x03 = 0 ∧
    ((UInt8.ofNat count <<< 2) >>> 2) &&& 0x0F = UInt8.ofNat count := by
  have hall : ∀ c < 15, (UInt8.ofNat c <<< 2) &&& 0x03 = 0 ∧
      ((UInt8.ofNat c <<< 2) >>> 6) &&& 0x03 = 0 ∧
        ((UInt8.ofNat c <<< 2) >>> 2) &&& 0x0F = UInt8.ofNat c := by
    decide
  exact hall count h

theorem length_flatMap_encode_le (events : List FastPathInputEvent) :
    (events.flatMap FastPathInputEvent.encode).length ≤ 7 * events.length := by
  induction events with
  | nil => exact Nat.le_refl _
  | cons event rest ih =>
    have hevent := event.length_encode_le
    rw [List.flatMap_cons, List.length_append, List.length_cons]
    omega

variable {events : List FastPathInputEvent}

theorem reads_events {count : UInt8} (h : count.toNat = events.length) :
    Reads ((List.range count.toNat).mapM fun _ => FastPathInputEvent.decode)
      (events.flatMap FastPathInputEvent.encode) (events.map FastPathInputEvent.onWire) :=
  reads_mapM_map (fun event _ => event.reads_encode) (by rw [List.length_range, h])

theorem encode_layout (h : events.length ≤ 255) :
    ∃ nibble < 15, ∃ extraPrefix : Bytes,
      extraPrefix.length ≤ 1 ∧
      encode ⟨events⟩ =
        encodeFastpathFrame (UInt8.ofNat nibble <<< 2) extraPrefix
          (events.flatMap FastPathInputEvent.encode) ∧
      ∀ (next : UInt8 → Decoder FastPathInput) (rest : Bytes),
        (if UInt8.ofNat nibble = 0 then readU8 >>= next else pure (UInt8.ofNat nibble) >>= next)
          (extraPrefix ++ rest) =
          next (UInt8.ofNat events.length) rest := by
  by_cases hsmall : 0 < events.length ∧ events.length < 15
  · have hpos : UInt8.ofNat events.length ≠ 0 := by
      intro hzero
      have hcount := congrArg UInt8.toNat hzero
      rw [UInt8.toNat_ofNat', UInt8.toNat_zero] at hcount
      omega
    refine ⟨events.length, hsmall.2, [], Nat.zero_le _, ?_, ?_⟩
    · simp only [encode, hsmall, and_self, decide_true, if_true]
    · intro next rest
      rw [if_neg hpos]
      rfl
  · refine ⟨0, by decide, [UInt8.ofNat events.length], Nat.le_refl _, ?_, ?_⟩
    · simp only [encode, hsmall, decide_false, Bool.false_eq_true, if_false]
      rfl
    · intro next rest
      rw [if_pos (by decide)]
      rfl

theorem decode_encode {input : FastPathInput} (h : input.events.length ≤ 255) :
    decode input.encode = .ok ⟨input.events.map FastPathInputEvent.onWire⟩ := by
  obtain ⟨events⟩ := input
  change events.length ≤ 255 at h
  have hbytes := length_flatMap_encode_le events
  have hcount : (UInt8.ofNat events.length).toNat = events.length := by
    rw [UInt8.toNat_ofNat']
    omega
  obtain ⟨nibble, hnibble, extraPrefix, hextra, hencode, hread⟩ := encode_layout h
  obtain ⟨total, htotal, -, hframe⟩ := encodeFastpathFrame_shape (UInt8.ofNat nibble <<< 2) extraPrefix
    (events.flatMap FastPathInputEvent.encode) (by omega)
  obtain ⟨haction, hflags, hfield⟩ := header_fields hnibble
  have hevents := reads_events hcount []
  rw [List.append_nil] at hevents
  rw [hencode, hframe, decode, decodeFrom, bind_ok (readU8_cons _ _),
    if_neg (not_not.mpr haction), if_neg (not_not.mpr hflags),
    bind_ok (readPerLength_writePerLength htotal _), hfield, hread]
  beta_reduce
  rw [bind_ok hevents]
  rfl

end FastPathInput

def scancodeFlags (kbFlags : Nat) : UInt8 :=
  (if kbFlags &&& 0x8000 ≠ 0 then keyRelease else 0) |||
    ((if kbFlags &&& 0x0100 ≠ 0 then keyExtended else 0) ||| (if kbFlags &&& 0x0200 ≠ 0
      then keyExtended1 else 0))

def unicodeFlags (kbFlags : Nat) : UInt8 := if kbFlags &&& 0x8000 ≠ 0 then keyRelease else 0

def decodeSlowpathBody (messageType : Nat) : Decoder (Option FastPathInputEvent) :=
  if messageType = 0x0000 then do
    let kbFlags ← readU16Le
    let keyCode ← readU16Le
    let _ ← readU16Le
    return some (.scancode (scancodeFlags kbFlags) (UInt8.ofNat keyCode))
  else if messageType = 0x0001 then do
    let pointerFlags ← readU16Le
    let x ← readU16Le
    let y ← readU16Le
    return some (.mouse (UInt16.ofNat pointerFlags) (UInt16.ofNat x) (UInt16.ofNat y))
  else if messageType = 0x0003 then do
    let _ ← readU16Le
    let toggleFlags ← readU32Le
    return some (.sync (UInt8.ofNat toggleFlags))
  else if messageType = 0x0004 then do
    let kbFlags ← readU16Le
    let unicodeCode ← readU16Le
    let _ ← readU16Le
    return some (.unicode (unicodeFlags kbFlags) (UInt16.ofNat unicodeCode))
  else return none

def decodeSlowpathEvent : Decoder (Option FastPathInputEvent) := do
  let _ ← readU32Le
  let messageType ← readU16Le
  decodeSlowpathBody messageType

def decodeSlowpathEvents : Nat → Decoder (List FastPathInputEvent)
  | 0 => return []
  | numEvents + 1 => do
    match ← decodeSlowpathEvent with
    | none => return []
    | some event =>
      let rest ← decodeSlowpathEvents numEvents
      return event :: rest

def decodeSlowpathInput (body : Bytes) : Except DecodeError (List FastPathInputEvent) :=
  decodeFrom (do
    let numEvents ← readU16Le
    let _ ← readU16Le
    decodeSlowpathEvents numEvents) body

structure InclusiveRect where
  (left top right bottom : Nat)

def InclusiveRect.decode : Decoder InclusiveRect := do
  let left ← readU16Le
  let top ← readU16Le
  let right ← readU16Le
  let bottom ← readU16Le
  return { left, top, right, bottom }

def decodeSuppressOutput (body : Bytes) : Except DecodeError Bool :=
  decodeFrom (do
    let allow ← readU8
    let _ ← readU8
    let _ ← readU8
    let _ ← readU8
    if allow = 0 then return false
    else if allow = 1 then
      let left ← remaining
      if 8 ≤ left then
        let _ ← InclusiveRect.decode
        return true
      else return true
    else fail "suppress_output.allow_display_updates" "expected 0 or 1") body

def decodeRefreshRect (body : Bytes) : Except DecodeError (List InclusiveRect) :=
  decodeFrom (do
    let count ← readU8
    let _ ← readU8
    let _ ← readU8
    let _ ← readU8
    (List.range count.toNat).mapM fun _ => InclusiveRect.decode) body

def ShareDataPduType.asU8 : ShareDataPduType → UInt8
  | .control => 0x14
  | .fontList => 0x27
  | .fontMap => 0x28
  | .synchronize => 0x1F
  | .refreshRect => 0x21
  | .suppressOutput => 0x23
  | .saveSessionInfo => 0x26
  | .monitorLayout => 0x37
  | .input => 0x1C

def writeDataControlHeader (pduSource shareId innerLen : Nat) : Bytes :=
  u16Le (ShareControlHeader.size + innerLen) ++ (u16Le 0x17 ++ (u16Le pduSource ++ u32Le shareId))

def ShareDataHeader.write (header : ShareDataHeader) (innerLen : Nat) : Bytes :=
  [0] ++ ([header.streamId] ++ (u16Le innerLen ++ ([header.pduType2.asU8] ++ ([0] ++ u16Le 0))))

def DataPdu.encode (pdu : DataPdu) : Bytes :=
  writeDataControlHeader pdu.pduSource pdu.shareId (ShareDataHeader.size + pdu.body.length) ++
    (ShareDataHeader.write ⟨pdu.streamId, pdu.pduType2⟩ pdu.body.length ++ pdu.body)

theorem ShareDataPduType.fromU8_asU8 (pduType : ShareDataPduType) :
    ShareDataPduType.fromU8 pduType.asU8 = some pduType := by
  cases pduType <;> rfl

theorem reads_writeDataControlHeader {pduSource shareId innerLen : Nat}
    (hsource : pduSource < 65536)
    (hshare : shareId < 2 ^ 32)
    (hlength : ShareControlHeader.size + innerLen < 65536) :
    Reads ShareControlHeader.decode (writeDataControlHeader pduSource shareId innerLen)
      (⟨.data, pduSource, shareId⟩, innerLen) := by
  refine (reads_readU16Le hlength).bind ((reads_readU16Le (by decide)).bind ?_)
  refine (reads_readU16Le hsource).bind ?_
  rw [Nat.add_sub_cancel_left]
  exact (reads_readU32Le hshare).return fun read =>
    (ShareControlHeader.mk .data pduSource read, innerLen)

theorem ShareDataHeader.reads_write (header : ShareDataHeader) {innerLen : Nat}
    (hlength : innerLen < 65536) : Reads ShareDataHeader.decode (header.write innerLen) header := by
  refine (reads_readU8 _).bind ((reads_readU8 _).bind ((reads_readU16Le hlength).bind ?_))
  refine (reads_readU8 _).bind ?_
  rw [ShareDataPduType.fromU8_asU8]
  exact (reads_readU8 _).bind ((reads_readU16Le (by decide)).return fun _ => header)

theorem DataPdu.decode_encode {pdu : DataPdu}
    (hsource : pdu.pduSource < 65536)
    (hshare : pdu.shareId < 2 ^ 32)
    (hbody : pdu.body.length + 18 < 65536) : DataPdu.decode pdu.encode = .ok pdu := by
  obtain ⟨shareId, pduSource, streamId, pduType2, body⟩ := pdu
  change body.length + 18 < 65536 at hbody
  have hinner : ShareControlHeader.size + (ShareDataHeader.size + body.length) < 65536 := by
    simp only [ShareControlHeader.size, ShareDataHeader.size]
    omega
  have hcontrol := reads_writeDataControlHeader hsource hshare hinner
  have hlength : body.length < 65536 := by omega
  have hdata := ShareDataHeader.reads_write ⟨streamId, pduType2⟩ hlength
  have hslice : readSlice
      (min (ShareDataHeader.size + body.length - ShareDataHeader.size) body.length) body =
      .ok (body, []) := by
    rw [Nat.add_sub_cancel_left, Nat.min_self]
    simpa using readSlice_append (rfl : body.length = body.length) []
  rw [DataPdu.decode, decodeFrom, DataPdu.encode, bind_ok (hcontrol _)]
  show Except.map Prod.fst ((ShareDataHeader.decode >>= _) _) = _
  rw [bind_ok (hdata body), bind_ok (rfl : remaining body = _), bind_ok hslice]
  rfl

end Kmsrdp.Source.Pdu
