import Kmsrdp.Source.Pdu.Cursor

/-!
# MCS domain PDUs

Model of `rdpcore-pdu/src/per.rs` and of the domain PDUs in `mcs.rs`, both directions. Each decoder
leaves what follows its PDU, since one X.224 unit may pack several. Identifiers below the base they
are encoded from wrap around, as in a release build.
-/
namespace Kmsrdp.Source.Pdu
open Library.ByteString List UInt8

def readPerLength : Decoder Nat := do
  let first ← peekU8
  if first &&& 0x80 = 0 then
    let byte ← readU8
    return byte.toNat
  else
    let word ← readU16Be
    return word % 0x8000

def writePerLength (length : Nat) : Bytes :=
  if length ≤ 0x7F then [UInt8.ofNat length] else u16Be (length % 65536 ||| 0x8000)

variable {length : Nat}

theorem writePerLength_cases (h : length < 0x8000) :
    (length ≤ 0x7F ∧ writePerLength length = [ofNat length]) ∨
    (0x7F < length ∧ writePerLength length = u16Be (0x8000 + length)) := by
  unfold writePerLength
  split
  · next hshort => exact .inl ⟨hshort, rfl⟩
  · next hlong =>
    have hor : length % 65536 ||| 0x8000 = 0x8000 + length := by
      rw [Nat.mod_eq_of_lt (by omega), Nat.or_comm]
      exact (Nat.two_pow_add_eq_or_of_lt (i := 15) h 1).symm
    exact .inr ⟨by omega, by rw [hor]⟩

theorem lowBit_of_short {n : Nat} (h : n ≤ 0x7F) : ofNat n &&& 0x80 = 0 := by
  have hall : ∀ k < 128, ofNat k &&& 0x80 = 0 := by decide
  exact hall n (by omega)

theorem highBit_of_long {n : Nat} (h : n < 0x8000) : ¬ ofNat ((0x8000 + n) / 256) &&& 0x80 = 0 := by
  have hall : ∀ k < 128, ¬ ofNat (128 + k) &&& 0x80 = 0 := by decide
  have hdiv : (0x8000 + n) / 256 = 128 + n / 256 := by omega
  rw [hdiv]
  exact hall (n / 256) (by omega)

theorem readPerLength_writePerLength (h : length < 0x8000) (rest : Bytes) :
    readPerLength (writePerLength length ++ rest) = .ok (length, rest) := by
  rcases writePerLength_cases h with ⟨hshort, hwrite⟩ | ⟨-, hwrite⟩
  · rw [hwrite, readPerLength, singleton_append, bind_ok (rfl : peekU8 _ = _),
      if_pos (lowBit_of_short hshort), bind_ok (readU8_cons _ _)]
    show Except.ok ((ofNat length).toNat, rest) = _
    rw [toNat_ofNat', Nat.mod_eq_of_lt (by omega)]
  · have hword : (0x8000 + length) % 65536 = 0x8000 + length := by omega
    have hread := readU16Be_u16Be (0x8000 + length) rest
    rw [hword] at hread
    have hpeek : peekU8 (u16Be (0x8000 + length) ++ rest) =
        .ok (ofNat ((0x8000 + length) / 256), u16Be (0x8000 + length) ++ rest) := rfl
    rw [hwrite, readPerLength, bind_ok hpeek, if_neg (highBit_of_long h), bind_ok hread]
    show Except.ok ((0x8000 + length) % 0x8000, rest) = _
    rw [Nat.add_mod_left, Nat.mod_eq_of_lt h]

def readPerU32 : Decoder Nat := do
  let length ← readPerLength
  let bytes ← readSlice length
  return bytes.foldl (fun value b => (value * 256 + b.toNat) % 2 ^ 32) 0

def writePerU32 (value : Nat) : Bytes :=
  if value ≤ 0xFF then writePerLength 1 ++ [UInt8.ofNat value]
  else if value ≤ 0xFFFF then writePerLength 2 ++ u16Be value
  else writePerLength 4 ++ (u16Be (value / 65536) ++ u16Be value)

theorem reads_readPerLength (h : length < 0x8000) :
    Reads readPerLength (writePerLength length) length :=
  fun rest => readPerLength_writePerLength h rest

theorem reads_readPerU32 {value : Nat} (h : value < 2 ^ 32) :
    Reads readPerU32 (writePerU32 value) value := by
  have hread : ∀ bytes : Bytes, bytes.length < 0x8000 →
      bytes.foldl (fun value b => (value * 256 + b.toNat) % 2 ^ 32) 0 = value →
      Reads readPerU32 (writePerLength bytes.length ++ bytes) value := by
    intro bytes hlength hvalue
    rw [← hvalue]
    exact (reads_readPerLength hlength).bind ((reads_readSlice bytes).return _)
  unfold writePerU32
  split
  · refine hread [ofNat value] (by simp) ?_
    simp only [foldl_cons, foldl_nil, toNat_ofNat']
    omega
  · split
    · refine hread (u16Be value) (by simp [u16Be]) ?_
      simp only [u16Be, foldl_cons, foldl_nil, toNat_ofNat']
      omega
    · refine hread (u16Be (value / 65536) ++ u16Be value) (by simp [u16Be]) ?_
      simp only [u16Be, cons_append, nil_append, foldl_cons, foldl_nil, toNat_ofNat']
      omega

def readPerU16 (min : Nat) : Decoder Nat := do
  let value ← readU16Be
  return (value + min) % 65536

def writePerU16 (value min : Nat) : Bytes := u16Be ((value + 65536 - min) % 65536)

theorem reads_readPerU16 {value min : Nat} (hvalue : value < 65536) (hmin : min < 65536) :
    Reads (readPerU16 min) (writePerU16 value min) value := by
  have hback : ((value + 65536 - min) % 65536 + min) % 65536 = value := by omega
  have hread := (reads_readU16Be (Nat.mod_lt (value + 65536 - min) (by decide))).return fun v =>
    (v + min) % 65536
  rwa [hback] at hread

def baseChannelId : Nat := 1001

inductive DomainMcsPdu where
  | erectDomainRequest
  | disconnectProviderUltimatum
  | attachUserRequest
  | attachUserConfirm
  | channelJoinRequest
  | channelJoinConfirm
  | sendDataRequest
  | sendDataIndication
  deriving DecidableEq

def DomainMcsPdu.fromU8 (value : UInt8) : Option DomainMcsPdu :=
  if value = 1 then some .erectDomainRequest
  else if value = 8 then some .disconnectProviderUltimatum
  else if value = 10 then some .attachUserRequest
  else if value = 11 then some .attachUserConfirm
  else if value = 14 then some .channelJoinRequest
  else if value = 15 then some .channelJoinConfirm
  else if value = 25 then some .sendDataRequest
  else if value = 26 then some .sendDataIndication
  else none

def DomainMcsPdu.asU8 : DomainMcsPdu → UInt8
  | erectDomainRequest => 1
  | disconnectProviderUltimatum => 8
  | attachUserRequest => 10
  | attachUserConfirm => 11
  | channelJoinRequest => 14
  | channelJoinConfirm => 15
  | sendDataRequest => 25
  | sendDataIndication => 26

def writeChoiceByte (pdu : DomainMcsPdu) (options : UInt8) : Bytes := [pdu.asU8 <<< 2 ||| options]

def readChoiceByte (expected : DomainMcsPdu) : Decoder UInt8 := do
  let byte ← readU8
  if DomainMcsPdu.fromU8 (byte >>> 2) ≠ some expected then
    fail "mcs.domain_pdu.choice" "unexpected domain PDU choice byte"
  return byte &&& 0x3

def skipOptionalNonStandard (options : UInt8) : Decoder Unit :=
  if options &&& 0x2 ≠ 0 then do
    ensure 2
    advance 2
  else pure ()

structure ErectDomainRequest where
  subHeight : Nat
  subInterval : Nat

def ErectDomainRequest.decode : Decoder ErectDomainRequest := do
  let options ← readChoiceByte .erectDomainRequest
  let subHeight ← readPerU32
  let subInterval ← readPerU32
  skipOptionalNonStandard options
  return { subHeight, subInterval }

def ErectDomainRequest.encode (pdu : ErectDomainRequest) : Bytes :=
  writeChoiceByte .erectDomainRequest 0 ++ (writePerU32 pdu.subHeight ++ writePerU32 pdu.subInterval)

def decodeAttachUserRequest : Decoder Unit := do
  let options ← readChoiceByte .attachUserRequest
  skipOptionalNonStandard options

def encodeAttachUserRequest : Bytes := writeChoiceByte .attachUserRequest 0

structure AttachUserConfirm where
  result : UInt8
  initiator : Nat

def AttachUserConfirm.encode (pdu : AttachUserConfirm) : Bytes :=
  writeChoiceByte .attachUserConfirm 2 ++ ([pdu.result] ++ writePerU16 pdu.initiator baseChannelId)

def AttachUserConfirm.decode : Decoder AttachUserConfirm := do
  let _ ← readChoiceByte .attachUserConfirm
  let result ← readU8
  let initiator ← readPerU16 baseChannelId
  return { result, initiator }

structure ChannelJoinRequest where
  initiator : Nat
  channelId : Nat

def ChannelJoinRequest.decode : Decoder ChannelJoinRequest := do
  let _ ← readChoiceByte .channelJoinRequest
  let initiator ← readPerU16 baseChannelId
  let channelId ← readPerU16 0
  return { initiator, channelId }

def ChannelJoinRequest.encode (pdu : ChannelJoinRequest) : Bytes :=
  writeChoiceByte .channelJoinRequest 0 ++
    (writePerU16 pdu.initiator baseChannelId ++ writePerU16 pdu.channelId 0)

structure ChannelJoinConfirm where
  result : UInt8
  (initiator requestedChannelId channelId : Nat)

def ChannelJoinConfirm.encode (pdu : ChannelJoinConfirm) : Bytes :=
  writeChoiceByte .channelJoinConfirm 2 ++ ([pdu.result] ++
    (writePerU16 pdu.initiator baseChannelId ++
      (writePerU16 pdu.requestedChannelId 0 ++ writePerU16 pdu.channelId 0)))

def ChannelJoinConfirm.decode : Decoder ChannelJoinConfirm := do
  let _ ← readChoiceByte .channelJoinConfirm
  let result ← readU8
  let initiator ← readPerU16 baseChannelId
  let requestedChannelId ← readPerU16 0
  let channelId ← readPerU16 0
  return { result, initiator, requestedChannelId, channelId }

structure SendData where
  initiator : Nat
  channelId : Nat
  data : Bytes
  /-- The `end` bit of the segmentation field. -/
  complete : Bool

def SendData.decodeFromCursor (pdu : DomainMcsPdu) : Decoder SendData := do
  let _ ← readChoiceByte pdu
  let initiator ← readPerU16 baseChannelId
  let channelId ← readPerU16 0
  let priorityAndSegmentation ← readU8
  let length ← readPerLength
  let data ← readSlice length
  return { initiator, channelId, data, complete := priorityAndSegmentation &&& 0x10 ≠ 0 }

def SendData.decodeRequestFromCursor : Decoder SendData :=
  SendData.decodeFromCursor .sendDataRequest

def SendData.decodeRequest (input : Bytes) : Except DecodeError SendData :=
  decodeFrom SendData.decodeRequestFromCursor input

def SendData.decodeIndication (input : Bytes) : Except DecodeError SendData :=
  decodeFrom (SendData.decodeFromCursor .sendDataIndication) input

def SendData.encode (pdu : SendData) (kind : DomainMcsPdu) : Bytes :=
  writeChoiceByte kind 0 ++ (writePerU16 pdu.initiator baseChannelId ++ (writePerU16 pdu.channelId 0 ++
    ([0x70] ++ (writePerLength pdu.data.length ++ pdu.data))))

def SendData.encodeRequest (pdu : SendData) : Bytes := pdu.encode .sendDataRequest

def SendData.encodeIndication (pdu : SendData) : Bytes := pdu.encode .sendDataIndication

theorem reads_readChoiceByte (pdu : DomainMcsPdu) {options : UInt8}
    (h : options = 0 ∨ options = 2) :
    Reads (readChoiceByte pdu) (writeChoiceByte pdu options) options := by
  rcases h with rfl | rfl <;> cases pdu <;> exact fun _ => rfl

theorem ErectDomainRequest.reads_encode {pdu : ErectDomainRequest}
    (hheight : pdu.subHeight < 2 ^ 32)
    (hinterval : pdu.subInterval < 2 ^ 32) : Reads ErectDomainRequest.decode pdu.encode pdu := by
  refine (reads_readChoiceByte _ (.inl rfl)).bind ((reads_readPerU32 hheight).bind ?_)
  intro rest
  rw [bind_ok (reads_readPerU32 hinterval rest)]
  rfl

theorem reads_encodeAttachUserRequest : Reads decodeAttachUserRequest encodeAttachUserRequest () :=
  fun _ => rfl

theorem AttachUserConfirm.reads_encode {pdu : AttachUserConfirm}
    (hinitiator : pdu.initiator < 65536) : Reads AttachUserConfirm.decode pdu.encode pdu := by
  refine (reads_readChoiceByte _ (.inr rfl)).bind ((reads_readU8 _).bind ?_)
  exact (reads_readPerU16 hinitiator (by decide)).return (AttachUserConfirm.mk pdu.result)

theorem ChannelJoinRequest.reads_encode {pdu : ChannelJoinRequest}
    (hinitiator : pdu.initiator < 65536)
    (hchannel : pdu.channelId < 65536) : Reads ChannelJoinRequest.decode pdu.encode pdu := by
  refine (reads_readChoiceByte _ (.inl rfl)).bind ((reads_readPerU16 hinitiator (by decide)).bind ?_)
  exact (reads_readPerU16 hchannel (by decide)).return (ChannelJoinRequest.mk pdu.initiator)

theorem ChannelJoinConfirm.reads_encode {pdu : ChannelJoinConfirm}
    (hinitiator : pdu.initiator < 65536)
    (hrequested : pdu.requestedChannelId < 65536)
    (hchannel : pdu.channelId < 65536) : Reads ChannelJoinConfirm.decode pdu.encode pdu := by
  refine (reads_readChoiceByte _ (.inr rfl)).bind ((reads_readU8 _).bind ?_)
  refine (reads_readPerU16 hinitiator (by decide)).bind
    ((reads_readPerU16 hrequested (by decide)).bind ?_)
  exact (reads_readPerU16 hchannel (by decide)).return
    (ChannelJoinConfirm.mk pdu.result pdu.initiator pdu.requestedChannelId)

theorem SendData.reads_encode (kind : DomainMcsPdu) {pdu : SendData}
    (hinitiator : pdu.initiator < 65536)
    (hchannel : pdu.channelId < 65536)
    (hdata : pdu.data.length < 0x8000)
    (hcomplete : pdu.complete = true) :
    Reads (SendData.decodeFromCursor kind) (pdu.encode kind) pdu := by
  obtain ⟨initiator, channelId, data, complete⟩ := pdu
  cases hcomplete
  refine (reads_readChoiceByte _ (.inl rfl)).bind ((reads_readPerU16 hinitiator (by decide)).bind ?_)
  refine (reads_readPerU16 hchannel (by decide)).bind ((reads_readU8 _).bind ?_)
  refine (reads_readPerLength hdata).bind ?_
  exact (reads_readSlice data).return fun read => SendData.mk initiator channelId read true

theorem SendData.decodeIndication_encodeIndication (pdu : SendData)
    (hinitiator : pdu.initiator < 65536)
    (hchannel : pdu.channelId < 65536)
    (hdata : pdu.data.length < 0x8000)
    (hcomplete : pdu.complete = true) :
    SendData.decodeIndication pdu.encodeIndication = .ok pdu := by
  have h :=
    (SendData.reads_encode .sendDataIndication hinitiator hchannel hdata hcomplete).decodeFrom []
  rwa [append_nil] at h

theorem extends_readChoiceByte (expected : DomainMcsPdu) : Extends (readChoiceByte expected) := by
  apply extends_readU8.bind
  intro byte
  split
  · exact (extends_fail _ _).bind fun _ => extends_pure _
  · exact extends_pure _

theorem extends_skipOptionalNonStandard (options : UInt8) :
    Extends (skipOptionalNonStandard options) := by
  unfold skipOptionalNonStandard
  split
  · exact extends_skip 2
  · exact extends_pure ()

theorem extends_readPerLength : Extends readPerLength := by
  apply extends_peekU8.bind
  intro first
  split
  · exact extends_readU8.bind fun _ => extends_pure _
  · exact extends_readU16Be.bind fun _ => extends_pure _

theorem extends_readPerU32 : Extends readPerU32 := by
  apply extends_readPerLength.bind
  intro length
  exact (extends_readSlice length).bind fun _ => extends_pure _

theorem extends_readPerU16 (min : Nat) : Extends (readPerU16 min) :=
  extends_readU16Be.bind fun _ => extends_pure _

theorem ErectDomainRequest.extends_decode : Extends ErectDomainRequest.decode := by
  apply (extends_readChoiceByte _).bind
  intro options
  apply extends_readPerU32.bind
  intro subHeight
  apply extends_readPerU32.bind
  intro subInterval
  exact (extends_skipOptionalNonStandard options).bind fun _ => extends_pure _

theorem extends_decodeAttachUserRequest : Extends decodeAttachUserRequest := by
  apply (extends_readChoiceByte _).bind
  exact extends_skipOptionalNonStandard

theorem ChannelJoinRequest.extends_decode : Extends ChannelJoinRequest.decode := by
  apply (extends_readChoiceByte _).bind
  intro options
  apply (extends_readPerU16 _).bind
  intro initiator
  exact (extends_readPerU16 _).bind fun _ => extends_pure _

theorem SendData.extends_decodeFromCursor (pdu : DomainMcsPdu) :
    Extends (SendData.decodeFromCursor pdu) := by
  apply (extends_readChoiceByte _).bind
  intro options
  apply (extends_readPerU16 _).bind
  intro initiator
  apply (extends_readPerU16 _).bind
  intro channelId
  apply extends_readU8.bind
  intro priorityAndSegmentation
  apply extends_readPerLength.bind
  intro length
  exact (extends_readSlice length).bind fun _ => extends_pure _

theorem choice_of_ok {α : Type} {expected : DomainMcsPdu} {next : UInt8 → Decoder α} {buf : Bytes}
    {result : α × Bytes}
    (h : (readChoiceByte expected >>= next) buf = .ok result) :
    ∃ byte rest, buf = byte :: rest ∧ DomainMcsPdu.fromU8 (byte >>> 2) = some expected := by
  obtain ⟨options, left, hchoice, -⟩ := exists_of_bind_eq_ok h
  obtain ⟨byte, rest, hbyte, hcheck⟩ := exists_of_bind_eq_ok hchoice
  cases buf with
  | nil => cases hbyte
  | cons first behind =>
    cases hbyte
    refine ⟨byte, rest, rfl, ?_⟩
    split at hcheck
    · cases hcheck
    · next hkind => exact not_not.mp hkind

end Kmsrdp.Source.Pdu
