import Kmsrdp.Library.Reassembly
import Kmsrdp.Source.Pdu.Cursor

/-!
# Dynamic channel PDUs

Model of `rdpcore-dvc/src/pdu.rs`. The first byte of a PDU packs the command and two selectors for
the widths of the channel id and of the total length.
-/
namespace Kmsrdp.Source.Dvc
open Library.ByteString Library.Chunks Library.Reassembly Source.Pdu List Nat

def cmdCreate : UInt8 := 0x01
def cmdDataFirst : UInt8 := 0x02
def cmdData : UInt8 := 0x03
def cmdClose : UInt8 := 0x04
def cmdCapability : UInt8 := 0x05

def maxDataSize : Nat := 1590

def fieldSizeFor (value : Nat) : UInt8 × Nat :=
  if value ≤ 0xFF then (0, 1) else if value ≤ 0xFFFF then (1, 2) else (2, 4)

def writeVariable (value size : Nat) : Bytes :=
  match size with
  | 1 => [UInt8.ofNat value]
  | 2 => u16Le value
  | 4 => u32Le value
  | _ => [] -- unreachable: `field_size_for` gives 1, 2 or 4

def readVariable (selector : UInt8) : Decoder Nat :=
  if selector = 0 then do
    let byte ← readU8
    return byte.toNat
  else if selector = 1 then readU16Le
  else if selector = 2 then readU32Le
  else fail "dvc.field_selector" "selector value 3 is reserved/unused"

def encodeCapabilityRequest : Bytes :=
  [cmdCapability <<< 4, 0] ++ u16Le 2 ++ (List.replicate 4 (u16Le 0)).flatten

def encodeCreateRequest (channelId : Nat) (name : String) : Bytes :=
  let cb := fieldSizeFor channelId
  (cmdCreate <<< 4 ||| cb.1) :: (writeVariable channelId cb.2 ++ (name.toUTF8.data.toList ++ [0]))

def encodeData (channelId : Nat) (data : Bytes) : Bytes :=
  let cb := fieldSizeFor channelId
  (cmdData <<< 4 ||| cb.1) :: (writeVariable channelId cb.2 ++ data)

def encodeDataFirst (channelId totalLength : Nat) (firstChunk : Bytes) : Bytes :=
  let cb := fieldSizeFor channelId
  let len := fieldSizeFor totalLength
  (cmdDataFirst <<< 4 ||| len.1 <<< 2 ||| cb.1) ::
    (writeVariable channelId cb.2 ++ (writeVariable totalLength len.2 ++ firstChunk))

def encodeChannelPayload (channelId : Nat) (payload : Bytes) : List Bytes :=
  if payload.length ≤ maxDataSize then [encodeData channelId payload]
  else
    match chunks maxDataSize payload with
    | [] => []
    | first :: rest =>
      encodeDataFirst channelId (payload.length % 2 ^ 32) first :: rest.map (encodeData channelId)

inductive ClientMessage where
  | capabilityResponse (version : Nat)
  | createResponse (channelId creationStatus : Nat)
  | data (channelId : Nat) (data : Bytes)
  | dataFirst (channelId totalLength : Nat) (data : Bytes)
  | close (channelId : Nat)
  | other
  deriving DecidableEq

def decodeBody (cmd sp cbId : UInt8) : Decoder ClientMessage :=
  if cmd = cmdCapability then do
    let _pad ← readU8
    let version ← readU16Le
    return .capabilityResponse version
  else if cmd = cmdCreate then do
    let channelId ← readVariable cbId
    let creationStatus ← readU32Le
    return .createResponse channelId creationStatus
  else if cmd = cmdData then do
    let channelId ← readVariable cbId
    let data ← readRest
    return .data channelId data
  else if cmd = cmdDataFirst then do
    let channelId ← readVariable cbId
    let totalLength ← readVariable sp
    let data ← readRest
    return .dataFirst channelId totalLength data
  else if cmd = cmdClose then do
    let channelId ← readVariable cbId
    return .close channelId
  else return .other

def decodeClientMessage (input : Bytes) : Except DecodeError ClientMessage :=
  decodeFrom (do
    let header ← readU8
    decodeBody (header >>> 4) (header >>> 2 &&& 0x03) (header &&& 0x03)) input

def dataFragment (pdu : Bytes) : Option (Nat × Fragment UInt8) :=
  match decodeClientMessage pdu with
  | .ok (.data channelId data) => some (channelId, .more data)
  | .ok (.dataFirst channelId totalLength data) => some (channelId, .first totalLength data)
  | _ => none

theorem fieldSizeFor_cases (value : Nat) :
    (value ≤ 0xFF ∧ fieldSizeFor value = (0, 1)) ∨
    (value ≤ 0xFFFF ∧ fieldSizeFor value = (1, 2)) ∨
    fieldSizeFor value = (2, 4) := by
  unfold fieldSizeFor
  split
  · next h => exact .inl ⟨h, rfl⟩
  · split
    · next h => exact .inr (.inl ⟨h, rfl⟩)
    · exact .inr (.inr rfl)

theorem readVariable_writeVariable {value : Nat} (h : value < 2 ^ 32) (rest : Bytes) :
    readVariable (fieldSizeFor value).1 (writeVariable value (fieldSizeFor value).2 ++ rest) =
      .ok (value, rest) := by
  rcases fieldSizeFor_cases value with ⟨hbyte, hsize⟩ | ⟨hword, hsize⟩ | hsize <;> rw [hsize]
  · show Except.ok ((UInt8.ofNat value).toNat, rest) = _
    rw [UInt8.toNat_ofNat', mod_eq_of_lt (by omega)]
  · exact readU16Le_of_lt (by omega) rest
  · exact readU32Le_of_lt h rest

theorem length_writeVariable_le (value : Nat) :
    (writeVariable value (fieldSizeFor value).2).length ≤ 4 := by
  rcases fieldSizeFor_cases value with ⟨-, hsize⟩ | ⟨-, hsize⟩ | hsize <;> rw [hsize]
  · exact show 1 ≤ 4 by decide
  · exact show 2 ≤ 4 by decide
  · exact show 4 ≤ 4 by decide

theorem header_parts (cmd : UInt8) (hcmd : cmd ∈ [cmdCreate, cmdDataFirst, cmdData, cmdClose])
    (channelId length : Nat) :
    let header := cmd <<< 4 ||| (fieldSizeFor length).1 <<< 2 ||| (fieldSizeFor channelId).1
    header >>> 4 = cmd ∧ header >>> 2 &&& 0x03 = (fieldSizeFor length).1 ∧
      header &&& 0x03 = (fieldSizeFor channelId).1 := by
  have hall : ∀ cmd ∈ [cmdCreate, cmdDataFirst, cmdData, cmdClose], ∀ sp ∈ [(0 : UInt8), 1, 2],
      ∀ cb ∈ [(0 : UInt8), 1, 2], (cmd <<< 4 ||| sp <<< 2 ||| cb) >>> 4 = cmd ∧
        (cmd <<< 4 ||| sp <<< 2 ||| cb) >>> 2 &&& 0x03 = sp ∧
        (cmd <<< 4 ||| sp <<< 2 ||| cb) &&& 0x03 = cb := by decide +kernel
  have hselector : ∀ value, (fieldSizeFor value).1 ∈ [(0 : UInt8), 1, 2] := by
    intro value
    rcases fieldSizeFor_cases value with ⟨-, hsize⟩ | ⟨-, hsize⟩ | hsize <;> simp [hsize]
  exact hall cmd hcmd _ (hselector length) _ (hselector channelId)

theorem header_parts_short (cmd : UInt8) (hcmd : cmd ∈ [cmdCreate, cmdDataFirst, cmdData, cmdClose])
    (channelId : Nat) :
    let header := cmd <<< 4 ||| (fieldSizeFor channelId).1
    header >>> 4 = cmd ∧ header &&& 0x03 = (fieldSizeFor channelId).1 := by
  have h := header_parts cmd hcmd channelId 0
  have hzero : cmd <<< 4 ||| (fieldSizeFor 0).1 <<< 2 = cmd <<< 4 := UInt8.or_zero
  rw [hzero] at h
  exact ⟨h.1, h.2.2⟩

theorem decodeClientMessage_cons (header : UInt8) (rest : Bytes) :
    decodeClientMessage (header :: rest) =
      decodeFrom (decodeBody (header >>> 4) (header >>> 2 &&& 0x03) (header &&& 0x03)) rest := rfl

variable {channelId : Nat}

theorem decode_encodeData (hid : channelId < 2 ^ 32) (data : Bytes) :
    decodeClientMessage (encodeData channelId data) = .ok (.data channelId data) := by
  obtain ⟨hcmd, hcb⟩ := header_parts_short cmdData (by decide) channelId
  rw [encodeData, decodeClientMessage_cons, hcmd, hcb, decodeFrom]
  show Except.map Prod.fst ((readVariable _ >>= _) _) = _
  rw [bind_ok (readVariable_writeVariable hid data)]
  rfl

theorem decode_encodeDataFirst {totalLength : Nat}
    (hid : channelId < 2 ^ 32)
    (htotal : totalLength < 2 ^ 32)
    (firstChunk : Bytes) :
    decodeClientMessage (encodeDataFirst channelId totalLength firstChunk) =
      .ok (.dataFirst channelId totalLength firstChunk) := by
  obtain ⟨hcmd, hsp, hcb⟩ := header_parts cmdDataFirst (by decide) channelId totalLength
  rw [encodeDataFirst, decodeClientMessage_cons, hcmd, hsp, hcb, decodeFrom]
  show Except.map Prod.fst ((readVariable _ >>= _) _) = _
  rw [bind_ok (readVariable_writeVariable hid _), bind_ok (readVariable_writeVariable htotal _)]
  rfl

theorem length_encodeData_le (channelId : Nat) (data : Bytes) :
    (encodeData channelId data).length ≤ 5 + data.length := by
  have hid := length_writeVariable_le channelId
  simp only [encodeData, length_cons, length_append]
  omega

theorem length_encodeDataFirst_le (channelId totalLength : Nat) (firstChunk : Bytes) :
    (encodeDataFirst channelId totalLength firstChunk).length ≤ 9 + firstChunk.length := by
  have hid := length_writeVariable_le channelId
  have htotal := length_writeVariable_le totalLength
  simp only [encodeDataFirst, length_cons, length_append]
  omega

theorem length_le_of_mem_encodeChannelPayload {payload pdu : Bytes}
    (h : pdu ∈ encodeChannelPayload channelId payload) : pdu.length ≤ 1599 := by
  have hdata : ∀ data : Bytes, data.length ≤ maxDataSize →
      (encodeData channelId data).length ≤ 1599 := by
    intro data hsize
    have := length_encodeData_le channelId data
    unfold maxDataSize at hsize
    omega
  unfold encodeChannelPayload at h
  split at h
  · next hshort => exact mem_singleton.mp h ▸ hdata payload hshort
  · split at h
    · cases h
    · next first rest hchunks =>
      have hpiece : ∀ piece ∈ first :: rest, piece.length ≤ maxDataSize := fun piece hpiece =>
        length_le_of_mem_chunks (hchunks ▸ hpiece)
      rcases mem_cons.mp h with rfl | h
      · have := length_encodeDataFirst_le channelId (payload.length % 2 ^ 32) first
        have := hpiece first mem_cons_self
        unfold maxDataSize at this
        omega
      · obtain ⟨piece, hmem, rfl⟩ := mem_map.mp h
        exact hdata piece (hpiece piece (mem_cons_of_mem _ hmem))

theorem map_dataFragment_encodeChannelPayload
    (hid : channelId < 2 ^ 32)
    {payload : Bytes}
    (hpayload : payload.length < 2 ^ 32) :
    (encodeChannelPayload channelId payload).map dataFragment =
      (split maxDataSize payload).map fun fragment => some (channelId, fragment) := by
  have hdata : ∀ data, dataFragment (encodeData channelId data) = some (channelId, .more data) := by
    intro data
    rw [dataFragment, decode_encodeData hid]
  have hfirst : ∀ data, dataFragment (encodeDataFirst channelId payload.length data) =
      some (channelId, .first payload.length data) := by
    intro data
    rw [dataFragment, decode_encodeDataFirst hid hpayload]
  unfold encodeChannelPayload split
  split
  · simp [hdata]
  · rw [mod_eq_of_lt hpayload]
    cases chunks maxDataSize payload with
    | nil => rfl
    | cons first rest => simp [hdata, hfirst, Function.comp_def]

variable {message : ClientMessage}

theorem decodeBody_create {sp cbId : UInt8} {buf : Bytes}
    (h : decodeFrom (decodeBody cmdCreate sp cbId) buf = .ok message) :
    ∃ channelId creationStatus, message = .createResponse channelId creationStatus := by
  change Except.map Prod.fst (readVariable cbId buf >>= fun id =>
    readU32Le id.2 >>= fun status =>
      Except.ok (ClientMessage.createResponse id.1 status.1, status.2)) = _ at h
  cases hid : readVariable cbId buf with
  | error e => rw [hid] at h; cases h
  | ok id =>
    rw [hid] at h
    cases hstatus : readU32Le id.2 with
    | error e => simp [bind, Except.bind, hstatus, Except.map] at h
    | ok status =>
      simp only [bind, Except.bind, hstatus, Except.map, Except.ok.injEq] at h
      exact ⟨_, _, h.symm⟩

def ClientMessage.carried : ClientMessage → Bytes
  | .data _ bytes => bytes
  | .dataFirst _ _ bytes => bytes
  | _ => []

theorem shrinks_readVariable (selector : UInt8) : Shrinks (readVariable selector) := by
  unfold readVariable
  split
  · exact shrinks_readU8.bind fun _ => shrinks_pure _
  · split
    · exact shrinks_readU16Le
    · split
      · exact shrinks_readU32Le
      · exact shrinks_fail _ _

theorem length_carried_le_of_decodeBody {cmd sp cbId : UInt8} {buf left : Bytes}
    (h : decodeBody cmd sp cbId buf = .ok (message, left)) :
    message.carried.length ≤ buf.length := by
  unfold decodeBody at h
  split at h
  · obtain ⟨_, _, -, h⟩ := exists_of_bind_eq_ok h
    obtain ⟨_, _, -, h⟩ := exists_of_bind_eq_ok h
    cases h
    exact zero_le _
  split at h
  · obtain ⟨_, _, -, h⟩ := exists_of_bind_eq_ok h
    obtain ⟨_, _, -, h⟩ := exists_of_bind_eq_ok h
    cases h
    exact zero_le _
  split at h
  · obtain ⟨_, rest, hid, h⟩ := exists_of_bind_eq_ok h
    cases h
    exact shrinks_readVariable cbId _ _ _ hid
  split at h
  · obtain ⟨_, rest, hid, h⟩ := exists_of_bind_eq_ok h
    obtain ⟨_, rest', htotal, h⟩ := exists_of_bind_eq_ok h
    cases h
    exact le_trans (shrinks_readVariable sp _ _ _ htotal) (shrinks_readVariable cbId _ _ _ hid)
  split at h
  · obtain ⟨_, _, -, h⟩ := exists_of_bind_eq_ok h
    cases h
    exact zero_le _
  · cases h
    exact zero_le _

theorem length_carried_le {input : Bytes} (h : decodeClientMessage input = .ok message) :
    message.carried.length ≤ input.length := by
  obtain ⟨left, h⟩ := exists_of_decodeFrom_eq_ok h
  obtain ⟨header, rest, hheader, h⟩ := exists_of_bind_eq_ok h
  exact le_trans (length_carried_le_of_decodeBody h) (shrinks_readU8 _ _ _ hheader)

theorem dataFragment_encodeCreateRequest (channelId : Nat) (name : String) :
    dataFragment (encodeCreateRequest channelId name) = none := by
  have hcmd := (header_parts_short cmdCreate (by decide) channelId).1
  rw [dataFragment, encodeCreateRequest, decodeClientMessage_cons, hcmd]
  split
  · next h => obtain ⟨_, _, h⟩ := decodeBody_create h; cases h
  · next h => obtain ⟨_, _, h⟩ := decodeBody_create h; cases h
  · rfl

theorem encodeCreateRequest_ne_nil (channelId : Nat) (name : String) :
    encodeCreateRequest channelId name ≠ [] :=
  cons_ne_nil _ _

end Kmsrdp.Source.Dvc
