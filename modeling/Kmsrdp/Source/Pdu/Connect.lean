import Kmsrdp.Source.Pdu.ClientInfo
import Kmsrdp.Source.Pdu.Mcs

/-!
# Connect-Initial and the client's GCC blocks

Model of the decoders the server runs on the MCS Connect-Initial (`ber.rs`, `mcs.rs`, `gcc.rs`).
Fields of the GCC blocks that no caller reads are consumed and dropped.
-/
namespace Kmsrdp.Source.Pdu
open Library.ByteString

def readBerLength : Decoder Nat := do
  let first ← readU8
  if first.toNat ≤ 0x7F then return first.toNat
  else if first = 0x81 then
    let byte ← readU8
    return byte.toNat
  else if first = 0x82 then readU16Be
  else fail "ber.length" "unsupported BER length-of-length form"

def readApplicationTag (expected : UInt8) : Decoder Nat := do
  let marker ← readU8
  if marker ≠ 0x7F then
    fail "ber.application_tag" "expected the 2-byte [APPLICATION n] tag form"
  let tagNumber ← readU8
  if tagNumber ≠ expected then fail "ber.application_tag" "unexpected application tag number"
  readBerLength

def expectTag (expected : UInt8) (field : String) : Decoder Unit := do
  let tag ← readU8
  if tag ≠ expected then fail field "unexpected BER tag byte"

def readBerValue (tag : UInt8) (field : String) : Decoder Bytes := do
  expectTag tag field
  let length ← readBerLength
  readSlice length

def readBerOctetString : Decoder Bytes := readBerValue 0x04 "ber.octet_string"

def readBerBoolean : Decoder Bool := do
  let bytes ← readBerValue 0x01 "ber.boolean"
  return bytes.head?.any (· ≠ 0)

def readBerInteger : Decoder Nat := do
  let bytes ← readBerValue 0x02 "ber.integer"
  if bytes.isEmpty || 5 < bytes.length || (bytes.length == 5 && bytes.head? != some 0) then
    fail "ber.integer"
      "unsupported INTEGER length (expected 1-4 bytes or 5 bytes with 0x00 pad)"
  let value := bytes.foldl (fun value b => value * 256 + b.toNat) 0
  if 2 ^ 32 ≤ value then fail "ber.integer" "integer value exceeds u32"
  return value

structure DomainParameters where
  maxChannelIds : Nat
  (maxUserIds maxTokenIds numPriorities minThroughput maxHeight maxMcsPduSize protocolVersion : Nat)

def DomainParameters.decode : Decoder DomainParameters := do
  expectTag 0x30 "ber.sequence"
  let _ ← readBerLength
  let maxChannelIds ← readBerInteger
  let maxUserIds ← readBerInteger
  let maxTokenIds ← readBerInteger
  let numPriorities ← readBerInteger
  let minThroughput ← readBerInteger
  let maxHeight ← readBerInteger
  let maxMcsPduSize ← readBerInteger
  let protocolVersion ← readBerInteger
  return { maxChannelIds, maxUserIds, maxTokenIds, numPriorities, minThroughput, maxHeight, maxMcsPduSize,
           protocolVersion }

structure ConnectInitial where
  (targetParameters minParameters maxParameters : DomainParameters)
  userData : Bytes

def ConnectInitial.decode : Decoder ConnectInitial := do
  let _ ← readApplicationTag 0x65
  let _ ← readBerOctetString
  let _ ← readBerOctetString
  let _ ← readBerBoolean
  let targetParameters ← DomainParameters.decode
  let minParameters ← DomainParameters.decode
  let maxParameters ← DomainParameters.decode
  let userData ← readBerOctetString
  return { targetParameters, minParameters, maxParameters, userData }

def expectByte (expected : UInt8) (field : String) : Decoder Unit := do
  let got ← readU8
  if got ≠ expected then fail field "unexpected fixed byte value"

def readObjectId : Decoder Bytes := do
  let length ← readU8
  if length ≠ 5 then fail "per.object_id" "expected a 5-byte packed OID body"
  let packed ← readU8
  let rest ← readSlice 4
  return packed / 40 :: packed % 40 :: rest

def readPerOctetString (min : Nat) : Decoder Bytes := do
  let excess ← readPerLength
  readSlice (excess + min)

def readNumericString (min : Nat) : Decoder Bytes := do
  let excess ← readPerLength
  readSlice ((excess + min + 1) / 2)

def decodeConferenceCreateRequest (input : Bytes) : Except DecodeError Bytes :=
  decodeFrom (do
    expectByte 0x00 "gcc.conference_request.key_choice"
    let _ ← readObjectId
    let _ ← readPerLength
    expectByte 0x00 "gcc.conference_request.gcc_pdu_choice"
    let _ ← readU8
    let _ ← readNumericString 1
    ensure 1
    advance 1
    let _ ← readU8
    let _ ← readU8
    let _ ← readPerOctetString 4
    let blocksLen ← readPerLength
    readSlice blocksLen) input

structure ClientGccBlocks where
  clientName : String
  /-- Channel names of CS_NET, in the client's order. -/
  network : Option (List Bytes)
  messageChannel : Bool
  deriving DecidableEq

structure GccScan where
  clientName : Option String
  security : Bool
  network : Option (List Bytes)
  messageChannel : Bool

def decodeClientCore : Decoder String := do
  ensure 128
  let _ ← readSlice 20
  let name ← readSlice 32
  return readFixed name

def decodeChannelDef : Decoder Bytes := do
  let name ← readSlice 8
  let _ ← readU32Le
  return name.takeWhile (· ≠ 0)

def channelsMax : Nat := 31

def decodeClientNetwork : Decoder (List Bytes) := do
  let count ← readU32Le
  (List.range (min count channelsMax)).mapM fun _ => decodeChannelDef

def scanGccBlock (scan : GccScan) (kind : Nat) (body : Bytes) : Except DecodeError GccScan := do
  if kind = 0xC001 then
    let name ← decodeFrom decodeClientCore body
    return { scan with clientName := some name }
  else if kind = 0xC002 then
    let _ ← decodeFrom (do let _ ← readU32Le; readU32Le) body
    return { scan with security := true }
  else if kind = 0xC003 then
    let channels ← decodeFrom decodeClientNetwork body
    return { scan with network := some channels }
  else if kind = 0xC004 then
    let _ ← decodeFrom (do let _ ← readU32Le; readU32Le) body
    return scan
  else if kind = 0xC006 then
    let _ ← decodeFrom readU32Le body
    return { scan with messageChannel := true }
  else return scan

def readBlock : Decoder (Nat × Bytes) := do
  let kind ← readU16Le
  let length ← readU16Le
  if length < 4 then fail "gcc.userData.length" "block length must be at least 4"
  let body ← readSlice (length - 4)
  return (kind, body)

/-- `for_each_user_data_block`, with what the closure has collected as a state. Every block takes
at least four bytes, so the length of the input bounds the number of blocks. -/
def forEachUserDataBlock {σ : Type} (f : σ → Nat → Bytes → Except DecodeError σ) :
    Nat → σ → Bytes → Except DecodeError σ
  | 0, s, _ => .ok s
  | fuel + 1, s, input =>
    if input.length < 4 then .ok s
    else do
      let ((kind, body), rest) ← readBlock input
      let s ← f s kind body
      forEachUserDataBlock f fuel s rest

def ClientGccBlocks.decode (input : Bytes) : Except DecodeError ClientGccBlocks := do
  let scan ← forEachUserDataBlock scanGccBlock input.length ⟨none, false, none, false⟩ input
  match scan.clientName with
  | none => .error (.invalidValue "gcc.client_blocks.core" "missing mandatory CS_CORE block")
  | some clientName =>
    if scan.security then
      return { clientName, network := scan.network, messageChannel := scan.messageChannel }
    else
      .error (.invalidValue "gcc.client_blocks.security" "missing mandatory CS_SECURITY block")

end Kmsrdp.Source.Pdu
