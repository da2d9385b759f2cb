import Kmsrdp.Source.Pdu.Cursor

/-!
# TPKT, TPDU and X.224

Model of the decoders in `rdpcore-pdu/src/tpkt.rs`, `tpdu.rs` and `x224.rs` that the server runs on
client input, and of `wrap_data`, which frames everything it sends on a static channel.
-/
namespace Kmsrdp.Source.Pdu
open Library.ByteString

def decodeTpktHeader : Decoder Nat := do
  ensure 4
  let version ← readU8
  if version ≠ 3 then fail "tpkt.version" "unsupported TPKT version"
  advance 1
  readU16Be

def connectionRequestCode : UInt8 := 0xE0
def dataCode : UInt8 := 0xF0

def headerFixedPartSize (code : UInt8) : Nat := if code = dataCode then 3 else 7

def decodeTpduHeader (expected : UInt8) : Decoder UInt8 := do
  ensure 2
  let li ← readU8
  let code ← readU8
  if code ≠ expected then fail "tpdu.code" "unexpected TPDU code"
  if li = 0xFF then fail "tpdu.li" "0xFF is reserved for X.224 extensions, unsupported"
  if li.toNat + 1 < headerFixedPartSize code then
    fail "tpdu.li" "too small to hold this TPDU code's fixed header part"
  ensure (headerFixedPartSize code - 2)
  advance (if code = dataCode then 1 else 5)
  return li

def variablePartSize (li code : UInt8) : Nat := li.toNat + 1 - headerFixedPartSize code

def unwrapData (input : Bytes) : Except DecodeError Bytes :=
  decodeFrom (do
    let _ ← decodeTpktHeader
    let _ ← decodeTpduHeader dataCode
    readRest) input

def wrapData (payload : Bytes) : Bytes :=
  [0x03, 0x00] ++ u16Be (min (4 + 3 + payload.length) 65535) ++ [0x02, dataCode, 0x80] ++ payload

theorem unwrapData_wrapData (payload : Bytes) : unwrapData (wrapData payload) = .ok payload := rfl

abbrev SecurityProtocol := Nat

namespace SecurityProtocol

def ssl : SecurityProtocol := 1
def hybrid : SecurityProtocol := 2

def contains (protocol flag : SecurityProtocol) : Bool := protocol &&& flag = flag

end SecurityProtocol

structure ConnectionRequest where
  cookie : Option String
  flags : UInt8
  protocol : SecurityProtocol

def cookiePrefixBytes : Bytes :=
  [0x43, 0x6F, 0x6F, 0x6B, 0x69, 0x65, 0x3A, 0x20, 0x6D, 0x73, 0x74, 0x73, 0x68, 0x61, 0x73, 0x68, 0x3D]

def crlfOffset : Bytes → Option Nat
  | first :: second :: rest =>
    if first = 0x0D ∧ second = 0x0A then some 0 else (crlfOffset (second :: rest)).map (· + 1)
  | _ => none

def readCookie : Decoder (Option String) := fun buf =>
  if buf.length < cookiePrefixBytes.length + 2 then .ok (none, buf)
  else if buf.take cookiePrefixBytes.length ≠ cookiePrefixBytes then .ok (none, buf)
  else
    let rest := buf.drop cookiePrefixBytes.length
    match crlfOffset rest with
    | none => .error (.notEnoughBytes (rest.length + 1) rest.length)
    | some offset =>
      match String.fromUTF8? ⟨(rest.take offset).toArray⟩ with
      | some value => .ok (some value, rest.drop (offset + 2))
      | none => .error (.invalidValue "x224.cookie" "not valid UTF-8")

def ConnectionRequest.decode (input : Bytes) : Except DecodeError ConnectionRequest :=
  decodeFrom (do
    let _ ← decodeTpktHeader
    let li ← decodeTpduHeader connectionRequestCode
    ensure (variablePartSize li connectionRequestCode)
    let cookie ← readCookie
    let kind ← readU8
    if kind ≠ 0x01 then fail "x224.nego_request.type" "expected RDP_NEG_REQ type byte"
    let flags ← readU8
    let _ ← readU16Le
    let protocol ← readU32Le
    return { cookie, flags, protocol }) input

end Kmsrdp.Source.Pdu
