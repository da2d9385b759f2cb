import Kmsrdp.Source.Pdu.Mcs

/-!
# Fast-path output frames

Model of the output half of `rdpcore-pdu/src/fastpath.rs`: the frame around a list of updates and
the fragmentation field, with the decoders. Writing a sixteen-bit field takes its residue, as the
casts do.
-/
namespace Kmsrdp.Source.Pdu
open Library.ByteString List

def maxFastpathChunkSize : Nat := 16374
def updateCodeBitmap : UInt8 := 0x1
def updateCodeSurfaceCommands : UInt8 := 0x4

def encodeFastpathFrame (headerByte : UInt8) (extraPrefix inner : Bytes) : Bytes :=
  let fixedPrefix := 1 + extraPrefix.length + inner.length
  let total := if fixedPrefix < 0x7F then fixedPrefix + 1 else fixedPrefix + 2
  headerByte :: (writePerLength total ++ extraPrefix ++ inner)

inductive Fragmentation where
  | single
  | first
  | next
  | last
  deriving DecidableEq

namespace Fragmentation

def asU8 : Fragmentation → UInt8
  | single => 0
  | last => 1
  | first => 2
  | next => 3

def fromU8 (value : UInt8) : Option Fragmentation :=
  if value = 0 then some single
  else if value = 1 then some last
  else if value = 2 then some first
  else if value = 3 then some next
  else none

end Fragmentation

structure FastPathUpdatePdu where
  updateCode : UInt8
  fragmentation : Fragmentation
  data : Bytes

namespace FastPathUpdatePdu

def header (pdu : FastPathUpdatePdu) : UInt8 :=
  (pdu.updateCode &&& (0x0F : UInt8)) ||| ((pdu.fragmentation.asU8 &&& (0x3 : UInt8)) <<< (4 : UInt8))

def encode (pdu : FastPathUpdatePdu) : Bytes :=
  pdu.header :: (u16Le pdu.data.length ++ pdu.data)

def decode : Decoder FastPathUpdatePdu := do
  let header ← readU8
  match Fragmentation.fromU8 ((header >>> 4) &&& 0x3) with
  | none => fail "fast_path_update.fragmentation" "invalid fragmentation value"
  | some fragmentation =>
    if (header >>> 6) &&& 0x2 ≠ 0 then
      fail "fast_path_update.compression" "compression is not supported"
    else do
      let size ← readU16Le
      let data ← readSlice size
      return { updateCode := header &&& 0x0F, fragmentation := fragmentation, data := data }

end FastPathUpdatePdu

structure FastPathOutput where
  updates : List FastPathUpdatePdu

namespace FastPathOutput

def encode (output : FastPathOutput) : Bytes :=
  encodeFastpathFrame 0 [] (output.updates.flatMap FastPathUpdatePdu.encode)

/-- The `while` over the updates; each round reads at least three bytes, so the number of
bytes is enough fuel. -/
def decodeUpdates : Nat → Decoder (List FastPathUpdatePdu)
  | 0 => return []
  | fuel + 1 => do
    let left ← remaining
    if left = 0 then return []
    else
      let update ← FastPathUpdatePdu.decode
      let rest ← decodeUpdates fuel
      return update :: rest

def decode (input : Bytes) : Except DecodeError FastPathOutput :=
  decodeFrom (do
    let header ← readU8
    if header &&& 0x03 ≠ 0 then fail "fast_path_output.action" "expected FASTPATH_OUTPUT"
    else if (header >>> 6) &&& 0x03 ≠ 0 then
      fail "fast_path_output.flags" "encryption is not supported"
    else
      let totalLength ← readPerLength
      let left ← remaining
      let updatesBytes ← readSlice (totalLength - (input.length - left))
      match decodeUpdates updatesBytes.length updatesBytes with
      | .error e => throw e
      | .ok (updates, _) => return ⟨updates⟩) input

end FastPathOutput

theorem FastPathUpdatePdu.header_fields (pdu : FastPathUpdatePdu) (hcode : pdu.updateCode < 16) :
    Fragmentation.fromU8 ((pdu.header >>> 4) &&& 0x3) = some pdu.fragmentation ∧
    (pdu.header >>> 6) &&& 0x2 = 0 ∧
    pdu.header &&& 0x0F = pdu.updateCode := by
  have hall : ∀ (f : Fragmentation), ∀ c < 16,
      let pdu : FastPathUpdatePdu := ⟨UInt8.ofNat c, f, []⟩
      Fragmentation.fromU8 ((pdu.header >>> 4) &&& 0x3) = some f ∧
        (pdu.header >>> 6) &&& 0x2 = 0 ∧ pdu.header &&& 0x0F = UInt8.ofNat c := by
    intro f
    cases f <;> decide
  have hpdu := hall pdu.fragmentation pdu.updateCode.toNat (UInt8.lt_iff_toNat_lt.mp hcode)
  rwa [UInt8.ofNat_toNat] at hpdu

theorem FastPathUpdatePdu.decode_encode (pdu : FastPathUpdatePdu)
    (hcode : pdu.updateCode < 16)
    (hdata : pdu.data.length < 65536)
    (rest : Bytes) : decode (pdu.encode ++ rest) = .ok (pdu, rest) := by
  obtain ⟨hfragmentation, hcompression, hupdateCode⟩ := pdu.header_fields hcode
  have hsize : readU16Le (u16Le pdu.data.length ++ pdu.data ++ rest) =
      .ok (pdu.data.length, pdu.data ++ rest) := by
    rw [append_assoc, readU16Le_u16Le, Nat.mod_eq_of_lt hdata]
  rw [decode, encode, cons_append, bind_ok (readU8_cons _ _), hfragmentation]
  simp only [hcompression, hupdateCode, ne_eq, not_true_eq_false, if_false]
  rw [bind_ok hsize, bind_ok (readSlice_append rfl rest)]
  rfl

open FastPathOutput

theorem FastPathOutput.decodeUpdates_single {pdu : FastPathUpdatePdu}
    (hcode : pdu.updateCode < 16)
    (hdata : pdu.data.length < 65536)
    {fuel : Nat} : decodeUpdates (fuel + 1) pdu.encode = .ok ([pdu], []) := by
  have hdecode := pdu.decode_encode hcode hdata []
  rw [append_nil] at hdecode
  have hleft : ¬ pdu.encode.length = 0 := by simp [FastPathUpdatePdu.encode]
  have hdone : decodeUpdates fuel [] = .ok ([], []) := by
    cases fuel <;> rfl
  rw [decodeUpdates, bind_ok (rfl : remaining pdu.encode = _), if_neg hleft,
    bind_ok hdecode, bind_ok hdone]
  rfl

theorem encodeFastpathFrame_shape
    (headerByte : UInt8)
    (extraPrefix inner : Bytes)
    (h : extraPrefix.length + inner.length < 0x7F00) :
    ∃ total,
      total < 0x8000 ∧
      total = 1 + (writePerLength total).length + (extraPrefix ++ inner).length ∧
      encodeFastpathFrame headerByte extraPrefix inner =
        headerByte :: (writePerLength total ++ (extraPrefix ++ inner)) := by
  simp only [encodeFastpathFrame, append_assoc, length_append]
  by_cases hshort : 1 + extraPrefix.length + inner.length < 0x7F
  · refine ⟨1 + extraPrefix.length + inner.length + 1, by omega, ?_, by rw [if_pos hshort]⟩
    rw [writePerLength, if_pos (by omega), length_singleton]
    omega
  · refine ⟨1 + extraPrefix.length + inner.length + 2, by omega, ?_, by rw [if_neg hshort]⟩
    rw [writePerLength, if_neg (by omega), length_u16Be]
    omega

theorem FastPathOutput.decode_encode_single {pdu : FastPathUpdatePdu}
    (hcode : pdu.updateCode < 16)
    (hdata : pdu.data.length ≤ maxFastpathChunkSize) : decode (encode ⟨[pdu]⟩) = .ok ⟨[pdu]⟩ := by
  unfold maxFastpathChunkSize at hdata
  have hinner : pdu.encode.length = pdu.data.length + 2 + 1 := by
    rw [FastPathUpdatePdu.encode, length_cons, length_append, length_u16Le]
    omega
  obtain ⟨total, hfit, htotal, hframe⟩ := encodeFastpathFrame_shape 0 [] pdu.encode (by simp; omega)
  rw [nil_append] at htotal
  have hencode : encode ⟨[pdu]⟩ = 0 :: (writePerLength total ++ pdu.encode) := by
    rw [encode, flatMap_singleton]
    exact hframe
  have hslice : readSlice (total - ((0 :: (writePerLength total ++ pdu.encode)).length -
      pdu.encode.length)) pdu.encode = .ok (pdu.encode, []) := by
    have hlen : total - ((0 :: (writePerLength total ++ pdu.encode)).length - pdu.encode.length) =
        pdu.encode.length := by
      rw [length_cons, length_append]
      omega
    have := readSlice_append (rfl : pdu.encode.length = pdu.encode.length) []
    rwa [append_nil, ← hlen] at this
  rw [hencode, decode, decodeFrom, bind_ok (readU8_cons _ _), if_neg (by decide),
    if_neg (by decide), bind_ok (readPerLength_writePerLength hfit _),
    bind_ok (rfl : remaining pdu.encode = _), bind_ok hslice, hinner,
    decodeUpdates_single hcode (by omega)]
  rfl

end Kmsrdp.Source.Pdu
