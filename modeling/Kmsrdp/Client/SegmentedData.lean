import Kmsrdp.Source.Rdpegfx.Pdu

/-!
# A client's reader of segmented graphics data

The client takes `RDP_SEGMENTED_DATA` apart without decompressing. A segment has to fit its buffer,
the declared length has to be that of all segments, and nothing may follow them.
-/
namespace Kmsrdp.Client.SegmentedData
open Library.ByteString Library.Chunks Source.Pdu Source.Rdpegfx List

def readBulkData (length : Nat) : Decoder Bytes := do
  let header ← readU8
  if header ≠ packetComprTypeRdp8 then fail "segmented.header" "compressed data"
  else if zgfxMaxSegmentPayload < length then fail "segmented.size" "segment exceeds the output buffer"
  else readSlice length

def readSegment : Decoder Bytes := do
  let size ← readU32Le
  readBulkData (size - 1)

def readSegmentList : Nat → Decoder (List Bytes)
  | 0 => pure []
  | count + 1 => do
    let segment ← readSegment
    let rest ← readSegmentList count
    return segment :: rest

def readSingle : Decoder (List Bytes) := do
  let left ← remaining
  let data ← readBulkData (left - 1)
  return [data]

def readMultipart : Decoder (List Bytes) := do
  let count ← readU16Le
  let uncompressedSize ← readU32Le
  let segments ← readSegmentList count
  if segments.flatten.length ≠ uncompressedSize then
    fail "segmented.uncompressed_size" "length of the segments differs"
  else return segments

def readContent (descriptor : UInt8) : Decoder (List Bytes) :=
  if descriptor = segmentedSingle then readSingle
  else if descriptor = segmentedMultipart then readMultipart
  else fail "segmented.descriptor" "unknown descriptor"

def readSegmented : Decoder (List Bytes) := do
  let descriptor ← readU8
  let segments ← readContent descriptor
  let left ← remaining
  if left ≠ 0 then fail "segmented" "trailing bytes" else return segments

def decodeSegmented (message : Bytes) : Except DecodeError (List Bytes) :=
  decodeFrom readSegmented message

theorem readBulkData_append {data : Bytes} {length : Nat}
    (hlength : data.length = length)
    (hfits : length ≤ zgfxMaxSegmentPayload)
    (rest : Bytes) :
    readBulkData length (packetComprTypeRdp8 :: (data ++ rest)) = .ok (data, rest) := by
  rw [readBulkData, bind_ok (readU8_cons _ _), if_neg (not_not.mpr rfl), if_neg (Nat.not_lt.mpr hfits),
    readSlice_append hlength]

def segmentBytes (piece : Bytes) : Bytes :=
  u32Le (1 + piece.length) ++ [packetComprTypeRdp8] ++ piece

theorem readSegment_segmentBytes {piece : Bytes}
    (hfits : piece.length ≤ zgfxMaxSegmentPayload)
    (rest : Bytes) : readSegment (segmentBytes piece ++ rest) = .ok (piece, rest) := by
  have hsmall : piece.length ≤ 65535 := hfits
  have hsize : 1 + piece.length - 1 = piece.length := Nat.add_sub_cancel_left 1 _
  rw [readSegment, segmentBytes, append_assoc, append_assoc,
    bind_ok (readU32Le_of_lt (by omega) _), hsize]
  exact readBulkData_append rfl hfits rest

theorem readSegmentList_flatMap {pieces : List Bytes}
    (hfits : ∀ piece ∈ pieces, piece.length ≤ zgfxMaxSegmentPayload)
    (rest : Bytes) :
    readSegmentList pieces.length (pieces.flatMap segmentBytes ++ rest) = .ok (pieces, rest) := by
  induction pieces with
  | nil => rfl
  | cons piece later ih =>
    have hlater := ih fun other hother => hfits other (mem_cons_of_mem _ hother)
    rw [length_cons, readSegmentList, flatMap_cons, append_assoc,
      bind_ok (readSegment_segmentBytes (hfits piece mem_cons_self) _), bind_ok hlater]
    rfl

theorem readMultipart_append {pieces : List Bytes}
    (hcount : pieces.length < 65536)
    (htotal : pieces.flatten.length < 2 ^ 32)
    (hfits : ∀ piece ∈ pieces, piece.length ≤ zgfxMaxSegmentPayload) :
    readMultipart
      (u16Le pieces.length ++ (u32Le pieces.flatten.length ++ pieces.flatMap segmentBytes)) =
      .ok (pieces, []) := by
  have hsegments := readSegmentList_flatMap hfits []
  rw [append_nil] at hsegments
  rw [readMultipart, bind_ok (readU16Le_of_lt hcount _), bind_ok (readU32Le_of_lt htotal _),
    bind_ok hsegments, if_neg (not_not.mpr rfl)]
  rfl

theorem readSingle_cons {data : Bytes} (hfits : data.length ≤ zgfxMaxSegmentPayload) :
    readSingle (packetComprTypeRdp8 :: data) = .ok ([data], []) := by
  have hdata := readBulkData_append rfl hfits []
  rw [append_nil] at hdata
  show (readBulkData data.length >>= fun data => pure [data]) _ = _
  rw [bind_ok hdata]
  rfl

theorem decodeSegmented_cons {descriptor : UInt8} {content : Bytes} {segments : List Bytes}
    (hcontent : readContent descriptor content = .ok (segments, [])) :
    decodeSegmented (descriptor :: content) = .ok segments := by
  rw [decodeSegmented, decodeFrom, readSegmented, bind_ok (readU8_cons _ _), bind_ok hcontent]
  rfl

/-- The client gets the PDUs back, in segments within the limit. -/
theorem decodeSegmented_encodeSegmented {gfxPdus : Bytes}
    (hcount : (chunks zgfxMaxSegmentPayload gfxPdus).length ≤ 65535) :
    ∃ segments,
      decodeSegmented (encodeSegmented gfxPdus) = .ok segments ∧
      segments.flatten = gfxPdus ∧
      ∀ segment ∈ segments, segment.length ≤ zgfxMaxSegmentPayload := by
  unfold encodeSegmented
  split
  · next hshort =>
    refine ⟨[gfxPdus], decodeSegmented_cons ?_, flatten_singleton, fun segment hsegment => ?_⟩
    · exact readSingle_cons hshort
    · exact mem_singleton.mp hsegment ▸ hshort
  · have hpieces : ∀ piece ∈ chunks zgfxMaxSegmentPayload gfxPdus, piece.length ≤
        zgfxMaxSegmentPayload :=
      fun piece hpiece => length_le_of_mem_chunks hpiece
    have hflatten := flatten_chunks (n := zgfxMaxSegmentPayload) (by decide) gfxPdus
    have htotal : (chunks zgfxMaxSegmentPayload gfxPdus).flatten.length < 2 ^ 32 := by
      calc (chunks zgfxMaxSegmentPayload gfxPdus).flatten.length
          ≤ (chunks zgfxMaxSegmentPayload gfxPdus).length *
            zgfxMaxSegmentPayload := length_flatten_le hpieces
        _ ≤ 65535 * zgfxMaxSegmentPayload := Nat.mul_le_mul_right _ hcount
        _ < 2 ^ 32 := by decide
    have hmulti := readMultipart_append (Nat.lt_succ_of_le hcount) htotal hpieces
    rw [hflatten] at hmulti
    refine ⟨chunks zgfxMaxSegmentPayload gfxPdus, ?_, hflatten, hpieces⟩
    simp only [append_assoc, cons_append]
    exact decodeSegmented_cons hmulti

end Kmsrdp.Client.SegmentedData
