import Kmsrdp.Source.Server.Encode

/-!
# Corners and lengths of bitmap rectangles on the wire

Near the top of the sixteen-bit range the loops over tiles, which advance by 64, never get past a
width or height above 65472, and a raw strip has at least one row, whose bytes no longer fit the
length field from a width of 16384 on. The result gives the exact sizes for which the call returns
with every corner and length right.
-/
namespace Kmsrdp.Guarantees.WireLengths
open Library.ByteString Source.Pdu Source.Server.Display Source.Server.Encode List Option
  FastPathOutput Nat
  Source.Server.Fragments

def wordAt (bytes : Bytes) (offset : Nat) : Option Nat :=
  (decodeFrom readU16Le (bytes.drop offset)).toOption

/-- The rectangle has the corners of the piece, with no wrap. -/
structure AtPiece (bitmap : BitmapUpdate) (piece : Piece) (rect : BitmapRect) : Prop where
  left : rect.destLeft = bitmap.x.val + piece.tileX
  top : rect.destTop = bitmap.y.val + piece.tileY
  right : rect.destRight + 1 = bitmap.x.val + piece.tileX + piece.tileWidth
  bottom : rect.destBottom + 1 = bitmap.y.val + piece.tileY + piece.tileHeight
  width : rect.width = piece.tileWidth
  height : rect.height = piece.tileHeight

/-- `bitmapLength` is the number of bytes behind it; a compressed rectangle has the lengths of its
data, of a scan line and of the raw pixels as well. -/
structure LengthsExact (rect : BitmapRect) : Prop where
  bitmapLength : wordAt rect.encode 16 = some (rect.encode.length - 18)
  mainBodySize : rect.compressedScanWidth.isSome = true → wordAt rect.encode 20 = some rect.data.length
  scanWidth : rect.compressedScanWidth.isSome = true → wordAt rect.encode 22 = some (rect.width * 4)
  uncompressedSize :
    rect.compressedScanWidth.isSome = true → wordAt rect.encode 24 = some (rect.width * 4 * rect.height)

/-- The frame has its own length in its header, and its update the length of its data. -/
def FrameExact (frame : Bytes) : Prop :=
  ∃ update : FastPathUpdatePdu, frame = FastPathOutput.encode ⟨[update]⟩ ∧
    decodeFrom readPerLength frame.tail = .ok frame.length ∧
      wordAt update.encode 1 = some update.data.length

/-- The call returns, and every corner and every length it writes is right. -/
def Exact (bitmap : BitmapUpdate) (policy : BitmapEncodePolicy) (scratch : EncodeScratch) : Prop :=
  ∃ stats after, encodeBitmapUpdate bitmap policy scratch = some (stats, after) ∧
    (∀ rect ∈ after.rectangles,
      (∃ piece ∈ pieces bitmap policy, AtPiece bitmap piece rect) ∧ LengthsExact rect) ∧
    ∀ batch ∈ after.batches, ∀ frame ∈ batch, FrameExact frame

def hasRow (bitmap : BitmapUpdate) (row : Nat) : Bool :=
  (sliceGet bitmap.data (bitmap.srcByteOffset 0 row)
    (bitmap.srcByteOffset 0 row + bitmap.width.get * 4)).isSome

/-- The sizes that tiles, or else strips, can cope with; a bitmap without a row has nothing to send.
-/
def Encodable (bitmap : BitmapUpdate) (policy : BitmapEncodePolicy) : Prop :=
  (policy.useRdp6Planar = true → bitmap.width.get ≤ 65472 ∧ bitmap.height.get ≤ 65472) ∧
    (policy.useRdp6Planar = false →
      bitmap.width.get ≤ 16383 ∨ ∀ row < bitmap.height.get, hasRow bitmap row = false)

theorem lt_of_mem_offsets {size limit position : Nat}
    (hsize : 0 < size)
    (h : position ∈ offsets size limit) : position < limit := by
  obtain ⟨k, hk, rfl⟩ := mem_map.mp h
  exact (lt_count_iff hsize limit k).mp (mem_range.mp hk)

section Pieces
variable {bitmap : BitmapUpdate} {policy : BitmapEncodePolicy} {piece : Piece}

theorem tile_of_mem_pieces
    (hplanar : policy.useRdp6Planar = true)
    (h : piece ∈ pieces bitmap policy) :
    (piece.tileX + piece.tileWidth ≤ bitmap.width.get ∧
     piece.tileY + piece.tileHeight ≤ bitmap.height.get) ∧
    (0 < piece.tileWidth ∧ 0 < piece.tileHeight) ∧
    piece.tileWidth ≤ 64 ∧
    piece.tileHeight ≤ 64 := by
  rw [pieces, if_pos hplanar] at h
  obtain ⟨tileY, hy, hrow⟩ := mem_flatMap.mp h
  obtain ⟨tileX, hx, rfl⟩ := mem_map.mp hrow
  have hright := lt_of_mem_offsets (by decide) hx
  have hbottom := lt_of_mem_offsets (by decide) hy
  unfold tileSize
  dsimp only
  omega

theorem strip_of_mem_pieces
    (hraw : policy.useRdp6Planar = false)
    (h : piece ∈ pieces bitmap policy) :
    piece.tileX = 0 ∧
    piece.tileWidth = bitmap.width.get ∧
    piece.tileY + piece.tileHeight ≤ bitmap.height.get ∧
    0 < piece.tileHeight ∧
    piece.tileHeight ≤ maxRawStripHeight bitmap.width.get := by
  rw [pieces, if_neg (by simp [hraw])] at h
  have hstrip := maxRawStripHeight_pos bitmap.width.pos
  obtain ⟨tileY, hy, rfl⟩ := mem_map.mp h
  have hbottom := lt_of_mem_offsets hstrip hy
  refine ⟨rfl, rfl, ?_, ?_, ?_⟩ <;> dsimp only <;> omega

theorem inside_of_mem_pieces (h : piece ∈ pieces bitmap policy) :
    (piece.tileX + piece.tileWidth ≤ bitmap.width.get ∧
     piece.tileY + piece.tileHeight ≤ bitmap.height.get) ∧
    0 < piece.tileWidth ∧
    0 < piece.tileHeight := by
  cases hplanar : policy.useRdp6Planar with
  | true =>
    obtain ⟨hinside, hpos, -⟩ := tile_of_mem_pieces hplanar h
    exact ⟨hinside, hpos⟩
  | false =>
    obtain ⟨hx, hwidth, hbottom, hpos, -⟩ := strip_of_mem_pieces hplanar h
    have := bitmap.width.pos
    exact ⟨⟨by omega, hbottom⟩, by omega, hpos⟩

theorem maxRawStripHeight_wide {width : Nat} (hwide : 16383 < width) :
    maxRawStripHeight width = 1 := by
  have hnone : 65535 / (width * 4) = 0 := div_eq_of_lt (by omega)
  rw [maxRawStripHeight, if_neg (by omega), hnone]
  rfl

theorem row_mem_pieces
    (hraw : policy.useRdp6Planar = false)
    (hwide : 16383 < bitmap.width.get)
    {row : Nat}
    (hrow : row < bitmap.height.get) : ⟨0, row, bitmap.width.get, 1⟩ ∈ pieces bitmap policy := by
  rw [pieces, if_neg (by simp [hraw]), maxRawStripHeight_wide hwide]
  refine mem_map.mpr ⟨row, ?_, by rw [Nat.min_eq_left (by omega)]⟩
  exact mem_map.mpr ⟨row, mem_range.mpr (by omega), mul_one row⟩

theorem atPiece_toRect
    (hx : bitmap.x.val + bitmap.width.get ≤ 65536)
    (hy : bitmap.y.val + bitmap.height.get ≤ 65536)
    (h : piece ∈ pieces bitmap policy)
    (data : Bytes) (scanWidth : Option Nat) :
    AtPiece bitmap piece (piece.toRect bitmap data scanWidth) := by
  obtain ⟨⟨hright, hbottom⟩, hwidth, hheight⟩ := inside_of_mem_pieces h
  refine ⟨?_, ?_, ?_, ?_, rfl, rfl⟩ <;> dsimp only [Piece.toRect] <;> omega

end Pieces

theorem word_u16Le (value : Nat) (rest : Bytes) :
    (decodeFrom readU16Le (u16Le value ++ rest)).toOption = some (value % 65536) := by
  rw [decodeFrom, readU16Le_u16Le]
  rfl

theorem lengthsExact_raw_iff {rect : BitmapRect} (hraw : rect.compressedScanWidth = none) :
    LengthsExact rect ↔ rect.data.length < 65536 := by
  have hencode : rect.encode = rect.geometry ++ (u16Le 0 ++ (u16Le rect.data.length ++ rect.data)) := by
    rw [BitmapRect.encode, hraw]
  have hlength : rect.encode.length - 18 = rect.data.length := by
    rw [rect.length_encode, BitmapRect.wireSize, hraw, isSome_none, if_neg Bool.false_ne_true]
    omega
  have hword : wordAt rect.encode 16 = some (rect.data.length % 65536) := by
    rw [hencode]
    exact word_u16Le rect.data.length rect.data
  constructor
  · intro hexact
    have hfield := hexact.bitmapLength
    rw [hword, hlength] at hfield
    have := some.inj hfield
    omega
  · intro hshort
    refine ⟨?_, ?_, ?_, ?_⟩
    · rw [hword, hlength, mod_eq_of_lt hshort]
    all_goals
      intro hcompressed
      rw [hraw] at hcompressed
      cases hcompressed

theorem lengthsExact_compressed {rect : BitmapRect}
    (hscan : rect.compressedScanWidth = some (rect.width * 4 % 65536))
    (hdata : 8 + rect.data.length < 65536)
    (hraw : rect.width * 4 * rect.height < 65536)
    (hheight : 0 < rect.height) : LengthsExact rect := by
  have hwidth : rect.width * 4 < 65536 := Nat.lt_of_le_of_lt (Nat.le_mul_of_pos_right _ hheight) hraw
  rw [mod_eq_of_lt hwidth] at hscan
  have hencode : rect.encode =
      rect.geometry ++ (u16Le bitmapCompression ++ (u16Le (8 + rect.data.length) ++ (u16Le 0 ++
      (u16Le rect.data.length ++
        (u16Le (rect.width * 4) ++ (u16Le (rect.height * (rect.width * 4)) ++ rect.data)))))) := by
    rw [BitmapRect.encode, hscan]
  have hlength : rect.encode.length - 18 = 8 + rect.data.length := by
    rw [rect.length_encode, BitmapRect.wireSize, hscan, isSome_some, if_pos rfl]
    omega
  refine ⟨?_, fun _ => ?_, fun _ => ?_, fun _ => ?_⟩
  · rw [hlength, hencode]
    refine (word_u16Le (8 + rect.data.length) _).trans ?_
    rw [mod_eq_of_lt hdata]
  · rw [hencode]
    refine (word_u16Le rect.data.length _).trans ?_
    rw [mod_eq_of_lt (by omega)]
  · rw [hencode]
    refine (word_u16Le (rect.width * 4) _).trans ?_
    rw [mod_eq_of_lt hwidth]
  · rw [hencode]
    refine (word_u16Le (rect.height * (rect.width * 4)) _).trans ?_
    rw [mul_comm, mod_eq_of_lt hraw]

section Rectangles
variable {bitmap : BitmapUpdate} {policy : BitmapEncodePolicy} {piece : Piece} {rect : BitmapRect}

theorem pieceRect_cases (h : pieceRect bitmap policy piece = some rect) :
    (∃ pixels : Bytes,
       pixels.length = piece.tileWidth * 4 * piece.tileHeight ∧
       rect = piece.toRect bitmap pixels none) ∨
    policy.useRdp6Planar = true ∧
    ∃ compressed : Bytes,
      compressed.length < piece.tileWidth * 4 * piece.tileHeight ∧
      rect = piece.toRect bitmap compressed (some (piece.tileWidth * 4 % 65536)) := by
  unfold pieceRect at h
  cases hgather : gatherRows bitmap piece.tileX piece.tileY (piece.tileWidth * 4)
    piece.tileHeight [] with
  | mk pixels complete =>
    rw [hgather] at h
    cases complete with
    | false => cases h
    | true =>
      have hlength := length_gatherRows hgather
      rw [length_nil, zero_add] at hlength
      dsimp only at h
      rw [if_pos rfl] at h
      split at h
      · next hshort =>
        rw [hlength, Bool.and_eq_true] at hshort
        exact .inr ⟨hshort.1.1, _, hshort.2, (some.inj h).symm⟩
      · exact .inl ⟨pixels, hlength, (some.inj h).symm⟩

theorem lengthsExact_of_pieceRect
    (hsize : policy.useRdp6Planar = false → bitmap.width.get ≤ 16383)
    (hpiece : piece ∈ pieces bitmap policy)
    (h : pieceRect bitmap policy piece = some rect) : LengthsExact rect := by
  rcases pieceRect_cases h with ⟨pixels, hlength, rfl⟩ | ⟨hplanar, compressed, hlength, rfl⟩
  · refine (lengthsExact_raw_iff rfl).mpr ?_
    show pixels.length < 65536
    rw [hlength]
    cases hplanar : policy.useRdp6Planar with
    | true =>
      obtain ⟨-, -, hwidth, hheight⟩ := tile_of_mem_pieces hplanar hpiece
      exact Nat.lt_of_le_of_lt (Nat.mul_le_mul (Nat.mul_le_mul_right 4 hwidth) hheight) (by decide)
    | false =>
      obtain ⟨-, hwidth, -, -, hheight⟩ := strip_of_mem_pieces hplanar hpiece
      have hfits := (maxRawStripHeight_fits bitmap.width.pos (hsize hplanar)).2
      rw [Nat.mul_right_comm] at hfits
      rw [hwidth]
      exact lt_of_le_of_lt (mul_le_mul_left _ hheight) hfits
  · obtain ⟨-, ⟨-, hpos⟩, hwidth, hheight⟩ := tile_of_mem_pieces hplanar hpiece
    have htile : piece.tileWidth * 4 * piece.tileHeight ≤ 64 * 4 * 64 :=
      Nat.mul_le_mul (Nat.mul_le_mul_right 4 hwidth) hheight
    apply lengthsExact_compressed rfl
    · show 8 + compressed.length < 65536
      omega
    · show piece.tileWidth * 4 * piece.tileHeight < 65536
      omega
    · exact hpos

theorem pieceRect_row
    (hraw : policy.useRdp6Planar = false)
    {row : Nat}
    (hlt : row < 65536)
    (hrow : hasRow bitmap row = true) :
    ∃ pixels : Bytes,
      pixels.length = bitmap.width.get * 4 ∧
      pieceRect bitmap policy ⟨0, row, bitmap.width.get, 1⟩ =
        some (Piece.toRect ⟨0, row, bitmap.width.get, 1⟩ bitmap pixels none) := by
  obtain ⟨slice, hslice⟩ := isSome_iff_exists.mp hrow
  have hgather : gatherRows bitmap 0 row (bitmap.width.get * 4) 1 [] = (slice, true) := by
    rw [gatherRows, add_zero, mod_eq_of_lt hlt, hslice]
    rfl
  have hlength := length_gatherRows hgather
  rw [length_nil, zero_add, mul_one] at hlength
  refine ⟨slice, hlength, ?_⟩
  rw [pieceRect, hgather]
  dsimp only
  rw [if_pos rfl, if_neg (by simp [hraw])]

theorem pieceRect_wide_none
    (hraw : policy.useRdp6Planar = false)
    (hwide : 16383 < bitmap.width.get)
    (hnone : ∀ row < bitmap.height.get, hasRow bitmap row = false)
    (hpiece : piece ∈ pieces bitmap policy) : pieceRect bitmap policy piece = none := by
  obtain ⟨hx, hwidth, hbottom, hpos, hheight⟩ := strip_of_mem_pieces hraw hpiece
  rw [maxRawStripHeight_wide hwide] at hheight
  have hone : piece.tileHeight = 1 := by omega
  have hlt := bitmap.height.lt
  have hmissing := not_isSome_iff_eq_none.mp (Bool.eq_false_iff.mp (hnone piece.tileY (by omega)))
  have hgather : gatherRows bitmap piece.tileX piece.tileY (piece.tileWidth * 4) piece.tileHeight
      [] = ([], false) := by
    rw [hx, hwidth, hone, gatherRows, add_zero, mod_eq_of_lt (by omega), hmissing]
  rw [pieceRect, hgather]
  rfl

end Rectangles

theorem frameExact_encode {update : FastPathUpdatePdu}
    (h : update.data.length ≤ maxFastpathChunkSize) : FrameExact (encode ⟨[update]⟩) := by
  unfold maxFastpathChunkSize at h
  have hinner : update.encode.length = update.data.length + 3 := by
    rw [FastPathUpdatePdu.encode, length_cons, length_append, length_u16Le]
    omega
  obtain ⟨total, hfit, htotal, hframe⟩ := encodeFastpathFrame_shape 0 [] update.encode (by simp; omega)
  rw [nil_append] at htotal
  have hencode : encode ⟨[update]⟩ = 0 :: (writePerLength total ++ update.encode) := by
    rw [encode, flatMap_singleton]
    exact hframe
  refine ⟨update, rfl, ?_, ?_⟩
  · have hlength : (encode ⟨[update]⟩).length = total := by
      rw [hencode, length_cons, length_append]
      omega
    rw [hlength, hencode, tail_cons, decodeFrom, readPerLength_writePerLength hfit]
    rfl
  · refine (word_u16Le update.data.length update.data).trans ?_
    rw [mod_eq_of_lt (by omega)]

theorem frameExact_of_mem {rectangles : List BitmapRect} {maxRequestSize : Nat} {frame : Bytes}
    (h : frame ∈ encodeRectanglesToWireFrames rectangles maxRequestSize) : FrameExact frame := by
  obtain ⟨update, hupdate, rfl⟩ := mem_map.mp h
  exact frameExact_encode (data_le_of_mem_fragments hupdate)

section Call
variable {bitmap : BitmapUpdate} {policy : BitmapEncodePolicy}

theorem exact_of_encodable
    (hx : bitmap.x.val + bitmap.width.get ≤ 65536)
    (hy : bitmap.y.val + bitmap.height.get ≤ 65536)
    (h : Encodable bitmap policy)
    (scratch : EncodeScratch) : Exact bitmap policy scratch := by
  obtain ⟨stats, after, hencode⟩ := encodeBitmapUpdate_of_loopsEnd h.1 scratch
  obtain ⟨hrectangles, hbatches⟩ := after_encodeBitmapUpdate hencode
  refine ⟨stats, after, hencode, ?_, ?_⟩
  · intro rect hrect
    rw [hrectangles] at hrect
    obtain ⟨piece, hpiece, hmade⟩ := mem_filterMap.mp hrect
    constructor
    · rcases pieceRect_cases hmade with ⟨pixels, -, rfl⟩ | ⟨-, compressed, -, rfl⟩
      · exact ⟨piece, hpiece, atPiece_toRect hx hy hpiece _ _⟩
      · exact ⟨piece, hpiece, atPiece_toRect hx hy hpiece _ _⟩
    · refine lengthsExact_of_pieceRect ?_ hpiece hmade
      intro hraw
      rcases h.2 hraw with hwidth | hnone
      · exact hwidth
      · by_contra hwide
        rw [pieceRect_wide_none hraw (by omega) hnone hpiece] at hmade
        cases hmade
  · intro batch hbatch frame hframe
    rw [hbatches] at hbatch
    obtain ⟨chunk, -, rfl⟩ := mem_map.mp hbatch
    exact frameExact_of_mem hframe

theorem not_exact_of_wide_row
    (hraw : policy.useRdp6Planar = false)
    (hwide : 16383 < bitmap.width.get)
    {row : Nat}
    (hlt : row < bitmap.height.get)
    (hrow : hasRow bitmap row = true)
    (scratch : EncodeScratch) : ¬ Exact bitmap policy scratch := by
  rintro ⟨stats, after, hencode, hrectangles, -⟩
  have hheight := bitmap.height.lt
  obtain ⟨pixels, hlength, hmade⟩ := pieceRect_row hraw (show row < 65536 by omega) hrow
  have hmem := mem_filterMap.mpr ⟨_, row_mem_pieces hraw hwide hlt, hmade⟩
  rw [← (after_encodeBitmapUpdate hencode).1] at hmem
  have hshort := (lengthsExact_raw_iff rfl).mp (hrectangles _ hmem).2
  dsimp only [Piece.toRect] at hshort
  omega

end Call

/-- Under every policy without NSCodec, for every bitmap within 65536 columns and rows, the call
returns with every corner and every length right exactly if width and height are at most 65472 where
it makes tiles, and the width is at most 16383, or no row is in the buffer, where it makes strips.
-/
theorem exact_iff_encodable (bitmap : BitmapUpdate)
    (hx : bitmap.x.val + bitmap.width.get ≤ 65536)
    (hy : bitmap.y.val + bitmap.height.get ≤ 65536)
    (clientName : String) (maxRequestSize : Nat) (scratch : EncodeScratch) :
    Exact bitmap (bitmapEncodePolicy clientName none maxRequestSize) scratch ↔
      Encodable bitmap (bitmapEncodePolicy clientName none maxRequestSize) := by
  generalize bitmapEncodePolicy clientName none maxRequestSize = policy
  constructor
  · intro hexact
    refine ⟨?_, fun hraw => ?_⟩
    · obtain ⟨stats, after, hencode, -⟩ := hexact
      exact loopsEnd_of_encodeBitmapUpdate hencode
    · by_contra hbad
      obtain ⟨hwide, hsome⟩ := not_or.mp hbad
      obtain ⟨row, hrow⟩ := not_forall.mp hsome
      obtain ⟨hlt, hrow⟩ := Classical.not_imp.mp hrow
      exact not_exact_of_wide_row hraw (by omega) hlt (Bool.not_eq_false _ ▸ hrow) scratch hexact
  · exact fun h => exact_of_encodable hx hy h scratch

def blackRow (width : NonZeroU16) : BitmapUpdate where
  x := 0
  y := 0
  width := width
  height := ⟨1, Nat.one_pos, one_lt_u16⟩
  format := .bgrX32
  data := List.replicate (width.get * 4) 0
  stride := width.get * 4
  srcX := 0
  srcY := 0
  stride_pos := Nat.mul_pos width.pos (by decide)
  stride_le := by
    have := width.lt
    unfold usizeMax
    omega
  data_fits := by
    have := width.lt
    rw [List.length_replicate]
    omega

theorem hasRow_blackRow (width : NonZeroU16) : hasRow (blackRow width) 0 = true := by
  have hstart : (blackRow width).srcByteOffset 0 0 = 0 := by
    simp [BitmapUpdate.srcByteOffset, blackRow, satAdd, satMul]
  rw [hasRow, hstart, sliceGet_of_le]
  · rfl
  · exact le_of_eq ((zero_add _).trans length_replicate.symm)

def widestRow : NonZeroU16 := ⟨16383, by decide, by decide⟩

theorem exact_widestRow :
    Exact (blackRow widestRow) (bitmapEncodePolicy "MacBook" none 8388608) ⟨[], [], [], []⟩ :=
  (exact_iff_encodable (blackRow widestRow) (by decide) (by decide) "MacBook" 8388608
    ⟨[], [], [], []⟩).mpr
    ⟨fun _ => by decide, fun _ => .inl (by decide)⟩

/-- For a client that gets raw strips, a row of one more pixel has a length that does not fit; for
one that gets tiles, a row of 65535 pixels is never done. -/
theorem long_rows_fail :
    ¬ Exact (blackRow ⟨16384, by decide, by decide⟩) (bitmapEncodePolicy "MacBook" none 8388608)
        ⟨[], [], [], []⟩ ∧
      encodeBitmapUpdate (blackRow ⟨65535, by decide, by decide⟩)
        (bitmapEncodePolicy "client" none 8388608) ⟨[], [], [], []⟩ =
        none := by
  constructor
  · exact not_exact_of_wide_row (by decide) (by decide) (by decide) (hasRow_blackRow _) _
  · have hplanar : (bitmapEncodePolicy "client" none 8388608).useRdp6Planar = true := by decide
    have hloops : ¬ LoopsEnd (blackRow ⟨65535, by decide, by decide⟩)
        (bitmapEncodePolicy "client" none 8388608) :=
      fun h => absurd (h hplanar).1 (by decide)
    rw [encodeBitmapUpdate, pushTiles_eq_none hloops]
    rfl

end Kmsrdp.Guarantees.WireLengths
