import Kmsrdp.Source.Pdu.Rdp6Buffers

/-!
# Planar bitmaps are well formed and read back

A compressed tile is the format header and, for each row of each plane, segments that stand for
exactly the bytes of that row.
-/
namespace Kmsrdp.Guarantees.PlanarFormat
open Library.Bgrx Library.ByteString Source.Pdu Source.Pdu.Rdp6 List

def scanSegments : Nat → Nat → Bytes → Option Bytes
  | _, 0, input => some input
  | 0, _ + 1, _ => none
  | _ + 1, _ + 1, [] => none
  | turns + 1, left + 1, control :: rest =>
    let literals := (control >>> 4).toNat
    let run := (control &&& 0x0F).toNat
    if control = 0 ∨ run = 1 ∨ run = 2 then none
    else if left + 1 < literals + run ∨ rest.length < literals then none
    else scanSegments turns (left + 1 - (literals + run)) (rest.drop literals)

def scanLines (width : Nat) : Nat → Bytes → Option Bytes
  | 0, input => some input
  | lines + 1, input => (scanSegments width width input).bind (scanLines width lines)

/-- The header, three planes of whole scan lines, and nothing behind. -/
def followsFormat (data : Bytes) (width height : Nat) : Bool :=
  match data with
  | [] => false
  | header :: rest => header = formatHeaderRleNoAlphaArgb && scanLines width (3 * height) rest = some []

theorem control_fields :
    ∀ literals < 16, ∀ run < 16,
      (UInt8.ofNat (literals * 16 + run) >>> 4).toNat = literals ∧
      (UInt8.ofNat (literals * 16 + run) &&& 0x0F).toNat = run := by
  decide

theorem scanSegments_of_segments {lastByte : UInt8} {encoded decoded : Bytes}
    (h : Segments lastByte encoded decoded)
    {turns : Nat}
    (hturns : decoded.length ≤ turns)
    (rest : Bytes) : scanSegments turns decoded.length (encoded ++ rest) = some rest := by
  induction h generalizing turns with
  | nil lastByte => cases turns <;> rfl
  | @cons lastByte encoded decoded literals run hliterals hrun _ ih =>
    obtain ⟨hupper, hlower⟩ := control_fields literals.length hliterals run (by omega)
    have hpos : 0 < literals.length + run := by
      rcases hrun with ⟨-, hne⟩ | hrun
      · exact Nat.add_pos_left (length_pos_iff.mpr hne) _
      · omega
    have hcontrol : ¬ UInt8.ofNat (literals.length * 16 + run) = 0 := by
      intro hzero
      rw [hzero] at hupper hlower
      simp at hupper hlower
      omega
    obtain ⟨left, hleft⟩ : ∃ left,
        (literals ++ (replicate run (literals.getLastD lastByte) ++ decoded)).length = left + 1 :=
      ⟨literals.length + run + decoded.length - 1, by
        simp only [length_append, length_replicate]; omega⟩
    rw [hleft] at hturns ⊢
    simp only [length_append, length_replicate] at hleft
    obtain ⟨turns, rfl⟩ : ∃ k, turns = k + 1 := ⟨turns - 1, by omega⟩
    rw [cons_append, scanSegments, hupper, hlower, append_assoc,
      if_neg (by rintro (hzero | hfield); exacts [hcontrol hzero, by omega]),
      if_neg (by rw [length_append]; omega), drop_left,
      show left + 1 - (literals.length + run) = decoded.length by omega]
    exact ih (by omega)

variable {width : Nat}

theorem scanLines_flatMap {rows : List Bytes}
    (hrows : ∀ row ∈ rows, row.length = width)
    (lines : Nat) (rest : Bytes) :
    scanLines width (rows.length + lines) (rows.flatMap encodeScanlineRle ++ rest) =
      scanLines width lines rest := by
  induction rows with
  | nil => simp
  | cons row rows ih =>
    obtain rfl := hrows row mem_cons_self
    have hscan := scanSegments_of_segments (segments_encodeRuns (Nat.le_refl row.length) .new 0)
      (Nat.le_refl _) (rows.flatMap encodeScanlineRle ++ rest)
    rw [length_cons, Nat.succ_add, scanLines, flatMap_cons, append_assoc]
    rw [show encodeScanlineRle row = encodeRuns row.length .new row from rfl]
    rw [show LiteralBuf.new.buf ++ row = row from rfl] at hscan
    rw [hscan, Option.bind_some]
    exact ih fun other hother => hrows other (mem_cons_of_mem _ hother)

variable {height : Nat}

theorem scanLines_encodePlane {plane : Bytes}
    (hplane : plane.length = width * height)
    (lines : Nat) (rest : Bytes) :
    scanLines width (height + lines) (encodePlane plane width height ++ rest) =
      scanLines width lines rest := by
  have hcount : (deltaRows (planeRows width height plane)).length = height := by
    rw [length_deltaRows, planeRows, length_map, length_range]
  have hscan := scanLines_flatMap (length_of_mem_deltaRows (length_of_mem_planeRows hplane)) lines rest
  rwa [hcount] at hscan

theorem scanLines_nil (lines : Nat) : scanLines 0 lines [] = some [] := by
  induction lines with
  | zero => rfl
  | succ lines ih => exact ih

theorem followsFormat_encodeTo (bgrx : Bytes) (width height : Nat) :
    followsFormat (encodeTo bgrx width height) width height = true := by
  unfold encodeTo
  dsimp only
  split
  · next hzero =>
    have hscan : scanLines width (3 * height) [] = some [] := by
      rcases Nat.mul_eq_zero.mp hzero with rfl | rfl
      · exact scanLines_nil _
      · rfl
    rw [followsFormat, hscan]
    rfl
  · have hplane : ∀ channel : Pixel → UInt8,
        ((planePixels bgrx (width * height)).map channel).length = width * height := by
      intro channel
      rw [length_map, length_planePixels]
    have hlast := scanLines_encodePlane (hplane Pixel.blue) 0 []
    rw [append_nil] at hlast
    rw [followsFormat, show 3 * height = height + (height + (height + 0)) by omega,
      scanLines_encodePlane (hplane Pixel.red), scanLines_encodePlane (hplane Pixel.green), hlast]
    rfl

theorem decode_encodeTo_of_empty (h : width * height = 0) (bgrx : Bytes) :
    decode (encodeTo bgrx width height) width height = .ok [] := by
  have hplane : decodePlane width height [] = .ok ([], []) := by
    rw [decodePlane, if_pos (Nat.mul_eq_zero.mp h)]
    rfl
  rw [encodeTo, if_pos h, decode, decodeFrom, bind_ok (readU8_cons _ _), if_neg (by simp),
    bind_ok hplane, bind_ok hplane, bind_ok hplane]
  rfl

theorem decode_encodeTo_of_length {bgrx : Bytes} (hlength : bgrx.length = width * height * 4) :
    decode (encodeTo bgrx width height) width height = .ok ((pixels bgrx).flatMap Pixel.bytes) := by
  by_cases hempty : width * height = 0
  · have hnil : bgrx = [] := eq_nil_of_length_eq_zero (by rw [hlength, hempty])
    rw [decode_encodeTo_of_empty hempty, hnil]
    rfl
  · exact decode_encodeTo (Nat.pos_of_mul_pos_right (Nat.pos_of_ne_zero hempty))
      (Nat.pos_of_mul_pos_left (Nat.pos_of_ne_zero hempty)) hlength

/-- For every tile, compression succeeds, the result follows the format and is read back with the
fourth byte of each pixel zero, and where the arrays have room for the tile both paths agree. -/
theorem planar_round_trip {bgrx : Bytes} {width height : Nat}
    (hlength : bgrx.length = width * height * 4) :
    ∃ data,
      encode bgrx width height = some data ∧
      decode data width height = .ok ((pixels bgrx).flatMap Pixel.bytes) ∧
      followsFormat data width height = true ∧
      (0 < width * height →
         encodeHeap bgrx width height = some data ∧
         (width * height ≤ maxStackPixels → encodeStack bgrx width height = some data)) := by
  refine ⟨encodeTo bgrx width height, encode_eq bgrx width height, decode_encodeTo_of_length hlength,
    followsFormat_encodeTo bgrx width height, fun hpixels =>
      ⟨encodeHeap_eq hpixels bgrx, fun hfits => ?_⟩⟩
  exact encodeStack_eq hpixels hfits bgrx

/-- A row of six equal pixels above one of others. -/
theorem planar_round_trip_twelve :
    ∃ data,
      encode (List.replicate 24 7 ++ List.replicate 24 9) 6 2 = some data ∧
      decode data 6 2 =
        .ok ((pixels (List.replicate 24 7 ++ List.replicate 24 9)).flatMap Pixel.bytes) := by
  obtain ⟨data, hencode, hdecode, -⟩ :=
    planar_round_trip (show (replicate 24 (7 : UInt8) ++ replicate 24 9).length = 6 * 2 * 4 by decide)
  exact ⟨data, hencode, hdecode⟩

end Kmsrdp.Guarantees.PlanarFormat
