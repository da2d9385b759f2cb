import Kmsrdp.Library.Bgrx
import Kmsrdp.Library.Chunks
import Kmsrdp.Library.Runs
import Kmsrdp.Source.Pdu.Cursor

/-!
# RDP6 planar compression

Model of `rdpcore-pdu/src/rdp6.rs`. Each row of a colour plane but the first is replaced by its
zigzag-packed difference to the row above, and run-length encoded by itself. `encode_plane_stack`
and `encode_plane_heap` differ in where the rows are stored; one definition stands for both.
`Segments` relates an encoded scanline to its bytes.
-/
namespace Kmsrdp.Source.Pdu.Rdp6
open Library.Bgrx Library.ByteString Library.Chunks Library.Runs List UInt8

def formatHeaderRleNoAlphaArgb : UInt8 := 0x30

structure LiteralBuf where
  buf : Bytes
  short : buf.length < 15

namespace LiteralBuf

def new : LiteralBuf := ⟨[], by decide⟩

def flush (pending : LiteralBuf) : Bytes :=
  if pending.buf.length > 0 then (UInt8.ofNat pending.buf.length <<< 4) :: pending.buf else []

def push (pending : LiteralBuf) (byte : UInt8) : Bytes × LiteralBuf :=
  if h : pending.buf.length + 1 = 15 then
    ((UInt8.ofNat 15 <<< 4) :: (pending.buf ++ [byte]), new)
  else
    ([], ⟨pending.buf ++ [byte], by have := pending.short; simp; omega⟩)

def pushMany (pending : LiteralBuf) (byte : UInt8) : Nat → Bytes × LiteralBuf
  | 0 => ([], pending)
  | count + 1 =>
    let pushed := pending.push byte
    let later := pushed.2.pushMany byte count
    (pushed.1 ++ later.1, later.2)

end LiteralBuf

def continueRun (byte : UInt8) : Nat → Nat → Bytes
  | 0, _ => []
  | fuel + 1, remaining =>
    if remaining = 0 then []
    else if 3 ≤ remaining then
      let chunk := min remaining 15
      UInt8.ofNat chunk :: continueRun byte fuel (remaining - chunk)
    else
      (UInt8.ofNat remaining <<< 4) :: List.replicate remaining byte

def emitRun (byte : UInt8) (count : Nat) : Bytes :=
  let remaining := count - 1
  let firstRun := min remaining 15
  (((1 : UInt8) <<< 4) ||| UInt8.ofNat firstRun) :: byte ::
    continueRun byte (remaining - firstRun) (remaining - firstRun)

def encodeRuns : Nat → LiteralBuf → Bytes → Bytes
  | 0, pending, _ => pending.flush
  | _ + 1, pending, [] => pending.flush
  | fuel + 1, pending, byte :: rest =>
    let count := 1 + (rest.takeWhile (· == byte)).length
    let left := rest.dropWhile (· == byte)
    if count < 4 then
      let pushed := pending.pushMany byte count
      pushed.1 ++ encodeRuns fuel pushed.2 left
    else
      pending.flush ++ (emitRun byte count ++ encodeRuns fuel .new left)

def encodeScanlineRle (scanline : Bytes) : Bytes := encodeRuns scanline.length .new scanline

def readLiterals : Nat → Nat → Decoder Bytes
  | 0, _ => return []
  | _ + 1, 0 => fail "rdp6.rle.scanline" "segment overruns the scanline"
  | count + 1, left + 1 => do
    let byte ← readU8
    let rest ← readLiterals count left
    return byte :: rest

def controlFields (control : UInt8) : Nat × Nat :=
  let upper := (control >>> 4).toNat
  match (control &&& 0x0F).toNat with
  | 1 => (16 + upper, 0)
  | 2 => (32 + upper, 0)
  | n => (n, upper)

/-- The `while` of `decode_scanline_rle`. A control byte other than zero stands for at least
one byte, so `left` rounds are enough. -/
def decodeSegments : Nat → Nat → UInt8 → Decoder Bytes
  | 0, _, _ => return []
  | fuel + 1, left, lastByte =>
    if left = 0 then return []
    else do
      let control ← readU8
      if control = 0 then fail "rdp6.rle.control" "0x00 control byte is invalid"
      else
        let runLength := (controlFields control).1
        let literals ← readLiterals (controlFields control).2 left
        let left := left - literals.length
        let lastByte := literals.getLastD lastByte
        if left < runLength then fail "rdp6.rle.scanline" "segment overruns the scanline"
        else
          let rest ← decodeSegments fuel (left - runLength) lastByte
          return literals ++ (List.replicate runLength lastByte ++ rest)

def decodeScanlineRle (width : Nat) : Decoder Bytes := decodeSegments width width 0

def zigzagEncode (rawDelta : UInt8) : UInt8 :=
  let signed := rawDelta.toInt8.toInt16
  ((signed <<< 1) ^^^ (signed >>> 15)).toUInt16.toUInt8

def zigzagDecode (encoded : UInt8) : UInt8 :=
  let half := (encoded >>> 1).toUInt16.toInt16
  let mask := -(encoded.toUInt16.toInt16 &&& 1)
  (half ^^^ mask).toUInt16.toUInt8

def planeRows (width height : Nat) (plane : Bytes) : List Bytes :=
  (List.range height).map fun row => (plane.drop (row * width)).take width

def deltaRow (curr above : Bytes) : Bytes :=
  List.zipWith (fun curr above => zigzagEncode (curr - above)) curr above

def deltaBelow (above : Bytes) : List Bytes → List Bytes
  | [] => []
  | curr :: rest => deltaRow curr above :: deltaBelow curr rest

def deltaRows : List Bytes → List Bytes
  | [] => []
  | first :: rest => first :: deltaBelow first rest

def encodePlane (plane : Bytes) (width height : Nat) : Bytes :=
  (deltaRows (planeRows width height plane)).flatMap encodeScanlineRle

def restoreRow (delta above : Bytes) : Bytes :=
  List.zipWith (fun delta above => above + zigzagDecode delta) delta above

def restoreBelow (above : Bytes) : List Bytes → List Bytes
  | [] => []
  | delta :: rest => restoreRow delta above :: restoreBelow (restoreRow delta above) rest

def restoreRows : List Bytes → List Bytes
  | [] => []
  | first :: rest => first :: restoreBelow first rest

def decodeScanlines (width : Nat) : Nat → Decoder (List Bytes)
  | 0 => return []
  | height + 1 => do
    let row ← decodeScanlineRle width
    let rest ← decodeScanlines width height
    return row :: rest

def decodePlane (width height : Nat) : Decoder Bytes :=
  if width = 0 ∨ height = 0 then return []
  else do
    let rows ← decodeScanlines width height
    return (restoreRows rows).flatten

def planePixels (bgrx : Bytes) (pixelCount : Nat) : List Pixel :=
  (pixels bgrx).take pixelCount ++
    List.replicate (pixelCount - (pixels bgrx).length) ⟨0, 0, 0⟩

def encodeTo (bgrx : Bytes) (width height : Nat) : Bytes :=
  let pixelCount := width * height
  if pixelCount = 0 then [formatHeaderRleNoAlphaArgb]
  else
    let px := planePixels bgrx pixelCount
    formatHeaderRleNoAlphaArgb :: (encodePlane (px.map Pixel.red) width height ++
      (encodePlane (px.map Pixel.green) width height ++
        encodePlane (px.map Pixel.blue) width height))

def joinPlanes (r g b : Bytes) : List Pixel :=
  (r.zip (g.zip b)).map fun px => ⟨px.2.2, px.2.1, px.1⟩

def decode (data : Bytes) (width height : Nat) : Except DecodeError Bytes :=
  decodeFrom (do
    let header ← readU8
    if header ≠ formatHeaderRleNoAlphaArgb then
      fail "rdp6.format_header" "only RLE + no-alpha + ARGB (0x30) is supported"
    else
      let r ← decodePlane width height
      let g ← decodePlane width height
      let b ← decodePlane width height
      return (joinPlanes r g b).flatMap Pixel.bytes) data

/-- The encoded bytes and the bytes they stand for, when `lastByte` was written before. The
control byte of a segment holds the number of its literals and the length of its run. -/
inductive Segments : UInt8 → Bytes → Bytes → Prop
  | nil (lastByte : UInt8) : Segments lastByte [] []
  | cons {lastByte : UInt8} {encoded decoded : Bytes} (literals : Bytes) (run : Nat)
      (hliterals : literals.length < 16) (hrun : (run = 0 ∧ literals ≠ []) ∨ (3 ≤ run ∧ run < 16))
      (rest : Segments (literals.getLastD lastByte) encoded decoded) :
      Segments lastByte (UInt8.ofNat (literals.length * 16 + run) :: (literals ++ encoded))
        (literals ++ (List.replicate run (literals.getLastD lastByte) ++ decoded))

theorem controlFields_ofNat :
    ∀ literals < 16, ∀ run < 16, run ≠ 1 → run ≠ 2 →
      controlFields (ofNat (literals * 16 + run)) = (run, literals) := by
  decide

theorem readLiterals_append (literals : Bytes) {left : Nat}
    (hleft : literals.length ≤ left)
    (rest : Bytes) :
    readLiterals literals.length left (literals ++ rest) = .ok (literals, rest) := by
  induction literals generalizing left with
  | nil => rfl
  | cons byte literals ih =>
    obtain ⟨left, rfl⟩ : ∃ k, left = k + 1 := ⟨left - 1, by simp at hleft; omega⟩
    rw [length_cons, cons_append, readLiterals, bind_ok (readU8_cons _ _),
      bind_ok (ih (by simpa using hleft))]
    rfl

variable {encoded decoded : Bytes}

theorem decodeSegments_of_segments {lastByte : UInt8}
    (h : Segments lastByte encoded decoded)
    {fuel : Nat}
    (hfuel : decoded.length ≤ fuel)
    (rest : Bytes) :
    decodeSegments fuel decoded.length lastByte (encoded ++ rest) = .ok (decoded, rest) := by
  induction h generalizing fuel with
  | nil lastByte => cases fuel <;> rfl
  | @cons lastByte encoded decoded literals run hliterals hrun _ ih =>
    have hcontrol := controlFields_ofNat literals.length hliterals run (by omega) (by omega) (by omega)
    have hpos : 0 < literals.length + run := by
      rcases hrun with ⟨-, hne⟩ | hrun
      · exact Nat.add_pos_left (length_pos_iff.mpr hne) _
      · omega
    have hne : ¬ ofNat (literals.length * 16 + run) = 0 := by
      intro hzero
      have := congrArg toNat hzero
      rw [UInt8.toNat_ofNat', UInt8.toNat_zero] at this
      omega
    simp only [length_append, length_replicate] at hfuel ⊢
    obtain ⟨fuel, rfl⟩ : ∃ k, fuel = k + 1 := ⟨fuel - 1, by omega⟩
    rw [decodeSegments, if_neg (by omega), cons_append, bind_ok (readU8_cons _ _), if_neg hne,
      hcontrol, append_assoc]
    rw [bind_ok (readLiterals_append literals (by omega) _), Nat.add_sub_cancel_left,
      if_neg (by omega), Nat.add_sub_cancel_left, bind_ok (ih (by omega))]
    rfl

theorem ofNat_shift_four : ∀ n < 16, ofNat n <<< 4 = ofNat (n * 16 + 0) := by decide

theorem one_shift_or : ∀ n < 16, ((1 : UInt8) <<< 4) ||| ofNat n = ofNat (1 * 16 + n) := by
  decide

theorem replicate_split (byte : UInt8) {n count : Nat} (h : n ≤ count) :
    replicate count byte = replicate n byte ++ replicate (count - n) byte := by
  rw [← replicate_add, Nat.add_sub_cancel' h]

section Encoder

-- what is written after the part under consideration does not continue its run
variable {encoded decoded : Bytes} (later : ∀ lastByte, Segments lastByte encoded decoded)
include later

theorem segments_literals {literals : Bytes}
    (hne : literals ≠ [])
    (hshort : literals.length < 16)
    (lastByte : UInt8) :
    Segments lastByte ((ofNat literals.length <<< 4) :: (literals ++ encoded))
      (literals ++ decoded) := by
  rw [ofNat_shift_four _ hshort]
  exact .cons literals 0 hshort (.inl ⟨rfl, hne⟩) (later _)

theorem segments_flush (pending : LiteralBuf) (lastByte : UInt8) :
    Segments lastByte (pending.flush ++ encoded) (pending.buf ++ decoded) := by
  unfold LiteralBuf.flush
  split
  · next hsome =>
    have hshort := pending.short
    exact segments_literals later (length_pos_iff.mp hsome) (by omega) lastByte
  · next hnone =>
    have hempty : pending.buf = [] := eq_nil_of_length_eq_zero (by omega)
    rw [hempty]
    exact later lastByte

theorem segments_continueRun (byte : UInt8) {fuel remaining : Nat} (hfuel : remaining ≤ fuel) :
    Segments byte (continueRun byte fuel remaining ++ encoded)
      (replicate remaining byte ++ decoded) := by
  induction fuel generalizing remaining with
  | zero =>
    obtain rfl : remaining = 0 := by omega
    exact later byte
  | succ fuel ih =>
    unfold continueRun
    split
    · next hnone =>
      subst hnone
      exact later byte
    · split
      · next hlong =>
        have hrest : Segments byte
            (continueRun byte fuel (remaining - min remaining 15) ++ encoded) _ :=
          ih (by omega)
        have hsegment := Segments.cons [] (min remaining 15) (by decide) (.inr (by omega)) hrest
        rw [replicate_split byte (min_le_left remaining 15), append_assoc]
        rw [length_nil, Nat.zero_mul, Nat.zero_add] at hsegment
        exact hsegment
      · next hpos hshort =>
        have hne : replicate remaining byte ≠ [] := by simpa using hpos
        have hliterals := segments_literals later hne (by simp; omega) byte
        simpa using hliterals

theorem segments_emitRun (byte : UInt8) {count : Nat} (hcount : 4 ≤ count) (lastByte : UInt8) :
    Segments lastByte (emitRun byte count ++ encoded) (replicate count byte ++ decoded) := by
  have hrest := segments_continueRun later byte (le_refl (count - 1 - min (count - 1) 15))
  have hsegment : Segments lastByte _ _ := Segments.cons [byte] (min (count - 1) 15)
    (by rw [length_singleton]; omega) (.inr (by omega)) hrest
  rw [emitRun, one_shift_or _ (by omega), replicate_split byte (show 1 ≤ count by omega),
    replicate_split byte (min_le_left (count - 1) 15), append_assoc, append_assoc]
  exact hsegment

end Encoder

theorem segments_push {pending : LiteralBuf} {byte : UInt8}
    (later : ∀ lastByte, Segments lastByte encoded ((pending.push byte).2.buf ++ decoded))
    (lastByte : UInt8) :
    Segments lastByte ((pending.push byte).1 ++ encoded) (pending.buf ++ byte :: decoded) := by
  unfold LiteralBuf.push at later ⊢
  split
  · next hfull =>
    rw [dif_pos hfull] at later
    have hlength : (pending.buf ++ [byte]).length = 15 := by simpa using hfull
    have hne : pending.buf ++ [byte] ≠ [] := by simp
    have hsegment := segments_literals later hne (by omega) lastByte
    rw [hlength] at hsegment
    simpa [LiteralBuf.new] using hsegment
  · next hroom =>
    rw [dif_neg hroom] at later
    simpa using later lastByte

theorem segments_pushMany {byte : UInt8} {count : Nat} {pending : LiteralBuf}
    (later : ∀ lastByte, Segments lastByte encoded ((pending.pushMany byte count).2.buf ++ decoded))
    (lastByte : UInt8) :
    Segments lastByte ((pending.pushMany byte count).1 ++ encoded)
      (pending.buf ++ (replicate count byte ++ decoded)) := by
  induction count generalizing pending lastByte with
  | zero => exact later lastByte
  | succ count ih =>
    rw [LiteralBuf.pushMany] at later ⊢
    rw [append_assoc, replicate_succ, cons_append]
    exact segments_push (fun lastByte => ih later lastByte) lastByte

theorem segments_encodeRuns {fuel : Nat} {scanline : Bytes}
    (hfuel : scanline.length ≤ fuel)
    (pending : LiteralBuf) (lastByte : UInt8) :
    Segments lastByte (encodeRuns fuel pending scanline) (pending.buf ++ scanline) := by
  induction fuel generalizing scanline pending lastByte with
  | zero =>
    obtain rfl : scanline = [] := eq_nil_of_length_eq_zero (by omega)
    simpa [encodeRuns] using segments_flush .nil pending lastByte
  | succ fuel ih =>
    cases scanline with
    | nil => simpa [encodeRuns] using segments_flush .nil pending lastByte
    | cons byte rest =>
      have hleft : (rest.dropWhile (· == byte)).length ≤ fuel := by
        have := (dropWhile_sublist (l := rest) (· == byte)).length_le
        rw [length_cons] at hfuel
        omega
      rw [encodeRuns, cons_eq_run_append byte rest]
      split
      · exact segments_pushMany (fun lastByte => ih hleft _ lastByte) lastByte
      · next hlong =>
        refine segments_flush (fun lastByte => ?_) pending lastByte
        exact segments_emitRun (fun lastByte => ih hleft .new lastByte) byte (by omega) lastByte

variable {width : Nat}

theorem decodeScanlineRle_encodeScanlineRle {scanline : Bytes}
    (hwidth : scanline.length = width)
    (rest : Bytes) :
    decodeScanlineRle width (encodeScanlineRle scanline ++ rest) = .ok (scanline, rest) := by
  subst hwidth
  exact decodeSegments_of_segments (segments_encodeRuns (le_refl _) .new 0) (le_refl _) rest

theorem zigzagDecode_zigzagEncode (rawDelta : UInt8) :
    zigzagDecode (zigzagEncode rawDelta) = rawDelta := by
  have hall : ∀ n < 256, zigzagDecode (zigzagEncode (ofNat n)) = ofNat n := by
    decide +kernel
  simpa using hall rawDelta.toNat rawDelta.toNat_lt

variable {above : Bytes}

theorem restoreRow_deltaRow {curr : Bytes} (h : curr.length = above.length) :
    restoreRow (deltaRow curr above) above = curr := by
  induction curr generalizing above with
  | nil => rfl
  | cons c curr ih =>
    cases above with
    | nil => cases h
    | cons a above =>
      have hrest := ih (Nat.succ.inj h)
      unfold restoreRow deltaRow at hrest ⊢
      rw [zipWith_cons_cons, zipWith_cons_cons, hrest, zigzagDecode_zigzagEncode,
        UInt8.add_comm, UInt8.sub_add_cancel]

variable {rows : List Bytes}

theorem restoreBelow_deltaBelow
    (habove : above.length = width)
    (hrows : ∀ row ∈ rows, row.length = width) :
    restoreBelow above (deltaBelow above rows) = rows := by
  induction rows generalizing above with
  | nil => rfl
  | cons curr rest ih =>
    have hcurr := hrows curr mem_cons_self
    rw [deltaBelow, restoreBelow, restoreRow_deltaRow (hcurr.trans habove.symm),
      ih hcurr fun row hrow => hrows row (mem_cons_of_mem _ hrow)]

theorem restoreRows_deltaRows (hrows : ∀ row ∈ rows, row.length = width) :
    restoreRows (deltaRows rows) = rows := by
  cases rows with
  | nil => rfl
  | cons first rest =>
    rw [deltaRows, restoreRows, restoreBelow_deltaBelow (hrows first mem_cons_self)
      fun row hrow => hrows row (mem_cons_of_mem _ hrow)]

theorem length_of_mem_deltaBelow
    (habove : above.length = width)
    (hrows : ∀ row ∈ rows, row.length = width) :
    ∀ row ∈ deltaBelow above rows, row.length = width := by
  induction rows generalizing above with
  | nil =>
    intro row hrow
    cases hrow
  | cons curr rest ih =>
    have hcurr := hrows curr mem_cons_self
    intro row hrow
    rcases mem_cons.mp hrow with rfl | hrow
    · rw [deltaRow, length_zipWith, hcurr, habove, min_self]
    · exact ih hcurr (fun row hrow => hrows row (mem_cons_of_mem _ hrow)) row hrow

theorem decodeScanlines_flatMap (hrows : ∀ row ∈ rows, row.length = width) (rest : Bytes) :
    decodeScanlines width rows.length (rows.flatMap encodeScanlineRle ++ rest) =
      .ok (rows, rest) := by
  induction rows with
  | nil => rfl
  | cons row rows ih =>
    rw [length_cons, decodeScanlines, flatMap_cons, append_assoc,
      bind_ok (decodeScanlineRle_encodeScanlineRle (hrows row mem_cons_self) _),
      bind_ok (ih fun row hrow => hrows row (mem_cons_of_mem _ hrow))]
    rfl

variable {height : Nat}

theorem length_of_mem_planeRows {plane : Bytes} (hplane : plane.length = width * height) :
    ∀ row ∈ planeRows width height plane, row.length = width := by
  intro row hrow
  obtain ⟨i, hi, rfl⟩ := mem_map.mp hrow
  have hbelow : (i + 1) * width ≤ height * width :=
    Nat.mul_le_mul_right width (mem_range.mp hi)
  rw [Nat.succ_mul] at hbelow
  rw [length_take, length_drop, hplane, mul_comm width height]
  omega

theorem length_of_mem_deltaRows (hrows : ∀ row ∈ rows, row.length = width) :
    ∀ row ∈ deltaRows rows, row.length = width := by
  cases rows with
  | nil => exact hrows
  | cons first rest =>
    have hfirst := hrows first mem_cons_self
    intro row hrow
    rcases mem_cons.mp hrow with rfl | hrow
    · exact hfirst
    · exact length_of_mem_deltaBelow hfirst
        (fun row hrow => hrows row (mem_cons_of_mem _ hrow)) row hrow

theorem length_deltaBelow (above : Bytes) (rows : List Bytes) :
    (deltaBelow above rows).length = rows.length := by
  induction rows generalizing above with
  | nil => rfl
  | cons curr rest ih => rw [deltaBelow, length_cons, length_cons, ih]

theorem length_deltaRows (rows : List Bytes) : (deltaRows rows).length = rows.length := by
  cases rows with
  | nil => rfl
  | cons first rest => rw [deltaRows, length_cons, length_cons, length_deltaBelow]

theorem decodePlane_encodePlane {plane : Bytes}
    (hwidth : 0 < width)
    (hheight : 0 < height)
    (hplane : plane.length = width * height)
    (rest : Bytes) :
    decodePlane width height (encodePlane plane width height ++ rest) = .ok (plane, rest) := by
  have hrows := length_of_mem_planeRows hplane
  have hcount : (deltaRows (planeRows width height plane)).length = height := by
    rw [length_deltaRows, planeRows, length_map, length_range]
  have hdecode := decodeScanlines_flatMap (length_of_mem_deltaRows hrows) rest
  rw [hcount] at hdecode
  have hflatten : (planeRows width height plane).flatten = plane := by
    rw [planeRows, flatten_slices, mul_comm, ← hplane, take_length]
  rw [decodePlane, if_neg (by omega), encodePlane, bind_ok hdecode,
    restoreRows_deltaRows hrows, hflatten]
  rfl

theorem joinPlanes_map (px : List Pixel) :
    joinPlanes (px.map Pixel.red) (px.map Pixel.green) (px.map Pixel.blue) = px := by
  induction px with
  | nil => rfl
  | cons p rest ih => exact congrArg (p :: ·) ih

/-- The decoder gives the pixels back. -/
theorem decode_encodeTo {bgrx : Bytes}
    (hwidth : 0 < width)
    (hheight : 0 < height)
    (hlength : bgrx.length = width * height * 4) :
    decode (encodeTo bgrx width height) width height = .ok ((pixels bgrx).flatMap Pixel.bytes) := by
  have hpixels : planePixels bgrx (width * height) = pixels bgrx := by
    rw [planePixels, length_pixels hlength, Nat.sub_self, replicate_zero, append_nil,
      take_of_length_le (le_of_eq (length_pixels hlength))]
  have hplane : ∀ (channel : Pixel → UInt8) (rest : Bytes), decodePlane width height
      (encodePlane ((pixels bgrx).map channel) width height ++ rest) =
      .ok ((pixels bgrx).map channel, rest) := by
    intro channel rest
    exact decodePlane_encodePlane hwidth hheight (by rw [length_map, length_pixels hlength]) rest
  have hlast := hplane Pixel.blue []
  rw [append_nil] at hlast
  have hcount : ¬ width * height = 0 := Nat.ne_of_gt (Nat.mul_pos hwidth hheight)
  simp only [encodeTo, if_neg hcount, hpixels]
  rw [decode, decodeFrom, bind_ok (readU8_cons _ _), if_neg (by simp), bind_ok (hplane _ _),
    bind_ok (hplane _ _), bind_ok hlast, joinPlanes_map]
  rfl

end Kmsrdp.Source.Pdu.Rdp6
