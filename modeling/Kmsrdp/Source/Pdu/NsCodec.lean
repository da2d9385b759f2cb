import Kmsrdp.Library.Runs
import Kmsrdp.Source.Pdu.Cursor

/-!
# NSCodec frames

Model of `rdpcore-pdu/src/nscodec.rs` and of `encode_set_surface_bits` in `surface_commands.rs`. The
planes are run-length encoded but for their last four bytes.
-/
namespace Kmsrdp.Source.Pdu.NsCodec
open Library.ByteString Library.Runs List

def rleLongEscape : UInt8 := 0xFF
def u32Max : Nat := 4294967295

def signedByte (value : Int) : UInt8 := UInt8.ofNat ((max (-128) (min value 127)) % 256).toNat

def rgbToYcocg (r g b : UInt8) (cll : Nat) : UInt8 × UInt8 × UInt8 :=
  let ri : Int := r.toNat
  let gi : Int := g.toNat
  let bi : Int := b.toNat
  let y := UInt8.ofNat
    (max 0 (min (ri >>> (2 : Nat) + gi >>> (1 : Nat) + bi >>> (2 : Nat)) 255) : Int).toNat
  let coRaw := (ri - bi) >>> cll
  let cgRaw := (-(ri >>> (1 : Nat)) + gi - bi >>> (1 : Nat)) >>> cll
  (y, signedByte coRaw, signedByte cgRaw)

/-- The pixels of the frame in luminance and chroma, the lowest row first. The reads are in
range because `encode` has compared the length of the buffer. -/
def ycocgPixels (data : Bytes) (width height stride cll : Nat) : List (UInt8 × UInt8 × UInt8) :=
  (List.range height).reverse.flatMap fun row =>
    (List.range width).map fun col =>
      let off := row * stride + col * 4
      rgbToYcocg (data.getD (off + 2) 0) (data.getD (off + 1) 0) (data.getD off 0) cll

def extendRun (v : UInt8) : Nat → Bytes → Nat
  | run, [] => run
  | run, byte :: rest =>
    if byte == v then
      if run + 1 > u32Max then run + 1 else extendRun v (run + 1) rest
    else run

def runBytes (v : UInt8) (run : Nat) : Bytes :=
  if run = 1 then [v]
  else if run ≤ 255 then [v, v, UInt8.ofNat (run - 2)]
  else v :: v :: rleLongEscape :: u32Le (min run u32Max)

def encodeRuns : Nat → Bytes → Bytes
  | 0, _ => []
  | _ + 1, [] => []
  | fuel + 1, v :: rest =>
    let run := extendRun v 1 rest
    runBytes v run ++ encodeRuns fuel ((v :: rest).drop run)

def rleEncode (plane : Bytes) : Bytes :=
  let n := plane.length
  if n ≤ 4 then plane
  else
    let bodyEnd := n - 4
    encodeRuns bodyEnd (plane.take bodyEnd) ++ plane.drop bodyEnd

def rleEncodeConst (val : UInt8) (n : Nat) : Bytes :=
  if n ≤ 4 then List.replicate n val
  else runBytes val (n - 4) ++ List.replicate 4 val

def requiredLen (width height stride : Nat) : Option Nat :=
  let len := (height - 1) * stride + width * 4
  if len ≤ usizeMax then some len else none

def planeLen (rle : Bytes) : Nat := min rle.length u32Max

def frame (colorLossLevel : Nat) (yRle coRle cgRle aRle : Bytes) : Bytes :=
  u32Le (planeLen yRle) ++ (u32Le (planeLen coRle) ++ (u32Le (planeLen cgRle) ++
    (u32Le (planeLen aRle) ++ ([UInt8.ofNat colorLossLevel, 0, 0, 0] ++
      (yRle ++ (coRle ++ (cgRle ++ aRle)))))))

def encode (data : Bytes) (width height stride colorLossLevel : Nat) : Bytes :=
  let colorLossLevel := max 1 (min colorLossLevel 7)
  if width = 0 ∨ height = 0 then []
  else
    match requiredLen width height stride with
    | none => []
    | some len =>
      if data.length < len then []
      else
        let pixels := ycocgPixels data width height stride colorLossLevel
        frame colorLossLevel (rleEncode (pixels.map fun p => p.1))
          (rleEncode (pixels.map fun p => p.2.1)) (rleEncode (pixels.map fun p => p.2.2))
          (rleEncodeConst 0xFF (width * height))

def cmdSetSurfaceBits : Nat := 0x01

def encodeSetSurfaceBits (left top width height : Nat) (codecId : UInt8) (data : Bytes) : Bytes :=
  u16Le cmdSetSurfaceBits ++ (u16Le left ++ (u16Le top ++ (u16Le (min (left + width) 65535) ++
    (u16Le (min (top + height) 65535) ++ ([32, 0, 0, codecId] ++ (u16Le width ++ (u16Le height ++
      (u32Le data.length ++ data))))))))

def runSize (run : Nat) : Nat := if run = 1 then 1 else if run ≤ 255 then 3 else 7

def planeSize (plane : Bytes) : Nat :=
  if plane.length ≤ 4 then plane.length
  else ((runs (plane.take (plane.length - 4))).map fun run => runSize run.length).sum + 4

theorem length_runBytes (v : UInt8) (run : Nat) : (runBytes v run).length = runSize run := by
  unfold runBytes runSize
  split
  · rfl
  · split
    · rfl
    · simp only [length_cons, length_u32Le]

variable {bytes : Bytes}

theorem extendRun_eq (v : UInt8) {run : Nat} (h : run + bytes.length ≤ u32Max) :
    extendRun v run bytes = run + (bytes.takeWhile (· == v)).length := by
  induction bytes generalizing run with
  | nil => rfl
  | cons byte rest ih =>
    rw [length_cons] at h
    unfold extendRun
    by_cases hbyte : (byte == v) = true
    · rw [if_pos hbyte, if_neg (by omega), ih (by omega), takeWhile_cons, if_pos hbyte, length_cons]
      omega
    · rw [if_neg hbyte, takeWhile_cons, if_neg hbyte]
      rfl

theorem encodeRuns_cons (fuel : Nat) (v : UInt8) {rest : Bytes} (hfits : 1 + rest.length ≤ u32Max) :
    encodeRuns (fuel + 1) (v :: rest) =
      runBytes v (1 + (rest.takeWhile (· == v)).length) ++
        encodeRuns fuel (rest.dropWhile (· == v)) := by
  have hleft : (v :: rest).drop (1 + (rest.takeWhile (· == v)).length) = rest.dropWhile (· == v) := by
    rw [cons_eq_run_append v rest]
    exact drop_left' length_replicate
  rw [encodeRuns, extendRun_eq v hfits, hleft]

theorem length_encodeRuns {fuel : Nat}
    (hfuel : bytes.length ≤ fuel)
    (hfits : bytes.length ≤ u32Max) :
    (encodeRuns fuel bytes).length = ((runs bytes).map fun run => runSize run.length).sum := by
  induction fuel generalizing bytes with
  | zero =>
    obtain rfl : bytes = [] := eq_nil_of_length_eq_zero (by omega)
    rfl
  | succ fuel ih =>
    cases bytes with
    | nil => rfl
    | cons v rest =>
      rw [length_cons] at hfuel hfits
      have hshort := (dropWhile_sublist (l := rest) (· == v)).length_le
      rw [encodeRuns_cons fuel v (by omega), length_append, ih (by omega) (by omega),
        length_runBytes, runs_cons, map_cons, sum_cons, length_replicate]

def runCode : Bytes → Bytes
  | [] => []
  | v :: rest => runBytes v (rest.length + 1)

theorem runCode_replicate (v : UInt8) (n : Nat) :
    runCode (replicate (n + 1) v) = runBytes v (n + 1) := by
  rw [replicate_succ, runCode, length_replicate]

def code (bytes : Bytes) : Bytes := (runs bytes).flatMap runCode

@[simp] theorem code_nil : code [] = [] := rfl

theorem code_run_append {v : UInt8} {rest : Bytes} (h : rest.head? ≠ some v) (n : Nat) :
    code (replicate (n + 1) v ++ rest) = runBytes v (n + 1) ++ code rest := by
  rw [code, runs_replicate_append h (Nat.succ_ne_zero n), flatMap_cons, runCode_replicate]
  rfl

theorem encodeRuns_eq_code {fuel : Nat}
    (hfuel : bytes.length ≤ fuel)
    (hfits : bytes.length ≤ u32Max) : encodeRuns fuel bytes = code bytes := by
  induction fuel generalizing bytes with
  | zero =>
    obtain rfl : bytes = [] := eq_nil_of_length_eq_zero (by omega)
    rfl
  | succ fuel ih =>
    cases bytes with
    | nil => rfl
    | cons v rest =>
      rw [length_cons] at hfuel hfits
      have hshort := (dropWhile_sublist (l := rest) (· == v)).length_le
      rw [encodeRuns_cons fuel v (by omega), ih (by omega) (by omega), cons_eq_run_append v rest,
        Nat.add_comm 1, code_run_append (head?_dropWhile_ne v rest)]

theorem length_rleEncode {plane : Bytes} (hfits : plane.length ≤ u32Max) :
    (rleEncode plane).length = planeSize plane := by
  unfold rleEncode planeSize
  dsimp only
  split
  · rfl
  · have hbody : (plane.take (plane.length - 4)).length = plane.length - 4 := by
      rw [length_take]
      omega
    rw [length_append, length_encodeRuns (by omega) (by omega), length_drop]
    omega

theorem length_rleEncodeConst (val : UInt8) (n : Nat) :
    (rleEncodeConst val n).length = planeSize (replicate n val) := by
  unfold rleEncodeConst planeSize
  rw [length_replicate]
  split
  · rw [length_replicate]
  · rw [take_replicate, Nat.min_eq_left (by omega), runs_replicate val (by omega),
      length_append, length_runBytes, length_replicate]
    simp

theorem length_frame (colorLossLevel : Nat) (yRle coRle cgRle aRle : Bytes) :
    (frame colorLossLevel yRle coRle cgRle aRle).length =
      20 + (yRle.length + coRle.length + cgRle.length + aRle.length) := by
  simp only [frame, length_append, length_u32Le, length_cons, length_nil]
  omega

theorem length_ycocgPixels (data : Bytes) (width height stride cll : Nat) :
    (ycocgPixels data width height stride cll).length = height * width := by
  unfold ycocgPixels
  rw [length_flatMap]
  simp

def planesSize (data : Bytes) (width height stride colorLossLevel : Nat) : Nat :=
  let pixels := ycocgPixels data width height stride (max 1 (min colorLossLevel 7))
  planeSize (pixels.map fun p => p.1) + planeSize (pixels.map fun p => p.2.1) +
    planeSize (pixels.map fun p => p.2.2) + planeSize (List.replicate (width * height) 0xFF)

theorem length_encode {data : Bytes} {width height stride : Nat}
    (hwidth : 0 < width)
    (hheight : 0 < height)
    (hpixels : width * height ≤ u32Max)
    (hdata : data.length ≤ usizeMax)
    (hrows : (height - 1) * stride + width * 4 ≤ data.length)
    (colorLossLevel : Nat) :
    (encode data width height stride colorLossLevel).length =
      20 + planesSize data width height stride colorLossLevel := by
  have hlength := length_ycocgPixels data width height stride (max 1 (min colorLossLevel 7))
  rw [Nat.mul_comm] at hlength
  rw [encode, if_neg (by omega), requiredLen, if_pos (by omega)]
  dsimp only
  rw [if_neg (by omega), length_frame, length_rleEncode (by rw [length_map]; omega),
    length_rleEncode (by rw [length_map]; omega), length_rleEncode (by rw [length_map]; omega),
    length_rleEncodeConst]
  rfl

theorem encode_eq_nil {data : Bytes} {width height stride : Nat}
    (hrows : data.length < (height - 1) * stride + width * 4)
    (colorLossLevel : Nat) : encode data width height stride colorLossLevel = [] := by
  unfold encode requiredLen
  dsimp only
  split
  · rfl
  · split
    · rfl
    · next len hlen =>
      obtain rfl : (height - 1) * stride + width * 4 = len := by
        split at hlen
        · exact Option.some.inj hlen
        · cases hlen
      rw [if_pos hrows]

theorem length_encodeSetSurfaceBits (left top width height : Nat) (codecId : UInt8) (data : Bytes) :
    (encodeSetSurfaceBits left top width height codecId data).length = 22 + data.length := by
  simp only [encodeSetSurfaceBits, length_append, length_u16Le, length_u32Le, length_cons, length_nil]
  omega

end Kmsrdp.Source.Pdu.NsCodec
