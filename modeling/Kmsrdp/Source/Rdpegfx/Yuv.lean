import Kmsrdp.Library.ByteString
import Kmsrdp.Library.Planes

/-!
# From BGRX32 to planar YUV

Model of the conversions in `rdpcore-rdpegfx/src/encoder.rs`. `for_each_block` is the list of the
calls it makes of its two closures, which only store what they are given. `none` stands for an index
out of range.
-/
namespace Kmsrdp.Source.Rdpegfx
open Library.ByteString Library.Planes

inductive EncoderError where
  | invalidGeometry (message : String)

def checkBgrxGeometry (w h stride : Nat) (pixels : Bytes) (ow oh : Nat) :
    Except EncoderError Unit :=
  let got := pixels.length
  let needed := satAdd (satMul (h - 1) stride) (satMul w 4)
  if ow % 2 ≠ 0 ∨ oh % 2 ≠ 0 then
    .error (.invalidGeometry s!"planar YUV size must be even, got {ow}x{oh}")
  else if ow < w ∨ oh < h then
    .error (.invalidGeometry s!"visible {w}x{h} larger than padded {ow}x{oh}")
  else if got < needed then
    .error (.invalidGeometry s!"pixel buffer too short: have {got}, need at least {needed}")
  else .ok ()

abbrev Sample := Nat × Nat × Nat

def bt601Y : Sample → UInt8
  | (r, g, b) => UInt8.ofNat (min (((66 * r + 129 * g + 25 * b + 128) >>> 8) + 16) 255)

def clampU8 (v : Int) : UInt8 := UInt8.ofNat (min v 255).toNat

def bt601Uv (s0 s1 s2 s3 : Sample) : UInt8 × UInt8 :=
  let r : Int := ((s0.1 + s1.1 + s2.1 + s3.1) / 4 : Nat)
  let g : Int := ((s0.2.1 + s1.2.1 + s2.2.1 + s3.2.1) / 4 : Nat)
  let b : Int := ((s0.2.2 + s1.2.2 + s2.2.2 + s3.2.2) / 4 : Nat)
  (clampU8 (((-38 * r - 74 * g + 112 * b + 128) >>> (8 : Nat)) + 128),
    clampU8 (((112 * r - 94 * g - 18 * b + 128) >>> (8 : Nat)) + 128))

inductive Emit where
  | y (row col : Nat) (value : UInt8)
  | uv (blockRow blockCol : Nat) (u v : UInt8)

def evens (n : Nat) : List Nat := (List.range ((n + 1) / 2)).map (2 * ·)

def sampleAt (row : Bytes) (off : Nat) : Option Sample := do
  let r ← row[off + 2]?
  let g ← row[off + 1]?
  let b ← row[off]?
  some (r.toNat, g.toNat, b.toNat)

def blockCalls (w h row col : Nat) (s0 s1 s2 s3 : Sample) : List Emit :=
  .y row col (bt601Y s0) ::
    ((if col + 1 < w then [.y row (col + 1) (bt601Y s1)] else []) ++
      (if row + 1 < h then
        .y (row + 1) col (bt601Y s2) ::
          (if col + 1 < w then [.y (row + 1) (col + 1) (bt601Y s3)] else [])
      else []) ++
      [.uv (row / 2) (col / 2) (bt601Uv s0 s1 s2 s3).1 (bt601Uv s0 s1 s2 s3).2])

def forEachBlock (w h stride : Nat) (pixels : Bytes) : Option (List Emit) := do
  let rows ← (evens h).mapM fun row => do
    let row2 := if row + 1 < h then row + 1 else row
    let row1Slice ← sliceGet pixels (row * stride) pixels.length
    let row2Slice ← sliceGet pixels (row2 * stride) pixels.length
    let blocks ← (evens w).mapM fun col => do
      let col2 := if col + 1 < w then col + 1 else col
      let s0 ← sampleAt row1Slice (col * 4)
      let s1 ← sampleAt row1Slice (col2 * 4)
      let s2 ← sampleAt row2Slice (col * 4)
      let s3 ← sampleAt row2Slice (col2 * 4)
      some (blockCalls w h row col s0 s1 s2 s3)
    some blocks.flatten
  some rows.flatten

inductive Component where
  | y
  | u
  | v

abbrev Layout := Component → Nat → Nat → Nat × Nat

def Layout.cells (layout : Layout) : Emit → List ((Nat × Nat) × UInt8)
  | .y row col value => [(layout .y row col, value)]
  | .uv blockRow blockCol u v => [(layout .u blockRow blockCol, u), (layout .v blockRow blockCol, v)]

def i420 (ow : Nat) : Layout
  | .y, row, col => (0, row * ow + col)
  | .u, blockRow, blockCol => (1, blockRow * (ow / 2) + blockCol)
  | .v, blockRow, blockCol => (2, blockRow * (ow / 2) + blockCol)

def nv12 (ow : Nat) : Layout
  | .y, row, col => (0, row * ow + col)
  | .u, blockRow, blockCol => (1, (blockRow * (ow / 2) + blockCol) * 2)
  | .v, blockRow, blockCol => (1, (blockRow * (ow / 2) + blockCol) * 2 + 1)

def nv12Pitched (yPitch uvPitch : Nat) : Layout
  | .y, row, col => (0, row * yPitch + col)
  | .u, blockRow, blockCol => (1, blockRow * uvPitch + blockCol * 2)
  | .v, blockRow, blockCol => (1, blockRow * uvPitch + blockCol * 2 + 1)

def paint (layout : Layout) (w h stride : Nat) (pixels : Bytes) (planes : List Bytes) :
    Option (List Bytes) := do
  let calls ← forEachBlock w h stride pixels
  writeAll planes (calls.flatMap layout.cells)

def zeros (count : Nat) : Bytes := List.replicate count 0

def i420Planes (ow oh : Nat) : List Bytes :=
  [zeros (ow * oh), zeros (ow / 2 * (oh / 2)), zeros (ow / 2 * (oh / 2))]

def nv12Planes (ow oh : Nat) : List Bytes :=
  [zeros (ow * oh), zeros (2 * (ow / 2 * (oh / 2)))]

def bgrxToI420 (w h stride : Nat) (pixels : Bytes) (ow oh : Nat) :
    Option (Except EncoderError Bytes) :=
  match checkBgrxGeometry w h stride pixels ow oh with
  | .error e => some (.error e)
  | .ok _ => do
    let planes ← paint (i420 ow) w h stride pixels (i420Planes ow oh)
    some (.ok planes.flatten)

def bgrxToNv12 (w h stride : Nat) (pixels : Bytes) (ow oh : Nat) :
    Option (Except EncoderError Bytes) :=
  match checkBgrxGeometry w h stride pixels ow oh with
  | .error e => some (.error e)
  | .ok _ => do
    let planes ← paint (nv12 ow) w h stride pixels (nv12Planes ow oh)
    some (.ok planes.flatten)

def bgrxToNv12Into (w h stride : Nat) (pixels : Bytes) (ow oh : Nat) (yPlane : Bytes) (yPitch : Nat)
    (uvPlane : Bytes) (uvPitch : Nat) : Option (Except EncoderError (List Bytes)) :=
  match checkBgrxGeometry w h stride pixels ow oh with
  | .error e => some (.error e)
  | .ok _ =>
    let yLen := yPlane.length
    let uvLen := uvPlane.length
    let yNeeded := satAdd (satMul (oh - 1) yPitch) ow
    let uvNeeded := satAdd (satMul (oh / 2 - 1) uvPitch) ow
    if yPitch < ow ∨ uvPitch < ow ∨ yLen < yNeeded ∨ uvLen < uvNeeded then
      some (.error (.invalidGeometry
        s!"NV12 dest too small: y {yLen}/{yNeeded} pitch {yPitch}, uv {uvLen}/{uvNeeded} pitch {uvPitch}"))
    else do
      let planes ← paint (nv12Pitched yPitch uvPitch) w h stride pixels [yPlane, uvPlane]
      some (.ok planes)

end Kmsrdp.Source.Rdpegfx
