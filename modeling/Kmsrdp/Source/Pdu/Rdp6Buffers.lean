import Kmsrdp.Source.Pdu.Rdp6

/-!
# The buffers of RDP6 compression

`encode_to` in `rdpcore-pdu/src/rdp6.rs` with its buffers: arrays of 4096 bytes for tiles of up to
as many pixels, with zeros left behind, and vectors of the size of the tile for larger ones. `none`
stands for an index out of range.
-/
namespace Kmsrdp.Source.Pdu.Rdp6
open Library.Bgrx Library.ByteString Library.Chunks List Nat Option

def maxStackPixels : Nat := 4096

def fillRow (plane : Bytes) (width : Nat) (delta : Bytes) (row : Nat) : Option Bytes := do
  let rows ← sliceGet plane ((row - 1) * width) ((row + 1) * width)
  sliceSet delta (row * width) (deltaRow (rows.drop width) (rows.take width))

def fillDelta (storage : Nat) (plane : Bytes) (width height : Nat) : Option Bytes := do
  let first ← sliceGet plane 0 width
  let delta ← sliceSet (List.replicate storage 0) 0 first
  (List.range' 1 (height - 1)).foldlM (fillRow plane width) delta

def encodePlaneIn (storage : Nat) (plane : Bytes) (width height : Nat) : Option Bytes := do
  let delta ← fillDelta storage plane width height
  let rows ← (List.range height).mapM fun row => sliceGet delta (row * width) ((row + 1) * width)
  return rows.flatMap encodeScanlineRle

def encodePlaneStack (plane : Bytes) (width height : Nat) : Option Bytes :=
  encodePlaneIn maxStackPixels plane width height

def encodePlaneHeap (plane : Bytes) (width height : Nat) : Option Bytes :=
  encodePlaneIn (width * height) plane width height

def planeIn (storage pixelCount : Nat) (bgrx : Bytes) (channel : Pixel → UInt8) : Option Bytes := do
  let plane ← sliceGet (List.replicate storage 0) 0 pixelCount
  sliceSet plane 0 (((pixels bgrx).take pixelCount).map channel)

def encodeIn (storage : Nat) (encodePlane : Bytes → Nat → Nat → Option Bytes) (bgrx : Bytes)
    (width height : Nat) :
    Option Bytes := do
  let r ← planeIn storage (width * height) bgrx Pixel.red
  let g ← planeIn storage (width * height) bgrx Pixel.green
  let b ← planeIn storage (width * height) bgrx Pixel.blue
  let red ← encodePlane r width height
  let green ← encodePlane g width height
  let blue ← encodePlane b width height
  return formatHeaderRleNoAlphaArgb :: (red ++ (green ++ blue))

def encodeStack (bgrx : Bytes) (width height : Nat) : Option Bytes :=
  encodeIn maxStackPixels encodePlaneStack bgrx width height

def encodeHeap (bgrx : Bytes) (width height : Nat) : Option Bytes :=
  encodeIn (width * height) encodePlaneHeap bgrx width height

def encode (bgrx : Bytes) (width height : Nat) : Option Bytes :=
  if width * height = 0 then some [formatHeaderRleNoAlphaArgb]
  else if width * height ≤ maxStackPixels then encodeStack bgrx width height
  else encodeHeap bgrx width height

def rowAt (plane : Bytes) (width row : Nat) : Bytes := (plane.drop (row * width)).take width

def deltaRowAt (plane : Bytes) (width row : Nat) : Bytes :=
  if row = 0 then rowAt plane width 0
    else deltaRow (rowAt plane width row) (rowAt plane width (row - 1))

theorem deltaBelow_rowAt (plane : Bytes) (width first count : Nat) :
    deltaBelow (rowAt plane width first) ((range' (first + 1) count).map (rowAt plane width)) =
      (range' (first + 1) count).map (deltaRowAt plane width) := by
  induction count generalizing first with
  | zero => rfl
  | succ count ih =>
    rw [range'_succ, map_cons, map_cons, deltaBelow, ih, deltaRowAt, if_neg (by omega),
      Nat.add_sub_cancel]

theorem deltaRows_planeRows (plane : Bytes) (width height : Nat) :
    deltaRows (planeRows width height plane) = (range height).map (deltaRowAt plane width) := by
  cases height with
  | zero => rfl
  | succ count =>
    have hrows : planeRows width (count + 1) plane =
        rowAt plane width 0 :: (range' (0 + 1) count).map (rowAt plane width) := by
      rw [planeRows, range_eq_range', range'_succ, map_cons]
      rfl
    rw [hrows, deltaRows, deltaBelow_rowAt, range_eq_range', range'_succ, map_cons]
    rfl

section Fill
variable {plane : Bytes} {width height : Nat} (hplane : plane.length = width * height)
include hplane
variable {row : Nat}

theorem row_le_length (hrow : row < height) : row * width + width ≤ plane.length := by
  have hbelow := mul_le_mul_right width (show row + 1 ≤ height from hrow)
  rw [succ_mul] at hbelow
  rw [hplane, mul_comm width height]
  exact hbelow

theorem length_rowAt (hrow : row < height) : (rowAt plane width row).length = width := by
  have hin := row_le_length hplane hrow
  rw [rowAt, length_take, length_drop]
  omega

theorem length_deltaRowAt (hrow : row < height) : (deltaRowAt plane width row).length = width := by
  unfold deltaRowAt
  split
  · exact length_rowAt hplane (by omega)
  · rw [deltaRow, length_zipWith, length_rowAt hplane hrow, length_rowAt hplane (by omega), min_self]

theorem fillRow_eq (hfirst : 0 < row) (hrow : row < height) (delta : Bytes) :
    fillRow plane width delta row = sliceSet delta (row * width) (deltaRowAt plane width row) := by
  obtain ⟨row, rfl⟩ : ∃ k, row = k + 1 := ⟨row - 1, by omega⟩
  have hin := row_le_length hplane hrow
  have hrows : sliceGet plane (row * width) ((row + 1 + 1) * width) =
      some ((plane.drop (row * width)).take (width + width)) := by
    rw [show (row + 1 + 1) * width =
      row * width + (width + width) by rw [Nat.succ_mul, Nat.succ_mul]; omega]
    exact sliceGet_of_le (by rw [Nat.succ_mul] at hin; omega)
  have habove : ((plane.drop (row * width)).take (width + width)).take width =
      rowAt plane width row := by
    rw [take_take, Nat.min_eq_left (Nat.le_add_right _ _), rowAt]
  have hcurr : ((plane.drop (row * width)).take (width + width)).drop width =
      rowAt plane width (row + 1) := by
    rw [drop_take, Nat.add_sub_cancel, drop_drop, rowAt, Nat.succ_mul]
  rw [fillRow, Nat.add_sub_cancel, hrows, deltaRowAt, if_neg (Nat.succ_ne_zero row),
    Nat.add_sub_cancel, ← hcurr, ← habove]
  rfl

variable {storage : Nat}

theorem foldlM_fillRow
    (hstorage : width * height ≤ storage)
    {count : Nat}
    (hcount : count < height) :
    (range' 1 count).foldlM (fillRow plane width)
      (rowAt plane width 0 ++ replicate (storage - width) 0) =
      some
        (((range (count + 1)).map (deltaRowAt plane width)).flatten ++
           replicate (storage - (count + 1) * width) 0) := by
  induction count with
  | zero => simp [deltaRowAt]
  | succ count ih =>
    have hrows := row_le_length hplane hcount
    have hfront : ((range (count + 1)).map (deltaRowAt plane width)).flatten.length =
        (count + 1) * width :=
      length_flatten_rows fun row hrow => length_deltaRowAt hplane (by omega)
    have hlength := length_deltaRowAt hplane hcount
    rw [range'_1_concat, foldlM_append, ih (by omega), add_comm 1]
    show (foldlM (fillRow plane width) _ [count + 1]) = _
    rw [foldlM_cons, fillRow_eq hplane (by omega) hcount, sliceSet_append_replicate hfront (by omega),
      hlength, Nat.sub_sub, ← Nat.succ_mul, range_succ (n := count + 1), map_append,
      flatten_append]
    simp

theorem fillDelta_eq (hstorage : width * height ≤ storage) (hheight : 0 < height) :
    fillDelta storage plane width height =
      some
        (((range height).map (deltaRowAt plane width)).flatten ++
           replicate (storage - height * width) 0) := by
  have hin := row_le_length hplane hheight
  have hlength := length_rowAt hplane hheight
  have hfirst : sliceGet plane 0 width = some (rowAt plane width 0) := by
    rw [sliceGet_zero_of_le (by omega), rowAt, Nat.zero_mul, drop_zero]
  have hwrite := sliceSet_replicate_zero (show (rowAt plane width 0).length ≤ storage by omega) 0
  rw [hlength] at hwrite
  have hfilled := foldlM_fillRow hplane hstorage (show height - 1 < height by omega)
  rw [Nat.sub_add_cancel (by omega)] at hfilled
  simp only [fillDelta, hfirst, hwrite, bind_eq_bind, bind_some]
  exact hfilled

theorem encodePlaneIn_eq (hstorage : width * height ≤ storage) (hheight : 0 < height) :
    encodePlaneIn storage plane width height = some (encodePlane plane width height) := by
  have hfilled : ((range height).map (deltaRowAt plane width)).flatten.length = height * width :=
    length_flatten_rows fun row hrow => length_deltaRowAt hplane hrow
  have hrows : (range height).mapM (fun row =>
      sliceGet (((range height).map (deltaRowAt plane width)).flatten ++
        replicate (storage - height * width) 0) (row * width) ((row + 1) * width)) =
      some ((range height).map (deltaRowAt plane width)) := by
    refine mapM_eq_some_map fun row hrow => ?_
    have hlt := mem_range.mp hrow
    have hin := row_le_length hplane hlt
    rw [mul_comm] at hplane
    rw [succ_mul, sliceGet_of_le (by rw [length_append, hfilled]; omega),
      slice_flatten_rows (fun row hrow => length_deltaRowAt (by rwa [mul_comm]) hrow) hlt]
  simp only [encodePlaneIn, fillDelta_eq hplane hstorage hheight, bind_eq_bind, bind_some, hrows,
    encodePlane, deltaRows_planeRows]
  rfl

end Fill

theorem planeIn_eq {storage pixelCount : Nat}
    (hstorage : pixelCount ≤ storage)
    (bgrx : Bytes) {channel : Pixel → UInt8}
    (hzero : channel ⟨0, 0, 0⟩ = 0) :
    planeIn storage pixelCount bgrx channel = some ((planePixels bgrx pixelCount).map channel) := by
  have hslice : sliceGet (replicate storage (0 : UInt8)) 0 pixelCount =
      some (replicate pixelCount 0) := by
    rw [sliceGet_zero_of_le (by rwa [length_replicate]), take_replicate, min_eq_left hstorage]
  have hlength : (((pixels bgrx).take pixelCount).map channel).length =
      min pixelCount (pixels bgrx).length := by
    rw [length_map, length_take]
  have hwrite := sliceSet_replicate_zero
    (show (((pixels bgrx).take pixelCount).map channel).length ≤ pixelCount by omega) 0
  rw [hlength] at hwrite
  rw [planeIn, hslice, planePixels, map_append, map_replicate, hzero,
    show pixelCount - (pixels bgrx).length = pixelCount - min pixelCount (pixels bgrx).length by omega]
  exact hwrite

theorem length_planePixels (bgrx : Bytes) (pixelCount : Nat) :
    (planePixels bgrx pixelCount).length = pixelCount := by
  rw [planePixels, length_append, length_take, length_replicate]
  omega

variable {width height : Nat}

theorem encodeIn_eq {storage : Nat}
    (hstorage : width * height ≤ storage)
    (hpixels : 0 < width * height)
    {encodePlaneOf : Bytes → Nat → Nat → Option Bytes}
    (hencode : ∀ plane : Bytes, plane.length = width * height →
        encodePlaneOf plane width height = some (encodePlane plane width height))
    (bgrx : Bytes) :
    encodeIn storage encodePlaneOf bgrx width height = some (encodeTo bgrx width height) := by
  have hlength : ∀ channel : Pixel → UInt8,
      ((planePixels bgrx (width * height)).map channel).length = width * height := by
    intro channel
    rw [length_map, length_planePixels]
  have hred := planeIn_eq hstorage bgrx (show Pixel.red ⟨0, 0, 0⟩ = 0 from rfl)
  have hgreen := planeIn_eq hstorage bgrx (show Pixel.green ⟨0, 0, 0⟩ = 0 from rfl)
  have hblue := planeIn_eq hstorage bgrx (show Pixel.blue ⟨0, 0, 0⟩ = 0 from rfl)
  simp only [encodeIn, hred, hgreen, hblue, hencode _ (hlength _), bind_eq_bind, bind_some, encodeTo,
    if_neg (ne_of_gt hpixels)]
  rfl

theorem encodeStack_eq
    (hpixels : 0 < width * height)
    (hfits : width * height ≤ maxStackPixels)
    (bgrx : Bytes) : encodeStack bgrx width height = some (encodeTo bgrx width height) :=
  encodeIn_eq hfits hpixels
    (fun _ hplane => encodePlaneIn_eq hplane hfits (Nat.pos_of_mul_pos_left hpixels)) bgrx

theorem encodeHeap_eq (hpixels : 0 < width * height) (bgrx : Bytes) :
    encodeHeap bgrx width height = some (encodeTo bgrx width height) :=
  encodeIn_eq (le_refl _) hpixels
    (fun _ hplane => encodePlaneIn_eq hplane (Nat.le_refl _) (Nat.pos_of_mul_pos_left hpixels)) bgrx

theorem encode_eq (bgrx : Bytes) (width height : Nat) :
    encode bgrx width height = some (encodeTo bgrx width height) := by
  unfold encode
  split
  · next hzero => rw [encodeTo, if_pos hzero]
  · next hpixels =>
    split
    · next hfits => exact encodeStack_eq (by omega) hfits bgrx
    · exact encodeHeap_eq (by omega) bgrx

end Kmsrdp.Source.Pdu.Rdp6
