import Kmsrdp.Library.Bgrx

/-!
# Bitmap updates

Model of `BitmapUpdate` in `rdpcore-server/src/display.rs`: a rectangle on the screen with a view
into a shared, possibly padded, pixel buffer.
-/
namespace Kmsrdp.Source.Server.Display
open Library.Bgrx Library.ByteString Nat

abbrev U16 := Fin 65536

instance neZeroU16 : NeZero 65536 := ⟨by decide⟩

theorem mod_u16_lt (value : Nat) : value % 65536 < 65536 := mod_lt _ (by decide)

theorem one_lt_u16 : 1 < 65536 := by decide

def checkedAdd (a b : U16) : Option U16 :=
  if h : a.val + b.val < 65536 then some ⟨a.val + b.val, h⟩ else none

structure NonZeroU16 where
  get : Nat
  pos : 0 < get
  lt : get < 65536
  deriving DecidableEq

def NonZeroU16.ofCast (value : Nat) : Option NonZeroU16 :=
  if h : 0 < value % 65536 then some ⟨value % 65536, h, mod_u16_lt value⟩ else none

open NonZeroU16

theorem NonZeroU16.ofCast_of_lt {value : Nat} (hpos : 0 < value) (hlt : value < 65536) :
    ofCast value = some ⟨value, hpos, hlt⟩ := by
  have hmod : value % 65536 = value := mod_eq_of_lt hlt
  simp [ofCast, hmod, hpos]

inductive PixelFormat where
  | bgrX32
  deriving DecidableEq

theorem PixelFormat.eq_bgrX32 (format : PixelFormat) : format = .bgrX32 := by
  cases format
  rfl

structure BitmapUpdate where
  x : U16
  y : U16
  (width height : NonZeroU16)
  format : PixelFormat
  data : Bytes
  stride : Nat
  srcX : U16
  srcY : U16
  stride_pos : 0 < stride
  stride_le : stride ≤ usizeMax
  data_fits : data.length < 2 ^ 63
  deriving DecidableEq

namespace BitmapUpdate

def bytesPerPixel : Nat := 4

theorem bytesPerPixel_pos : 0 < bytesPerPixel := Nat.succ_pos 3

theorem bytesPerPixel_le : bytesPerPixel ≤ usizeMax := by decide

def srcByteOffset (b : BitmapUpdate) (x y : Nat) : Nat :=
  satAdd (satMul (b.srcY.val + y) b.stride) (satMul (b.srcX.val + x) bytesPerPixel)

def sub (b : BitmapUpdate) (x y : U16) (width height : NonZeroU16) : Option BitmapUpdate :=
  if b.width.get < x.val + width.get ∨ b.height.get < y.val + height.get then none
  else do
    let srcX ← checkedAdd b.srcX x
    let srcY ← checkedAdd b.srcY y
    let last := satAdd (satMul (srcY.val + (height.get - 1)) b.stride)
      (satMul (srcX.val + width.get) bytesPerPixel)
    if b.data.length < last then none
    else
      let left ← checkedAdd b.x x
      let top ← checkedAdd b.y y
      some { b with x := left, y := top, width := width, height := height, srcX := srcX, srcY := srcY }

def union (b newer : BitmapUpdate) : BitmapUpdate :=
  if b.stride ≠ newer.stride ∨ b.format ≠ newer.format then newer
  else
    let x := if b.x.val ≤ newer.x.val then b.x else newer.x
    let y := if b.y.val ≤ newer.y.val then b.y else newer.y
    let right := max (b.x.val + b.width.get) (newer.x.val + newer.width.get)
    let bottom := max (b.y.val + b.height.get) (newer.y.val + newer.height.get)
    match NonZeroU16.ofCast (right - x.val), NonZeroU16.ofCast (bottom - y.val) with
    | some width, some height =>
      let last := satAdd (satMul (y.val + (height.get - 1)) newer.stride)
        (satMul (x.val + width.get) bytesPerPixel)
      if newer.data.length < last then newer
      else { newer with x := x, y := y, width := width, height := height, srcX := x, srcY := y }
    | _, _ => newer

def Contains (b : BitmapUpdate) (column row : Nat) : Prop :=
  (b.x.val ≤ column ∧ column < b.x.val + b.width.get) ∧
    (b.y.val ≤ row ∧ row < b.y.val + b.height.get)

instance (b : BitmapUpdate) (column row : Nat) : Decidable (b.Contains column row) :=
  inferInstanceAs (Decidable (_ ∧ _))

end BitmapUpdate

def BitmapUpdate.pixel (b : BitmapUpdate) (column row : Nat) : Pixel :=
  pixelAt b.data ((b.srcY.val + row) * b.stride + (b.srcX.val + column) * 4)

abbrev Screen := Nat → Nat → Pixel

def paint (screen : Screen) (b : BitmapUpdate) : Screen := fun column row =>
  if b.Contains column row then b.pixel (column - b.x.val) (row - b.y.val) else screen column row

variable {column row : Nat}

theorem paint_of_not_contains {b : BitmapUpdate} (h : ¬ b.Contains column row) (screen : Screen) :
    paint screen b column row = screen column row := if_neg h

structure IsFull (width height : NonZeroU16) (b : BitmapUpdate) : Prop where
  x_zero : b.x.val = 0
  y_zero : b.y.val = 0
  srcX_zero : b.srcX.val = 0
  srcY_zero : b.srcY.val = 0
  width_eq : b.width = width
  height_eq : b.height = height
  row_le : width.get * 4 ≤ b.stride
  rows_in : (height.get - 1) * b.stride + width.get * 4 ≤ b.data.length

structure ViewOf (full v : BitmapUpdate) : Prop where
  data_eq : v.data = full.data
  stride_eq : v.stride = full.stride
  srcX_eq : v.srcX.val = v.x.val
  srcY_eq : v.srcY.val = v.y.val
  right_le : v.x.val + v.width.get ≤ full.width.get
  bottom_le : v.y.val + v.height.get ≤ full.height.get

section Views
variable {width height : NonZeroU16} {full v w : BitmapUpdate}

theorem IsFull.viewOf_self (h : IsFull width height full) : ViewOf full full where
  data_eq := rfl
  stride_eq := rfl
  srcX_eq := h.srcX_zero.trans h.x_zero.symm
  srcY_eq := h.srcY_zero.trans h.y_zero.symm
  right_le := by simp [h.x_zero]
  bottom_le := by simp [h.y_zero]

theorem IsFull.contains_iff (h : IsFull width height full) (column row : Nat) :
    full.Contains column row ↔ column < width.get ∧ row < height.get := by
  simp [BitmapUpdate.Contains, h.x_zero, h.y_zero, h.width_eq, h.height_eq]

theorem IsFull.last_le
    (h : IsFull width height full)
    {right bottom : Nat}
    (hright : right ≤ full.width.get)
    (hbottom : bottom < full.height.get) : bottom * full.stride + right * 4 ≤ full.data.length := by
  have hrows := h.rows_in
  rw [h.width_eq] at hright
  rw [h.height_eq] at hbottom
  have hle : bottom * full.stride ≤ (height.get - 1) * full.stride := mul_le_mul_right _ (by omega)
  omega

open BitmapUpdate

theorem IsFull.not_lt_last
    (h : IsFull width height full)
    {right bottom : Nat}
    (hright : right ≤ full.width.get)
    (hbottom : bottom < full.height.get) :
    ¬ full.data.length < satAdd (satMul bottom full.stride) (satMul right bytesPerPixel) := by
  have hlast := h.last_le hright hbottom
  have hfits := full.data_fits
  rw [bytesPerPixel, satAdd_satMul (by unfold usizeMax; omega)]
  omega

theorem ViewOf.paint_eq
    (hfull : IsFull width height full)
    (hv : ViewOf full v)
    (screen : Screen)
    (h : v.Contains column row) : paint screen v column row = full.pixel column row := by
  rw [paint, if_pos h]
  obtain ⟨⟨hx, -⟩, hy, -⟩ := h
  unfold pixel
  rw [hv.data_eq, hv.stride_eq, hv.srcX_eq, hv.srcY_eq, hfull.srcX_zero, hfull.srcY_zero,
    add_sub_of_le hx, add_sub_of_le hy, zero_add, zero_add]

theorem ViewOf.contains_in
    (hfull : IsFull width height full)
    (hv : ViewOf full v)
    (h : v.Contains column row) : column < width.get ∧ row < height.get := by
  have hright := hv.right_le
  have hbottom := hv.bottom_le
  rw [hfull.width_eq] at hright
  rw [hfull.height_eq] at hbottom
  obtain ⟨⟨-, hx⟩, -, hy⟩ := h
  omega

theorem ViewOf.eq
    (hv : ViewOf full v)
    (hw : ViewOf full w)
    (hx : v.x.val = w.x.val)
    (hy : v.y.val = w.y.val)
    (hwidth : v.width = w.width)
    (hheight : v.height = w.height) : v = w := by
  have hsrcX : v.srcX = w.srcX := Fin.ext (by rw [hv.srcX_eq, hw.srcX_eq, hx])
  have hsrcY : v.srcY = w.srcY := Fin.ext (by rw [hv.srcY_eq, hw.srcY_eq, hy])
  have hdata := hv.data_eq.trans hw.data_eq.symm
  have hstride := hv.stride_eq.trans hw.stride_eq.symm
  obtain ⟨vx, vy, _, _, _ | _⟩ := v
  obtain ⟨wx, wy, _, _, _ | _⟩ := w
  obtain rfl : vx = wx := Fin.ext hx
  obtain rfl : vy = wy := Fin.ext hy
  simp_all

/-- A part inside a view is a view of the same frame. -/
theorem ViewOf.sub_eq
    (hfull : IsFull width height full)
    (hv : ViewOf full v)
    (x y : U16) (w h : NonZeroU16)
    (hx : x.val + w.get ≤ v.width.get)
    (hy : y.val + h.get ≤ v.height.get) :
    ∃ u,
      v.sub x y w h = some u ∧
      ViewOf full u ∧
      u.x.val = v.x.val + x.val ∧
      u.y.val = v.y.val + y.val ∧
      u.width = w ∧
      u.height = h := by
  obtain ⟨hdata, hstride, hsrcX, hsrcY, hright, hbottom⟩ := hv
  have hwidth := full.width.lt
  have hheight := full.height.lt
  have hhpos := h.pos
  have hadd : ∀ {a b : U16} (h : a.val + b.val < 65536), checkedAdd a b = some ⟨a.val + b.val, h⟩ :=
    fun h => dif_pos h
  have hsat : ¬ v.data.length < satAdd (satMul (v.srcY.val + y.val + (h.get - 1)) v.stride)
      (satMul (v.srcX.val + x.val + w.get) bytesPerPixel) := by
    rw [hdata, hstride]
    exact hfull.not_lt_last (by omega) (by omega)
  have hleft : v.x.val + x.val < 65536 := by omega
  have htop : v.y.val + y.val < 65536 := by omega
  have hcolumn : v.srcX.val + x.val < 65536 := by omega
  have hrow : v.srcY.val + y.val < 65536 := by omega
  refine ⟨{ v with x := ⟨_, hleft⟩, y := ⟨_, htop⟩, width := w, height := h, srcX := ⟨_, hcolumn⟩,
                   srcY := ⟨_, hrow⟩ }, ?_,
    ⟨hdata, hstride, by simp [hsrcX], by simp [hsrcY], ?_, ?_⟩, rfl, rfl, rfl, rfl⟩
  · rw [sub, if_neg (by omega), hadd hleft, hadd htop, hadd hcolumn, hadd hrow]
    simp only [Option.bind_eq_bind, Option.bind_some, if_neg hsat]
  · dsimp only
    omega
  · dsimp only
    omega

theorem le_of_sub_eq_some {u : BitmapUpdate} {x y : U16} {w h : NonZeroU16}
    (hsub : v.sub x y w h = some u) :
    x.val + w.get ≤ v.width.get ∧ y.val + h.get ≤ v.height.get := by
  by_contra hout
  rw [sub, if_pos (by omega)] at hsub
  cases hsub

theorem ViewOf.of_sub
    (hfull : IsFull width height full)
    (hv : ViewOf full v)
    {u : BitmapUpdate} {x y : U16} {w h : NonZeroU16}
    (hsub : v.sub x y w h = some u) : ViewOf full u := by
  have hin := le_of_sub_eq_some hsub
  obtain ⟨u', hu', hview, -⟩ := hv.sub_eq hfull x y w h hin.1 hin.2
  cases hsub.symm.trans hu'
  exact hview

theorem ViewOf.union {old : BitmapUpdate}
    (hold : IsFull width height old)
    (hfull : IsFull width height full)
    (hstride : old.stride = full.stride)
    (hv : ViewOf old v)
    (hw : ViewOf full w) :
    ViewOf full (v.union w) ∧
    (∀ column row, v.Contains column row ∨ w.Contains column row →
       (v.union w).Contains column row) := by
  have hvw := hv.right_le
  have hww := hw.right_le
  have hvh := hv.bottom_le
  have hwh := hw.bottom_le
  rw [hold.width_eq, ← hfull.width_eq] at hvw
  rw [hold.height_eq, ← hfull.height_eq] at hvh
  have hwidth := full.width.lt
  have hheight := full.height.lt
  have hvpos := v.width.pos
  have hvpos' := v.height.pos
  have hsame : ¬ (v.stride ≠ w.stride ∨ v.format ≠ w.format) := by
    simp [hv.stride_eq, hw.stride_eq, hstride, PixelFormat.eq_bgrX32]
  simp only [BitmapUpdate.union, if_neg hsame]
  -- the corner of the bounding box, and what is known of it as numbers
  generalize hx : (if v.x.val ≤ w.x.val then v.x else w.x) = x
  generalize hy : (if v.y.val ≤ w.y.val then v.y else w.y) = y
  have hxmin : x.val = min v.x.val w.x.val := by
    rw [← hx]
    split <;> omega
  have hymin : y.val = min v.y.val w.y.val := by
    rw [← hy]
    split <;> omega
  generalize hright : max (v.x.val + v.width.get) (w.x.val + w.width.get) = right
  generalize hbottom : max (v.y.val + v.height.get) (w.y.val + w.height.get) = bottom
  have hrightlt : right ≤ full.width.get := by omega
  have hbottomlt : bottom ≤ full.height.get := by omega
  have hcolumns : x.val + (right - x.val) = right := by omega
  have hrows : y.val + (bottom - y.val) = bottom := by omega
  have hw' : ofCast (right - x.val) = some ⟨right - x.val, by omega, by omega⟩ :=
    ofCast_of_lt _ _
  have hh' : ofCast (bottom - y.val) = some ⟨bottom - y.val, by omega, by omega⟩ :=
    ofCast_of_lt _ _
  rw [hw', hh']
  have hsat : ¬ w.data.length < satAdd (satMul (y.val + (bottom - y.val - 1)) w.stride)
      (satMul (x.val + (right - x.val)) bytesPerPixel) := by
    rw [hw.data_eq, hw.stride_eq]
    exact hfull.not_lt_last (by omega) (by omega)
  simp only [if_neg hsat]
  refine ⟨⟨hw.data_eq, hw.stride_eq, rfl, rfl, le_trans (le_of_eq hcolumns) hrightlt,
    le_trans (le_of_eq hrows) hbottomlt⟩, ?_⟩
  intro column row h
  simp only [BitmapUpdate.Contains, hcolumns, hrows] at h ⊢
  omega

end Views
end Kmsrdp.Source.Server.Display
