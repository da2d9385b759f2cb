import Kmsrdp.Library.Grid
import Kmsrdp.Source.Rdpegfx.Yuv

/-!
# The three YUV conversions

Every visible pixel has its luma and every block of two by two its averaged chroma; a block at an
odd edge repeats the last column or row.
-/
namespace Kmsrdp.Guarantees.YuvPlanes
open Library.ByteString Library.Grid Library.Planes Source.Rdpegfx List

def pixel (stride : Nat) (pixels : Bytes) (row col : Nat) : Sample :=
  let at' := fun k => (pixels.getD (row * stride + col * 4 + k) 0).toNat
  (at' 2, at' 1, at' 0)

def chroma (w h stride : Nat) (pixels : Bytes) (blockRow blockCol : Nat) : UInt8 × UInt8 :=
  let row2 := min (2 * blockRow + 1) (h - 1)
  let col2 := min (2 * blockCol + 1) (w - 1)
  bt601Uv (pixel stride pixels (2 * blockRow) (2 * blockCol))
    (pixel stride pixels (2 * blockRow) col2)
    (pixel stride pixels row2 (2 * blockCol)) (pixel stride pixels row2 col2)

def component (w h stride : Nat) (pixels : Bytes) : Component → Nat → Nat → UInt8
  | .y, row, col => bt601Y (pixel stride pixels row col)
  | .u, blockRow, blockCol => (chroma w h stride pixels blockRow blockCol).1
  | .v, blockRow, blockCol => (chroma w h stride pixels blockRow blockCol).2

/-- The pixels of the frame, and the blocks that begin in it. -/
def Visible (w h : Nat) : Component → Nat → Nat → Prop
  | .y, row, col => row < h ∧ col < w
  | _, blockRow, blockCol => 2 * blockRow < h ∧ 2 * blockCol < w

/-- Every visible component is in its place, and nothing else has changed. -/
structure Painted (layout : Layout) (w h stride : Nat) (pixels : Bytes)
    (before after : List Bytes) :
    Prop where
  lengths : after.map List.length = before.map List.length
  visible : ∀ part i j, Visible w h part i j →
    valueAt after (layout part i j) = some (component w h stride pixels part i j)
  outside : ∀ place, (∀ part i j, Visible w h part i j → layout part i j ≠ place) →
    valueAt after place = valueAt before place

/-- What the last byte of the last row being there gives. -/
def Readable (w h stride : Nat) (pixels : Bytes) : Prop :=
  (h - 1) * stride + w * 4 ≤ pixels.length

section Calls
variable {w h stride : Nat} {pixels : Bytes}

theorem readable_of_check {ow oh : Nat} {u : Unit}
    (hpixels : pixels.length < usizeMax)
    (hcheck : checkBgrxGeometry w h stride pixels ow oh = .ok u) :
    ow % 2 = 0 ∧ oh % 2 = 0 ∧ w ≤ ow ∧ h ≤ oh ∧ Readable w h stride pixels := by
  simp only [checkBgrxGeometry] at hcheck
  split_ifs at hcheck with heven hvisible hlong
  unfold satAdd satMul at hlong
  unfold Readable
  omega

theorem row_le (hread : Readable w h stride pixels) {row : Nat} (hrow : row < h) :
    row * stride + w * 4 ≤ pixels.length :=
  le_trans (Nat.add_le_add_right (Nat.mul_le_mul_right stride (by omega)) _) hread

theorem sampleAt_drop
    (hread : Readable w h stride pixels)
    {row col : Nat}
    (hrow : row < h)
    (hcol : col < w) :
    sampleAt (pixels.drop (row * stride)) (col * 4) = some (pixel stride pixels row col) := by
  have hbound := row_le hread hrow
  have hat : ∀ k, k < 4 → (pixels.drop (row * stride))[col * 4 + k]? =
      some (pixels.getD (row * stride + col * 4 + k) 0) := by
    intro k hk
    rw [getElem?_drop, ← Nat.add_assoc, getD_eq_getElem?_getD, getElem?_eq_getElem (by omega),
      Option.getD_some]
  rw [sampleAt, hat 2 (by omega), hat 1 (by omega), ← Nat.add_zero (col * 4), hat 0 (by omega)]
  rfl

theorem mem_evens_iff {n k : Nat} : k ∈ evens n ↔ ∃ i, 2 * i < n ∧ k = 2 * i := by
  simp only [evens, mem_map, mem_range]
  constructor
  · rintro ⟨i, hi, rfl⟩
    exact ⟨i, by omega, rfl⟩
  · rintro ⟨i, hi, rfl⟩
    exact ⟨i, by omega, rfl⟩

def callsAt (w h stride : Nat) (pixels : Bytes) (row col : Nat) : List Emit :=
  let row2 := min (row + 1) (h - 1)
  let col2 := min (col + 1) (w - 1)
  blockCalls w h row col (pixel stride pixels row col) (pixel stride pixels row col2)
    (pixel stride pixels row2 col) (pixel stride pixels row2 col2)

theorem second_eq {n k : Nat} (h : k < n) :
    (if k + 1 < n then k + 1 else k) = min (k + 1) (n - 1) := by
  split <;> omega

theorem forEachBlock_eq (hread : Readable w h stride pixels) :
    forEachBlock w h stride pixels =
      some
        ((evens h).flatMap fun row =>
           (evens w).flatMap fun col => callsAt w h stride pixels row col) := by
  have hrow : ∀ row < h, sliceGet pixels (row * stride) pixels.length =
      some (pixels.drop (row * stride)) := by
    intro row hlt
    have hbound := row_le hread hlt
    rw [sliceGet, if_pos ⟨by omega, le_rfl⟩, take_of_length_le (by simp)]
  have hlt : ∀ {n k : Nat}, k ∈ evens n → k < n ∧ min (k + 1) (n - 1) < n := by
    intro n k hmem
    obtain ⟨i, hi, rfl⟩ := mem_evens_iff.mp hmem
    omega
  have hblock : ∀ row ∈ evens h, ∀ col ∈ evens w, (do
      let s0 ← sampleAt (pixels.drop (row * stride)) (col * 4)
      let s1 ← sampleAt (pixels.drop (row * stride)) (min (col + 1) (w - 1) * 4)
      let s2 ← sampleAt (pixels.drop (min (row + 1) (h - 1) * stride)) (col * 4)
      let s3 ← sampleAt (pixels.drop (min (row + 1) (h - 1) * stride)) (min (col + 1) (w - 1) * 4)
      some (blockCalls w h row col s0 s1 s2 s3)) = some (callsAt w h stride pixels row col) := by
    intro row hr col hc
    rw [sampleAt_drop hread (hlt hr).1 (hlt hc).1, sampleAt_drop hread (hlt hr).1 (hlt hc).2,
      sampleAt_drop hread (hlt hr).2 (hlt hc).1, sampleAt_drop hread (hlt hr).2 (hlt hc).2]
    rfl
  unfold forEachBlock
  rw [mapM_eq_some_map (g := fun row => (evens w).flatMap (callsAt w h stride pixels row))]
  · rfl
  · intro row hr
    simp only [second_eq (hlt hr).1, hrow _ (hlt hr).1, hrow _ (hlt hr).2, Option.bind_eq_bind,
      Option.bind_some]
    rw [mapM_eq_some_map (g := callsAt w h stride pixels row)]
    · rfl
    · intro col hc
      rw [← hblock row hr col hc, second_eq (hlt hc).1]
      rfl

variable (layout : Layout)

def cellOf (layout : Layout) (w h stride : Nat) (pixels : Bytes) (part : Component) (i j : Nat) :
    (Nat × Nat) × UInt8 :=
  (layout part i j, component w h stride pixels part i j)

def blockCells (layout : Layout) (w h stride : Nat) (pixels : Bytes) (i j : Nat) :
    List ((Nat × Nat) × UInt8) :=
  let cell := cellOf layout w h stride pixels
  cell .y (2 * i) (2 * j) ::
    ((if 2 * j + 1 < w then [cell .y (2 * i) (2 * j + 1)] else []) ++
      (if 2 * i + 1 < h then
        cell .y (2 * i + 1) (2 * j) ::
          (if 2 * j + 1 < w then [cell .y (2 * i + 1) (2 * j + 1)] else [])
      else []) ++ [cell .u i j, cell .v i j])

theorem cells_callsAt (i j : Nat) :
    (callsAt w h stride pixels (2 * i) (2 * j)).flatMap layout.cells =
      blockCells layout w h stride pixels i j := by
  have hrow : 2 * i + 1 < h → min (2 * i + 1) (h - 1) = 2 * i + 1 := by omega
  have hcol : 2 * j + 1 < w → min (2 * j + 1) (w - 1) = 2 * j + 1 := by omega
  have hi : 2 * i / 2 = i := by omega
  have hj : 2 * j / 2 = j := by omega
  simp only [callsAt, blockCalls, flatMap_cons, flatMap_append, flatMap_nil, Layout.cells,
    hi, hj, blockCells, cellOf, component]
  by_cases hlast : 2 * i + 1 < h <;> by_cases hlast' : 2 * j + 1 < w <;>
    simp [hlast, hlast', Layout.cells, hrow, hcol, chroma]

theorem visible_of_mem_blockCells {i j : Nat}
    (hi : 2 * i < h)
    (hj : 2 * j < w)
    {cell : (Nat × Nat) × UInt8}
    (hmem : cell ∈ blockCells layout w h stride pixels i j) :
    ∃ part a b, Visible w h part a b ∧ cell = cellOf layout w h stride pixels part a b := by
  simp only [blockCells, mem_cons, mem_append, mem_ite_nil_right, not_mem_nil, or_false] at hmem
  obtain hcell | (⟨hright, hcell⟩ | ⟨hbelow, hcell | ⟨hright, hcell⟩⟩) | hcell | hcell := hmem
  · exact ⟨.y, _, _, ⟨hi, hj⟩, hcell⟩
  · exact ⟨.y, _, _, ⟨hi, hright⟩, hcell⟩
  · exact ⟨.y, _, _, ⟨hbelow, hj⟩, hcell⟩
  · exact ⟨.y, _, _, ⟨hbelow, hright⟩, hcell⟩
  · exact ⟨.u, i, j, ⟨hi, hj⟩, hcell⟩
  · exact ⟨.v, i, j, ⟨hi, hj⟩, hcell⟩

theorem mem_blockCells_of_visible {part : Component} {a b : Nat} (hvisible : Visible w h part a b) :
    ∃ i j,
      2 * i < h ∧
      2 * j < w ∧
      cellOf layout w h stride pixels part a b ∈ blockCells layout w h stride pixels i j := by
  cases part with
  | y =>
    refine ⟨a / 2, b / 2, by have := hvisible.1; omega, by have := hvisible.2; omega, ?_⟩
    have hrow : a = 2 * (a / 2) ∨ a = 2 * (a / 2) + 1 := by omega
    have hcol : b = 2 * (b / 2) ∨ b = 2 * (b / 2) + 1 := by omega
    generalize a / 2 = i at *
    generalize b / 2 = j at *
    obtain rfl | rfl := hrow <;> obtain rfl | rfl :=
      hcol <;> simp [blockCells, hvisible.1, hvisible.2]
  | u => exact ⟨a, b, hvisible.1, hvisible.2, by simp [blockCells]⟩
  | v => exact ⟨a, b, hvisible.1, hvisible.2, by simp [blockCells]⟩

theorem mem_cells_iff
    (hread : Readable w h stride pixels)
    {calls : List Emit}
    (hcalls : forEachBlock w h stride pixels = some calls)
    (cell : (Nat × Nat) × UInt8) :
    cell ∈ calls.flatMap layout.cells ↔
      ∃ part i j, Visible w h part i j ∧ cell = cellOf layout w h stride pixels part i j := by
  rw [forEachBlock_eq hread, Option.some.injEq] at hcalls
  subst hcalls
  simp only [flatMap_assoc, mem_flatMap, mem_evens_iff]
  constructor
  · rintro ⟨row, ⟨i, hi, rfl⟩, col, ⟨j, hj, rfl⟩, hmem⟩
    apply visible_of_mem_blockCells layout hi hj
    rw [← cells_callsAt]
    exact mem_flatMap.mpr hmem
  · rintro ⟨part, a, b, hvisible, rfl⟩
    obtain ⟨i, j, hi, hj, hmem⟩ := mem_blockCells_of_visible layout hvisible
    rw [← cells_callsAt] at hmem
    exact ⟨_, ⟨i, hi, rfl⟩, _, ⟨j, hj, rfl⟩, mem_flatMap.mp hmem⟩

/-- The places of the visible components are in the planes, and no two share one. -/
structure Fits (layout : Layout) (w h : Nat) (planes : List Bytes) : Prop where
  inside : ∀ part i j, Visible w h part i j → (valueAt planes (layout part i j)).isSome
  distinct : ∀ part i j part' i' j', Visible w h part i j → Visible w h part' i' j' →
    layout part i j = layout part' i' j' → part = part' ∧ i = i' ∧ j = j'

theorem paint_painted {layout : Layout} {planes : List Bytes}
    (hread : Readable w h stride pixels)
    (hfits : Fits layout w h planes) :
    ∃ after,
      paint layout w h stride pixels planes = some after ∧
      Painted layout w h stride pixels planes after := by
  have hcalls := forEachBlock_eq hread
  generalize (evens h).flatMap _ = calls at hcalls
  have hcells := mem_cells_iff layout hread hcalls
  obtain ⟨after, hall, hlengths, hwritten, hkept⟩ :=
    writeAll_spec (calls.flatMap layout.cells) planes (by
        intro cell hmem
        obtain ⟨part, i, j, hvisible, rfl⟩ := (hcells cell).mp hmem
        exact hfits.inside part i j hvisible)
      (by
        intro cell hmem other hother hplace
        obtain ⟨part, i, j, hvisible, rfl⟩ := (hcells cell).mp hmem
        obtain ⟨part', i', j', hvisible', rfl⟩ := (hcells other).mp hother
        obtain ⟨rfl, rfl, rfl⟩ := hfits.distinct _ _ _ _ _ _ hvisible hvisible' hplace
        rfl)
  refine ⟨after, ?_, hlengths, ?_, ?_⟩
  · rw [paint, hcalls]
    exact hall
  · intro part i j hvisible
    exact hwritten _ ((hcells _).mpr ⟨part, i, j, hvisible, rfl⟩)
  · intro place hplace
    apply hkept
    intro cell hmem
    obtain ⟨part, i, j, hvisible, rfl⟩ := (hcells cell).mp hmem
    exact hplace part i j hvisible

end Calls
section Layouts

theorem isSome_valueAt {planes : List Bytes} {plane : Bytes} {p k : Nat}
    (hplane : planes[p]? = some plane)
    (hlt : k < plane.length) : (valueAt planes (p, k)).isSome := by
  simp [valueAt, hplane, hlt]

theorem row_lt {size pitch row : Nat} (rows col : Nat)
    (hrow : row < rows)
    (hlast : (rows - 1) * pitch + col < size) : row * pitch + col < size := by
  have hle : row * pitch ≤ (rows - 1) * pitch := Nat.mul_le_mul_right pitch (by omega)
  omega

theorem lt_length_zeros {rows pitch row col : Nat} (hcol : col < pitch) (hrow : row < rows) :
    row * pitch + col < (zeros (pitch * rows)).length := by
  rw [zeros, length_replicate, Nat.mul_comm pitch]
  exact place_lt hcol hrow

theorem last_row {rows : Nat} (pitch : Nat) (h : 0 < rows) :
    (rows - 1) * pitch + pitch = pitch * rows := by
  rw [← Nat.succ_mul, Nat.succ_eq_add_one, Nat.sub_add_cancel h, Nat.mul_comm]

variable {w h ow oh : Nat}

theorem distinct_of_strided {layout : Layout} (plane pitch : Component → Nat)
    (col : Component → Nat → Nat)
    (hlayout : ∀ part i j, layout part i j = (plane part, i * pitch part + col part j))
    (hpitch : ∀ part part', plane part = plane part' → pitch part = pitch part')
    (hcol : ∀ part i j, Visible w h part i j → col part j < pitch part)
    (hinj : ∀ part j part' j', plane part = plane part' → col part j = col part' j' →
        part = part' ∧ j = j')
    {part part' : Component} {i j i' j' : Nat}
    (hvisible : Visible w h part i j)
    (hvisible' : Visible w h part' i' j')
    (hplace : layout part i j = layout part' i' j') : part = part' ∧ i = i' ∧ j = j' := by
  rw [hlayout, hlayout, Prod.mk.injEq] at hplace
  have hlt := hcol _ _ _ hvisible'
  rw [← hpitch _ _ hplace.1] at hlt hplace
  obtain ⟨hrow, hcols⟩ := place_inj (hcol _ _ _ hvisible) hlt hplace.2
  obtain ⟨hpart, hj⟩ := hinj _ _ _ _ hplace.1 hcols
  exact ⟨hpart, hrow, hj⟩

section
variable (heven : ow % 2 = 0)
include heven

theorem fits_i420 (hoh : oh % 2 = 0) (hw : w ≤ ow) (hh : h ≤ oh) :
    Fits (i420 ow) w h (i420Planes ow oh) where
  inside := by
    intro part i j hvisible
    cases part <;> obtain ⟨hi, hj⟩ := hvisible
    · exact isSome_valueAt rfl (lt_length_zeros (by omega) (by omega))
    · exact isSome_valueAt rfl (lt_length_zeros (by omega) (by omega))
    · exact isSome_valueAt rfl (lt_length_zeros (by omega) (by omega))
  distinct := by
    intro part i j part' i' j'
    apply distinct_of_strided (fun part => part.casesOn 0 1 2)
      (fun part => part.casesOn ow (ow / 2) (ow / 2))
      (fun _ j => j)
    · intro part i j
      cases part <;> rfl
    · intro part part'
      cases part <;> cases part' <;> simp
    · intro part i j hvisible
      cases part <;> obtain ⟨hi, hj⟩ := hvisible <;> simp <;> omega
    · intro part j part' j'
      cases part <;> cases part' <;> simp

theorem fits_nv12Pitched {yPlane uvPlane : Bytes} {yPitch uvPitch : Nat}
    (hoh : oh % 2 = 0)
    (hw : w ≤ ow)
    (hh : h ≤ oh)
    (hyPitch : ow ≤ yPitch)
    (huvPitch : ow ≤ uvPitch)
    (hy : 0 < oh → (oh - 1) * yPitch + ow ≤ yPlane.length)
    (huv : 0 < oh → (oh / 2 - 1) * uvPitch + ow ≤ uvPlane.length) :
    Fits (nv12Pitched yPitch uvPitch) w h [yPlane, uvPlane] where
  inside := by
    intro part i j hvisible
    cases part <;> obtain ⟨hi, hj⟩ := hvisible <;> have hsize := hy (by omega) <;>
      have hsizeUv := huv (by omega)
    · exact isSome_valueAt rfl (row_lt oh j (by omega) (by omega))
    · exact isSome_valueAt rfl (row_lt (oh / 2) (j * 2) (by omega) (by omega))
    · exact isSome_valueAt rfl (row_lt (oh / 2) (j * 2 + 1) (by omega) (by omega))
  distinct := by
    intro part i j part' i' j'
    apply distinct_of_strided (fun part => part.casesOn 0 1 1)
      (fun part => part.casesOn yPitch uvPitch uvPitch)
      (fun part j => part.casesOn j (j * 2) (j * 2 + 1))
    · intro part i j
      cases part <;> rfl
    · intro part part'
      cases part <;> cases part' <;> simp
    · intro part i j hvisible
      cases part <;> obtain ⟨hi, hj⟩ := hvisible <;> simp <;> omega
    · intro part j part' j'
      cases part <;> cases part' <;> simp <;> omega

theorem nv12_eq : nv12 ow = nv12Pitched ow ow := by
  have hpitch : ∀ i j, (i * (ow / 2) + j) * 2 = i * ow + j * 2 := by
    intro i j
    rw [Nat.add_mul, Nat.mul_assoc, Nat.div_mul_cancel (Nat.dvd_of_mod_eq_zero heven)]
  funext part i j
  cases part <;> simp only [nv12, nv12Pitched, hpitch]

theorem fits_nv12 (hoh : oh % 2 = 0) (hw : w ≤ ow) (hh : h ≤ oh) :
    Fits (nv12 ow) w h (nv12Planes ow oh) := by
  rw [nv12_eq heven]
  apply fits_nv12Pitched heven hoh hw hh le_rfl le_rfl
  · intro hpos
    rw [last_row ow hpos, zeros, length_replicate]
  · intro hpos
    rw [last_row ow (by omega), zeros, length_replicate, ← Nat.mul_assoc,
      Nat.mul_div_cancel' (Nat.dvd_of_mod_eq_zero heven)]

end
end Layouts

/-- The destination planes hold the padded picture at their pitches. -/
def Holds (ow oh yPitch uvPitch : Nat) (yPlane uvPlane : Bytes) : Prop :=
  ow ≤ yPitch ∧ ow ≤ uvPitch ∧ (oh - 1) * yPitch + ow ≤ yPlane.length ∧
    (oh / 2 - 1) * uvPitch + ow ≤ uvPlane.length

/-- For every geometry that passes the check, the three conversions return with the luma of every
visible pixel and the chroma of every visible block at the places of their layouts and all other
bytes as they were; in place, unless the destination is too small, which is an error. -/
theorem yuv_conversions_paint (w h stride ow oh : Nat) (pixels : Bytes)
    (hpixels : pixels.length < usizeMax)
    (hcheck : checkBgrxGeometry w h stride pixels ow oh = .ok ()) :
    (∃ planes,
       bgrxToI420 w h stride pixels ow oh = some (.ok planes.flatten) ∧
       Painted (i420 ow) w h stride pixels (i420Planes ow oh) planes) ∧
    (∃ planes,
       bgrxToNv12 w h stride pixels ow oh = some (.ok planes.flatten) ∧
       Painted (nv12 ow) w h stride pixels (nv12Planes ow oh) planes) ∧
    ∀ yPlane yPitch uvPlane uvPitch, yPlane.length < usizeMax → uvPlane.length < usizeMax →
      (Holds ow oh yPitch uvPitch yPlane uvPlane → ∃ planes,
        bgrxToNv12Into w h stride pixels ow oh yPlane yPitch uvPlane uvPitch = some (.ok planes) ∧
        Painted (nv12Pitched yPitch uvPitch) w h stride pixels [yPlane, uvPlane] planes) ∧
      (¬ Holds ow oh yPitch uvPitch yPlane uvPlane → ∃ e,
        bgrxToNv12Into w h stride pixels ow oh yPlane yPitch uvPlane uvPitch =
          some (.error e)) := by
  obtain ⟨heven, hoh, hw, hh, hread⟩ := readable_of_check hpixels hcheck
  refine ⟨?_, ?_, ?_⟩
  · obtain ⟨planes, hpaint, hpainted⟩ := paint_painted hread (fits_i420 heven hoh hw hh)
    exact ⟨planes, by simp [bgrxToI420, hcheck, hpaint], hpainted⟩
  · obtain ⟨planes, hpaint, hpainted⟩ := paint_painted hread (fits_nv12 heven hoh hw hh)
    exact ⟨planes, by simp [bgrxToNv12, hcheck, hpaint], hpainted⟩
  · intro yPlane yPitch uvPlane uvPitch hyLen huvLen
    simp only [bgrxToNv12Into, hcheck, Holds]
    constructor
    · rintro ⟨hyPitch, huvPitch, hy, huv⟩
      obtain ⟨planes, hpaint, hpainted⟩ := paint_painted hread
        (fits_nv12Pitched heven hoh hw hh hyPitch huvPitch (fun _ => hy) fun _ => huv)
      refine ⟨planes, ?_, hpainted⟩
      rw [if_neg (by unfold satAdd satMul; omega), hpaint]
      rfl
    · intro hsmall
      rw [if_pos (by unfold satAdd satMul; omega)]
      exact ⟨_, rfl⟩

def threePixels : Bytes := [10, 20, 30, 0, 40, 50, 60, 0, 70, 80, 90, 0]

/-- Three pixels in a padded picture of four by two: the last column and the only row are repeated.
-/
theorem yuv_conversions_paint_odd :
    checkBgrxGeometry 3 1 12 threePixels 4 2 = .ok () ∧
    (∃ planes,
       bgrxToI420 3 1 12 threePixels 4 2 = some (.ok planes.flatten) ∧
       Painted (i420 4) 3 1 12 threePixels (i420Planes 4 2) planes) ∧
    ∃ planes,
      bgrxToNv12Into 3 1 12 threePixels 4 2 (zeros 16) 8 (zeros 8) 8 = some (.ok planes) ∧
      Painted (nv12Pitched 8 8) 3 1 12 threePixels [zeros 16, zeros 8] planes := by
  have hpaint := yuv_conversions_paint 3 1 12 4 2 threePixels (by decide) rfl
  have hholds : Holds 4 2 8 8 (zeros 16) (zeros 8) := by unfold Holds; decide
  exact ⟨rfl, hpaint.1, (hpaint.2.2 (zeros 16) 8 (zeros 8) 8 (by decide) (by decide)).1 hholds⟩

end Kmsrdp.Guarantees.YuvPlanes
