import Kmsrdp.Source.Server.TileBits

/-!
# What a comparison of two frames reports

`find_dirty_rects` reports the tiles in which some visible pixel differs, as rectangles without
overlap.
-/
namespace Kmsrdp.Guarantees.DirtyTiles
open Library.ByteString Source.Server.Diff Source.Server
variable {image1 image2 : Bytes} {stride1 stride2 width height bpp : Nat}

theorem tileRect_contains_iff {tx ty : Nat} (column row : Nat) :
    (tileRect width height tx ty).Contains column row ↔
      (column < width ∧ row < height) ∧ column / tileSize = tx ∧ row / tileSize = ty := by
  unfold Rect.Contains tileRect tileSize
  dsimp only
  omega

/-- A tile of the frame, clipped at its right and bottom edge, with a pixel that differs. -/
def IsDirtyTile (image1 : Bytes) (stride1 : Nat) (image2 : Bytes) (stride2 : Nat)
    (width height bpp : Nat)
    (tile : Rect) : Prop :=
  ∃ tx ty, tile = tileRect width height tx ty ∧
    ∃ column row, tile.Contains column row ∧ PixelDiffers image1 stride1 image2 stride2 bpp column row

def Apart (first second : Rect) : Prop :=
  ∀ column row, ¬ (first.Contains column row ∧ second.Contains column row)

theorem exists_dirtyTile_iff (column row : Nat) :
    (∃ tile,
       IsDirtyTile image1 stride1 image2 stride2 width height bpp tile ∧ tile.Contains column row) ↔
      (column < width ∧ row < height) ∧
      ∃ column' row',
        (column' < width ∧ row' < height) ∧
        (column' / tileSize = column / tileSize ∧ row' / tileSize = row / tileSize) ∧
        PixelDiffers image1 stride1 image2 stride2 bpp column' row' := by
  constructor
  · rintro ⟨_, ⟨tx, ty, rfl, column', row', hother, hdiffers⟩, hcontains⟩
    rw [tileRect_contains_iff] at hother hcontains
    obtain ⟨hin, rfl, rfl⟩ := hcontains
    exact ⟨hin, column', row', hother.1, hother.2, hdiffers⟩
  · rintro ⟨hin, column', row', hother, htile, hdiffers⟩
    refine ⟨_, ⟨column / tileSize, row / tileSize, rfl, column', row', ?_, hdiffers⟩, ?_⟩
    · exact (tileRect_contains_iff _ _).mpr ⟨hother, htile⟩
    · exact (tileRect_contains_iff _ _).mpr ⟨hin, rfl, rfl⟩

/-- Every visible row is in the buffer, and the buffer is a slice of the machine. A frame without
visible bytes asks nothing of its buffer. -/
structure HoldsRows (image : Bytes) (stride width height bpp : Nat) : Prop where
  row_le : width * bpp ≤ stride
  row_in : ∀ row, row < height → 0 < width * bpp → row * stride + width * bpp ≤ image.length
  fits : image.length < 2 ^ 63

theorem HoldsRows.holds {image : Bytes} {stride : Nat}
    (h : HoldsRows image stride width height bpp)
    (hvisible : 0 < width * bpp ∧ 0 < height) : Holds image stride width height bpp :=
  ⟨h.row_le, h.row_in (height - 1) (by omega) hvisible.1, h.fits⟩

theorem visibleEqual_of_invisible (image1 : Bytes) (stride1 : Nat) (image2 : Bytes)
    (stride2 : Nat)
    (h : ¬ (0 < width * bpp ∧ 0 < height)) :
    VisibleEqual image1 stride1 image2 stride2 width height bpp :=
  fun _ hrow _ hk => absurd ⟨Nat.zero_lt_of_lt hk, Nat.zero_lt_of_lt hrow⟩ h

theorem findDirtyRects_of_invisible (image1 : Bytes) (stride1 : Nat) (image2 : Bytes)
    (stride2 : Nat)
    (h : ¬ (0 < width * bpp ∧ 0 < height)) :
    TileBits.findDirtyRects image1 stride1 image2 stride2 width height bpp = some [] := by
  unfold TileBits.findDirtyRects
  split
  · rfl
  · next hsize =>
    have hrow : width * bpp = 0 := by omega
    have hequal : visiblePixelsEqual image1 stride1 image2 stride2 width height bpp = true := by
      unfold visiblePixelsEqual satMul
      rw [hrow, Nat.zero_min]
      exact if_pos rfl
    rw [if_pos hequal]

theorem not_dirtyTile_of_invisible (h : ¬ (0 < width * bpp ∧ 0 < height)) (column row : Nat) :
    ¬ ∃ tile,
        IsDirtyTile image1 stride1 image2 stride2 width height bpp tile ∧
        tile.Contains column row := by
  rw [exists_dirtyTile_iff]
  rintro ⟨⟨hcolumn, hrow⟩, _, _, -, -, k, hk, -⟩
  exact h ⟨Nat.mul_pos (Nat.zero_lt_of_lt hcolumn) (Nat.zero_lt_of_lt hk), Nat.zero_lt_of_lt hrow⟩

/-- The comparison never panics. Its rectangles are non-empty, inside the frame and apart from
each other, and together they are the dirty tiles. There is none exactly when the visible pixels
are equal, and buffers with the same visible pixels give the same rectangles. -/
theorem dirty_rects_are_dirty_tiles
    (h1 : HoldsRows image1 stride1 width height bpp)
    (h2 : HoldsRows image2 stride2 width height bpp) :
    ∃ rects,
      TileBits.findDirtyRects image1 stride1 image2 stride2 width height bpp = some rects ∧
      (∀ rect ∈ rects, rect.InFrame width height) ∧
      rects.Pairwise Apart ∧
      (∀ column row,
         (∃ rect ∈ rects, rect.Contains column row) ↔
           ∃ tile,
             IsDirtyTile image1 stride1 image2 stride2 width height bpp tile ∧
             tile.Contains column row) ∧
      (rects = [] ↔ VisibleEqual image1 stride1 image2 stride2 width height bpp) ∧
      (∀ image3 stride3 image4 stride4, HoldsRows image3 stride3 width height bpp →
         HoldsRows image4 stride4 width height bpp →
         VisibleEqual image1 stride1 image3 stride3 width height bpp →
         VisibleEqual image2 stride2 image4 stride4 width height bpp →
           TileBits.findDirtyRects image3 stride3 image4 stride4 width height bpp =
             some rects) := by
  by_cases hvisible : 0 < width * bpp ∧ 0 < height
  · have hin1 := h1.holds hvisible
    have hin2 := h2.holds hvisible
    refine ⟨_, TileBits.findDirtyRects_eq _ _ _ _ _ _ _, findDirtyRects_inFrame,
      findDirtyRects_disjoint, fun column row => ?_, findDirtyRects_eq_nil_iff hin1 hin2, ?_⟩
    · rw [findDirtyRects_contains_iff hin1 hin2, exists_dirtyTile_iff]
    · intro image3 stride3 image4 stride4 h3 h4 h13 h24
      rw [TileBits.findDirtyRects_eq,
        findDirtyRects_congr hin1 hin2 (h3.holds hvisible) (h4.holds hvisible) h13 h24]
  · refine ⟨[], findDirtyRects_of_invisible _ _ _ _ hvisible, fun _ hmem =>
      absurd hmem List.not_mem_nil, .nil,
      fun column row => ?_, iff_of_true rfl (visibleEqual_of_invisible _ _ _ _ hvisible), ?_⟩
    · refine iff_of_false ?_ (not_dirtyTile_of_invisible hvisible column row)
      rintro ⟨rect, hmem, -⟩
      exact List.not_mem_nil hmem
    · exact fun _ _ _ _ _ _ _ _ => findDirtyRects_of_invisible _ _ _ _ hvisible

/-- Two rows of one pixel, once with and once without padding; the lower pixel differs. -/
theorem padded_rows_compared :
    ∃ rects,
      TileBits.findDirtyRects [1, 2] 1 [1, 9, 3] 2 1 2 1 = some rects ∧
      (∃ rect ∈ rects, rect.Contains 0 1) := by
  have h1 : HoldsRows [1, 2] 1 1 2 1 := ⟨by decide, by decide, by decide⟩
  have h2 : HoldsRows [1, 9, 3] 2 1 2 1 := ⟨by decide, by decide, by decide⟩
  obtain ⟨rects, hrects, -, -, hexact, -⟩ := dirty_rects_are_dirty_tiles h1 h2
  refine ⟨rects, hrects, (hexact 0 1).mpr ⟨_, ⟨0, 0, rfl, 0, 1, ?_, 0, by decide, by decide⟩, ?_⟩⟩
  · exact ⟨⟨by decide, by decide⟩, by decide, by decide⟩
  · exact ⟨⟨by decide, by decide⟩, by decide, by decide⟩

end Kmsrdp.Guarantees.DirtyTiles
