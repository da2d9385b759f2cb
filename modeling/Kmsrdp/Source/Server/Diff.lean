import Kmsrdp.Library.ByteString
import Kmsrdp.Library.Grid

/-!
# Dirty rectangles between two frames

Model of `rdpcore-server/src/diff.rs`: tiles of 64 by 64 are compared, and dirty ones are merged to
the right, then downwards while the whole row is dirty. The `while` loops carry a fuel argument.
-/
namespace Kmsrdp.Source.Server.Diff
open Library.ByteString Library.Grid List Nat

def tileSize : Nat := 64

structure Rect where
  (x y width height : Nat)

def visiblePixelsEqual (image1 : Bytes) (stride1 : Nat) (image2 : Bytes) (stride2 : Nat)
    (width height bpp : Nat) : Bool :=
  let rowBytes := satMul width bpp
  if rowBytes = 0 then true
  else if stride1 = stride2 ∧ stride1 = rowBytes then
    let needed := satMul height rowBytes
    needed ≤ image1.length && needed ≤ image2.length && image1.take needed == image2.take needed
  else
    (List.range height).all fun row =>
      let start1 := satMul row stride1
      let start2 := satMul row stride2
      match sliceGet image1 start1 (satAdd start1 rowBytes),
        sliceGet image2 start2 (satAdd start2 rowBytes) with
      | some a, some b => a == b
      | _, _ => false

def tileDiffers (image1 : Bytes) (stride1 : Nat) (image2 : Bytes) (stride2 : Nat) (bpp : Nat)
    (tile : Rect) : Bool :=
  (List.range tile.height).any fun offset =>
    let row := tile.y + offset
    let start1 := row * stride1 + tile.x * bpp
    let start2 := row * stride2 + tile.x * bpp
    match sliceGet image1 start1 (start1 + tile.width * bpp),
      sliceGet image2 start2 (start2 + tile.width * bpp) with
    | some a, some b => a != b
    | _, _ => true

structure SmallBitSet where
  get : Nat → Bool

def SmallBitSet.new : SmallBitSet := ⟨fun _ => false⟩

def SmallBitSet.set (bits : SmallBitSet) (idx : Nat) (value : Bool) : SmallBitSet :=
  ⟨fun i => if i = idx then value else bits.get i⟩

def rounds (rows columns : Nat) : List (Nat × Nat) :=
  (List.range rows).flatMap fun y => (List.range columns).map fun x => (y, x)

def tileRect (width height tx ty : Nat) : Rect where
  x := tx * tileSize
  y := ty * tileSize
  width := min tileSize (width - tx * tileSize)
  height := min tileSize (height - ty * tileSize)

def markTiles (differs : Rect → Bool) (width height tilesX tilesY : Nat) : SmallBitSet :=
  (rounds tilesY tilesX).foldl
    (fun dirty t => dirty.set (t.1 * tilesX + t.2) (differs (tileRect width height t.2 t.1))) .new

def growRight (dirty : SmallBitSet) (idx startX tilesX : Nat) : Nat → Nat → Nat
  | 0, runWidth => runWidth
  | fuel + 1, runWidth =>
    if startX + runWidth < tilesX ∧ dirty.get (idx + runWidth) = true then
      growRight dirty idx startX tilesX fuel (runWidth + 1)
    else runWidth

def growDown (dirty : SmallBitSet) (startX startY tilesX tilesY runWidth : Nat) : Nat → Nat → Nat
  | 0, runHeight => runHeight
  | fuel + 1, runHeight =>
    if startY + runHeight < tilesY ∧ (List.range runWidth).all (fun x =>
        dirty.get ((startY + runHeight) * tilesX + startX + x)) = true then
      growDown dirty startX startY tilesX tilesY runWidth fuel (runHeight + 1)
    else runHeight

def pixelSpan (start run tiles extent : Nat) : Nat :=
  if start + run = tiles ∧ 0 < extent % tileSize then (run - 1) * tileSize + extent % tileSize
  else run * tileSize

def clearTiles (dirty : SmallBitSet) (startX startY tilesX runWidth runHeight : Nat) :
    SmallBitSet :=
  (rounds runHeight runWidth).foldl
    (fun dirty t => dirty.set ((startY + t.1) * tilesX + startX + t.2) false) dirty

def mergeTiles (width height tilesX tilesY : Nat) : Nat → Nat → SmallBitSet → List Rect
  | 0, _, _ => []
  | fuel + 1, idx, dirty =>
    if tilesX * tilesY ≤ idx then []
    else if dirty.get idx = false then mergeTiles width height tilesX tilesY fuel (idx + 1) dirty
    else
      let startY := idx / tilesX
      let startX := idx % tilesX
      let runWidth := growRight dirty idx startX tilesX tilesX 1
      let runHeight := growDown dirty startX startY tilesX tilesY runWidth tilesY 1
      let rect : Rect :=
        { x := startX * tileSize, y := startY * tileSize,
          width := pixelSpan startX runWidth tilesX width,
          height := pixelSpan startY runHeight tilesY height }
      rect :: mergeTiles width height tilesX tilesY fuel (idx + runWidth)
        (clearTiles dirty startX startY tilesX runWidth runHeight)

def divCeil (a b : Nat) : Nat := (a + b - 1) / b

def findDirtyRects (image1 : Bytes) (stride1 : Nat) (image2 : Bytes) (stride2 : Nat)
    (width height bpp : Nat) : List Rect :=
  if width = 0 ∨ height = 0 then []
  else if visiblePixelsEqual image1 stride1 image2 stride2 width height bpp then []
  else
    let tilesX := divCeil width tileSize
    let tilesY := divCeil height tileSize
    let dirty :=
      markTiles (tileDiffers image1 stride1 image2 stride2 bpp) width height tilesX tilesY
    mergeTiles width height tilesX tilesY (tilesX * tilesY) 0 dirty

theorem mem_rounds {rows columns y x : Nat} :
    (y, x) ∈ rounds rows columns ↔ y < rows ∧ x < columns := by
  simp [rounds]

theorem get_foldl_set {ι : Type} (key : ι → Nat) (value : ι → Bool) (bit : Nat → Bool)
    (items : List ι)
    (hvalue : ∀ t ∈ items, value t = bit (key t))
    (bits : SmallBitSet) (i : Nat) :
    (items.foldl (fun bits t => bits.set (key t) (value t)) bits).get i =
      if ∃ t ∈ items, key t = i then bit i else bits.get i := by
  induction items generalizing bits with
  | nil => simp
  | cons head tail ih =>
    rw [foldl_cons, ih (fun t ht => hvalue t (mem_cons_of_mem _ ht))]
    by_cases htail : ∃ t ∈ tail, key t = i
    · obtain ⟨t, ht, hkey⟩ := htail
      rw [if_pos ⟨t, ht, hkey⟩, if_pos ⟨t, mem_cons_of_mem _ ht, hkey⟩]
    · rw [if_neg htail]
      by_cases hhead : key head = i
      · rw [if_pos ⟨head, mem_cons_self, hhead⟩]
        simp [SmallBitSet.set, hhead, hvalue head mem_cons_self]
      · rw [if_neg]
        · simp [SmallBitSet.set, Ne.symm hhead]
        · rintro ⟨t, ht, hkey⟩
          rcases mem_cons.mp ht with rfl | ht
          · exact hhead hkey
          · exact htail ⟨t, ht, hkey⟩

variable {tilesX tx ty : Nat}

theorem get_markTiles (differs : Rect → Bool) (width height : Nat) {tilesY : Nat}
    (hx : tx < tilesX)
    (hy : ty < tilesY) :
    (markTiles differs width height tilesX tilesY).get (ty * tilesX + tx) =
      differs (tileRect width height tx ty) := by
  have hvalue : ∀ t ∈ rounds tilesY tilesX, differs (tileRect width height t.2 t.1) =
      (fun i => differs (tileRect width height (i % tilesX) (i / tilesX)))
      (t.1 * tilesX + t.2) := by
    rintro ⟨y, x⟩ ht
    have hlt := (mem_rounds.mp ht).2
    simp only [place_div hlt, place_mod hlt]
  rw [markTiles,
    get_foldl_set _ _ (fun i => differs (tileRect width height (i % tilesX) (i / tilesX)))
    _ hvalue, if_pos ⟨(ty, tx), mem_rounds.mpr ⟨hy, hx⟩, rfl⟩]
  exact (hvalue (ty, tx) (mem_rounds.mpr ⟨hy, hx⟩)).symm

variable {startX startY : Nat} {runWidth runHeight : Nat}

theorem get_clearTiles_of_not_mem (dirty : SmallBitSet)
    (hright : startX + runWidth ≤ tilesX)
    (hx : tx < tilesX)
    (hout : ¬ ((startX ≤ tx ∧ tx < startX + runWidth) ∧ (startY ≤ ty ∧ ty < startY + runHeight))) :
    (clearTiles dirty startX startY tilesX runWidth runHeight).get (ty * tilesX + tx) =
      dirty.get (ty * tilesX + tx) := by
  rw [clearTiles, get_foldl_set _ _ (fun _ => false) _ (fun _ _ => rfl), if_neg]
  rintro ⟨⟨y, x⟩, ht, hkey⟩
  obtain ⟨hy', hx'⟩ := mem_rounds.mp ht
  have hnumber : (startY + y) * tilesX + (startX + x) = ty * tilesX + tx := by
    rw [← add_assoc]
    exact hkey
  obtain ⟨hrow, hcolumn⟩ := place_inj (by omega) hx hnumber
  omega

variable {run : Nat}

theorem pixelSpan_end (start extent : Nat)
    (hrun : 0 < run)
    (hend : start + run ≤ divCeil extent tileSize) :
    start * tileSize + pixelSpan start run (divCeil extent tileSize) extent =
      min ((start + run) * tileSize) extent := by
  unfold pixelSpan divCeil tileSize at *
  split <;> omega

variable {dirty : SmallBitSet}

theorem growRight_spec {idx startX tilesX : Nat} (fuel runWidth : Nat)
    (h : startX + runWidth ≤ tilesX) (hdirty : ∀ k < runWidth, dirty.get (idx + k) = true) :
    let grown := growRight dirty idx startX tilesX fuel runWidth
    runWidth ≤ grown ∧ startX + grown ≤ tilesX ∧ ∀ k < grown, dirty.get (idx + k) = true := by
  induction fuel generalizing runWidth with
  | zero => exact ⟨le_refl _, h, hdirty⟩
  | succ fuel ih =>
    unfold growRight
    split
    · next hgrow =>
      obtain ⟨hle, hrest⟩ := ih (runWidth + 1) (by omega) fun k hk => by
        rcases Nat.lt_succ_iff_lt_or_eq.mp hk with hk | rfl
        · exact hdirty k hk
        · exact hgrow.2
      exact ⟨by omega, hrest⟩
    · exact ⟨le_refl _, h, hdirty⟩

theorem growDown_spec {startX startY tilesX tilesY runWidth : Nat} (fuel runHeight : Nat)
    (h : startY + runHeight ≤ tilesY)
    (hdirty : ∀ y < runHeight, ∀ x < runWidth,
      dirty.get ((startY + y) * tilesX + startX + x) = true) :
    let grown := growDown dirty startX startY tilesX tilesY runWidth fuel runHeight
    runHeight ≤ grown ∧ startY + grown ≤ tilesY ∧
      ∀ y < grown, ∀ x < runWidth, dirty.get ((startY + y) * tilesX + startX + x) = true := by
  induction fuel generalizing runHeight with
  | zero => exact ⟨le_refl _, h, hdirty⟩
  | succ fuel ih =>
    unfold growDown
    split
    · next hgrow =>
      obtain ⟨hle, hrest⟩ := ih (runHeight + 1) (by omega) fun y hy => by
        rcases Nat.lt_succ_iff_lt_or_eq.mp hy with hy | rfl
        · exact hdirty y hy
        · exact fun x hx => all_eq_true.mp hgrow.2 x (mem_range.mpr hx)
      exact ⟨by omega, hrest⟩
    · exact ⟨le_refl _, h, hdirty⟩

structure IsBlock (dirty : SmallBitSet) (tilesX tilesY startX startY runWidth runHeight : Nat) :
    Prop where
  width_pos : 0 < runWidth
  right : startX + runWidth ≤ tilesX
  height_pos : 0 < runHeight
  bottom : startY + runHeight ≤ tilesY
  dirty : ∀ tx ty, startX ≤ tx ∧ tx < startX + runWidth → startY ≤ ty ∧ ty < startY + runHeight →
    dirty.get (ty * tilesX + tx) = true

theorem isBlock_grow {tilesY : Nat} (hx : startX < tilesX) (hy : startY < tilesY)
    (hdirty : dirty.get (startY * tilesX + startX) = true) :
    let runWidth := growRight dirty (startY * tilesX + startX) startX tilesX tilesX 1
    IsBlock dirty tilesX tilesY startX startY runWidth
      (growDown dirty startX startY tilesX tilesY runWidth tilesY 1) := by
  obtain ⟨hw, hright, hrow⟩ := growRight_spec tilesX 1 hx fun k hk => by
    obtain rfl : k = 0 := by omega
    exact hdirty
  generalize growRight dirty (startY * tilesX + startX) startX tilesX tilesX 1 = runWidth at *
  obtain ⟨hh, hbottom, hrows⟩ := growDown_spec tilesY 1 hy fun y hy x hx => by
    obtain rfl : y = 0 := by omega
    exact hrow x hx
  refine ⟨hw, hright, hh, hbottom, fun tx ty htx hty => ?_⟩
  have htile := hrows (ty - startY) (by omega) (tx - startX) (by omega)
  rwa [Nat.add_sub_cancel' hty.1, Nat.add_assoc, Nat.add_sub_cancel' htx.1] at htile

theorem get_clearTiles_of_mem (dirty : SmallBitSet)
    (htx : startX ≤ tx ∧ tx < startX + runWidth)
    (hty : startY ≤ ty ∧ ty < startY + runHeight) :
    (clearTiles dirty startX startY tilesX runWidth runHeight).get (ty * tilesX + tx) = false := by
  rw [clearTiles, get_foldl_set _ _ (fun _ => false) _ (fun _ _ => rfl), if_pos]
  refine ⟨(ty - startY, tx - startX), mem_rounds.mpr ⟨by omega, by omega⟩, ?_⟩
  rw [Nat.add_sub_cancel' hty.1, Nat.add_assoc, Nat.add_sub_cancel' htx.1]

theorem mem_block_of_lt (startY ty : Nat) {n : Nat}
    (htx : tx < n)
    (hright : startX + run ≤ n)
    (hle : startY * n + startX ≤ ty * n + tx)
    (hlt : ty * n + tx < startY * n + startX + run) :
    ty = startY ∧ startX ≤ tx ∧ tx < startX + run := by
  have hrow : ty = startY := by
    rcases lt_trichotomy ty startY with h | h | h
    · have := mul_le_mul_right n (show ty + 1 ≤ startY from h)
      rw [add_mul] at this
      omega
    · exact h
    · have := mul_le_mul_right n (show startY + 1 ≤ ty from h)
      rw [add_mul] at this
      omega
  subst hrow
  omega

theorem pixelSpan_pos (start tiles extent : Nat) (hrun : 0 < run) :
    0 < pixelSpan start run tiles extent := by
  unfold pixelSpan tileSize
  split <;> omega

theorem mem_pixelSpan_iff (start extent : Nat)
    (hrun : 0 < run)
    (hend : start + run ≤ divCeil extent tileSize)
    (position : Nat) :
    (start * tileSize ≤ position ∧
     position < start * tileSize + pixelSpan start run (divCeil extent tileSize) extent) ↔
      position < extent ∧ start ≤ position / tileSize ∧ position / tileSize < start + run := by
  rw [pixelSpan_end start extent hrun hend]
  unfold tileSize
  omega

def Rect.InFrame (rect : Rect) (width height : Nat) : Prop :=
  (0 < rect.width ∧ rect.x + rect.width ≤ width) ∧ (0 < rect.height ∧ rect.y + rect.height ≤ height)

def Rect.Contains (rect : Rect) (column row : Nat) : Prop :=
  (rect.x ≤ column ∧ column < rect.x + rect.width) ∧ (rect.y ≤ row ∧ row < rect.y + rect.height)

def blockRect (width height startX startY runWidth runHeight : Nat) : Rect where
  x := startX * tileSize
  y := startY * tileSize
  width := pixelSpan startX runWidth (divCeil width tileSize) width
  height := pixelSpan startY runHeight (divCeil height tileSize) height

variable (fuel idx : Nat)
section Merge
variable (width height : Nat)
variable {dirty : SmallBitSet}

theorem mergeTiles_of_dirty (fuel : Nat) {idx : Nat}
    (hidx : idx < divCeil width tileSize * divCeil height tileSize)
    (hdirty : dirty.get idx = true) :
    ∃ startX startY runWidth runHeight,
      startY * divCeil width tileSize + startX = idx ∧
      IsBlock dirty (divCeil width tileSize) (divCeil height tileSize) startX startY runWidth
        runHeight ∧
      mergeTiles width height (divCeil width tileSize) (divCeil height tileSize) (fuel + 1) idx
        dirty =
        blockRect width height startX startY runWidth runHeight ::
          mergeTiles width height (divCeil width tileSize) (divCeil height tileSize) fuel
            (idx + runWidth)
            (clearTiles dirty startX startY (divCeil width tileSize) runWidth runHeight) := by
  have hn : 0 < divCeil width tileSize := Nat.pos_of_mul_pos_right (Nat.zero_lt_of_lt hidx)
  have hstart := Nat.div_add_mod' idx (divCeil width tileSize)
  have hblock := isBlock_grow (Nat.mod_lt idx hn) (Nat.div_lt_of_lt_mul hidx)
    (show dirty.get _ = true by rw [hstart]; exact hdirty)
  rw [hstart] at hblock
  refine ⟨_, _, _, _, hstart, hblock, ?_⟩
  rw [mergeTiles, if_neg (by omega), if_neg (by rw [hdirty]; decide)]
  rfl

variable {width height}

theorem IsBlock.contains_iff
    (h : IsBlock dirty (divCeil width tileSize) (divCeil height tileSize) startX startY runWidth
        runHeight)
    (column row : Nat) :
    (blockRect width height startX startY runWidth runHeight).Contains column row ↔
      (column < width ∧ row < height) ∧
      (startX ≤ column / tileSize ∧ column / tileSize < startX + runWidth) ∧
      (startY ≤ row / tileSize ∧ row / tileSize < startY + runHeight) := by
  have hx := mem_pixelSpan_iff startX width h.width_pos h.right column
  have hy := mem_pixelSpan_iff startY height h.height_pos h.bottom row
  rw [Rect.Contains, blockRect]
  rw [hx, hy]
  exact and_and_and_comm

theorem IsBlock.inFrame
    (h : IsBlock dirty (divCeil width tileSize) (divCeil height tileSize) startX startY runWidth
        runHeight) :
    (blockRect width height startX startY runWidth runHeight).InFrame width height := by
  refine ⟨⟨pixelSpan_pos _ _ _ h.width_pos, ?_⟩, pixelSpan_pos _ _ _ h.height_pos, ?_⟩
  · exact le_trans (le_of_eq (pixelSpan_end _ _ h.width_pos h.right)) (min_le_right _ _)
  · exact le_trans (le_of_eq (pixelSpan_end _ _ h.height_pos h.bottom)) (min_le_right _ _)

theorem mergeTiles_inFrame (dirty : SmallBitSet) :
    ∀ rect ∈
      mergeTiles width height (divCeil width tileSize) (divCeil height tileSize) fuel idx dirty,
      rect.InFrame width height := by
  induction fuel generalizing idx dirty with
  | zero => simp [mergeTiles]
  | succ fuel ih =>
    by_cases hidx : idx < divCeil width tileSize * divCeil height tileSize
    · cases hdirty : dirty.get idx with
      | false =>
        rw [mergeTiles, if_neg (by omega), if_pos hdirty]
        exact ih (idx + 1) dirty
      | true =>
        obtain ⟨startX, startY, runWidth, runHeight, -, hblock, hround⟩ :=
          mergeTiles_of_dirty width height fuel hidx hdirty
        rw [hround]
        intro rect hmem
        rcases mem_cons.mp hmem with rfl | hmem
        · exact hblock.inFrame
        · exact ih _ _ rect hmem
    · rw [mergeTiles, if_pos (by omega)]
      simp

theorem tile_lt {position extent : Nat} (h : position < extent) :
    position / tileSize < divCeil extent tileSize := by
  unfold divCeil tileSize
  omega

def tileNumber (width column row : Nat) : Nat :=
  row / tileSize * divCeil width tileSize + column / tileSize

theorem tileNumber_lt {column row : Nat} (hcolumn : column < width) (hrow : row < height) :
    tileNumber width column row < divCeil width tileSize * divCeil height tileSize := by
  rw [mul_comm]
  exact place_lt (tile_lt hcolumn) (tile_lt hrow)

/-- The rectangles cover the dirty tiles from the index on, and no others. -/
theorem mergeTiles_contains_iff (dirty : SmallBitSet)
    (hfuel : divCeil width tileSize * divCeil height tileSize ≤ idx + fuel)
    (column row : Nat) :
    (∃ rect ∈
      mergeTiles width height (divCeil width tileSize) (divCeil height tileSize) fuel idx dirty,
      rect.Contains column row) ↔
      (column < width ∧ row < height) ∧
      idx ≤ tileNumber width column row ∧
      dirty.get (tileNumber width column row) = true := by
  induction fuel generalizing idx dirty with
  | zero =>
    refine iff_of_false (fun ⟨rect, hmem, _⟩ => not_mem_nil hmem) fun ⟨hin, hle, _⟩ => ?_
    have := tileNumber_lt hin.1 hin.2
    omega
  | succ fuel ih =>
    by_cases hidx : idx < divCeil width tileSize * divCeil height tileSize
    · cases hdirty : dirty.get idx with
      | false =>
        -- the current tile is clean, so a dirty one is further on
        rw [mergeTiles, if_neg (by omega), if_pos hdirty, ih (idx + 1) dirty (by omega)]
        refine and_congr_right fun _ => ⟨fun h => ⟨by omega, h.2⟩, fun h => ⟨?_, h.2⟩⟩
        have hne : idx ≠ tileNumber width column row := by
          rintro rfl
          rw [hdirty] at h
          cases h.2
        omega
      | true =>
        obtain ⟨startX, startY, runWidth, runHeight, hstart, hblock, hround⟩ :=
          mergeTiles_of_dirty width height fuel hidx hdirty
        have hwidth := hblock.width_pos
        rw [hround]
        simp only [mem_cons, or_and_right, exists_or, exists_eq_left]
        rw [hblock.contains_iff, ih (idx + runWidth) _ (by omega), ← and_or_left]
        refine and_congr_right fun hin => ?_
        have hcolumn := tile_lt hin.1
        unfold tileNumber
        generalize column / tileSize = tx at *
        generalize row / tileSize = ty at *
        by_cases htile : (startX ≤ tx ∧ tx < startX + runWidth) ∧
          (startY ≤ ty ∧ ty < startY + runHeight)
        · have hrows := mul_le_mul_right (divCeil width tileSize) htile.2.1
          exact ⟨fun _ => ⟨by omega, hblock.dirty tx ty htile.1 htile.2⟩, fun _ => .inl htile⟩
        · rw [get_clearTiles_of_not_mem dirty hblock.right hcolumn htile]
          refine ⟨fun h => ?_, fun h => .inr ⟨?_, h.2⟩⟩
          · rcases h with hmem | hlater
            · exact absurd hmem htile
            · exact ⟨by omega, hlater.2⟩
          · by_contra hlt
            obtain ⟨hrow, hrun⟩ :=
              mem_block_of_lt startY ty hcolumn hblock.right (by omega) (by omega)
            have hheight := hblock.height_pos
            exact htile ⟨hrun, by omega, by omega⟩
    · rw [mergeTiles, if_pos (by omega)]
      refine iff_of_false (fun ⟨rect, hmem, _⟩ => not_mem_nil hmem) fun ⟨hin, hle, _⟩ => ?_
      have := tileNumber_lt hin.1 hin.2
      omega

theorem mergeTiles_disjoint (dirty : SmallBitSet)
    (hfuel : divCeil width tileSize * divCeil height tileSize ≤ idx + fuel) :
    (mergeTiles width height (divCeil width tileSize) (divCeil height tileSize) fuel idx
       dirty).Pairwise fun first second =>
      ∀ column row, ¬ (first.Contains column row ∧ second.Contains column row) := by
  induction fuel generalizing idx dirty with
  | zero => exact .nil
  | succ fuel ih =>
    by_cases hidx : idx < divCeil width tileSize * divCeil height tileSize
    · cases hdirty : dirty.get idx with
      | false =>
        rw [mergeTiles, if_neg (by omega), if_pos hdirty]
        exact ih (idx + 1) dirty (by omega)
      | true =>
        obtain ⟨startX, startY, runWidth, runHeight, -, hblock, hround⟩ :=
          mergeTiles_of_dirty width height fuel hidx hdirty
        have hwidth := hblock.width_pos
        rw [hround]
        refine .cons (fun second hsecond column row hboth => ?_) (ih _ _ (by omega))
        obtain ⟨-, -, hstill⟩ := (mergeTiles_contains_iff fuel _ _ (by omega) column row).mp
          ⟨second, hsecond, hboth.2⟩
        obtain ⟨-, htx, hty⟩ := (hblock.contains_iff column row).mp hboth.1
        rw [tileNumber, get_clearTiles_of_mem dirty htx hty] at hstill
        cases hstill
    · rw [mergeTiles, if_pos (by omega)]
      exact .nil

end Merge

structure Holds (image : Bytes) (stride width height bpp : Nat) : Prop where
  row_le : width * bpp ≤ stride
  rows_in : (height - 1) * stride + width * bpp ≤ image.length
  fits : image.length < 2 ^ 63

variable {image : Bytes}

theorem Holds.row_in {stride width height bpp row : Nat}
    (h : Holds image stride width height bpp)
    (hrow : row < height) : row * stride + width * bpp ≤ image.length := by
  have hrows := h.rows_in
  have := mul_le_mul_right stride (show row ≤ height - 1 by omega)
  omega

theorem Holds.packed_in {width height bpp : Nat} (h : Holds image (width * bpp) width height bpp) :
    height * (width * bpp) ≤ image.length := by
  have hrows := h.rows_in
  cases height with
  | zero => omega
  | succ height =>
    rw [succ_mul]
    exact hrows

section Compare
variable {image1 image2 : Bytes} {stride1 stride2 width height bpp : Nat}

def VisibleEqual (image1 : Bytes) (stride1 : Nat) (image2 : Bytes) (stride2 : Nat)
    (width height bpp : Nat) : Prop :=
  ∀ row, row < height → ∀ k, k < width * bpp →
    image1.getD (row * stride1 + k) 0 = image2.getD (row * stride2 + k) 0

theorem take_eq_take_iff {rowBytes : Nat}
    (h1 : height * rowBytes ≤ image1.length)
    (h2 : height * rowBytes ≤ image2.length) :
    image1.take (height * rowBytes) = image2.take (height * rowBytes) ↔
      ∀ row, row < height → ∀ k, k < rowBytes →
        image1.getD (row * rowBytes + k) 0 = image2.getD (row * rowBytes + k) 0 := by
  have hwindow :=
    window_eq_iff (i := 0) (j := 0) (0 : UInt8) (by omega : 0 + height * rowBytes ≤ image1.length)
    (by omega : 0 + height * rowBytes ≤ image2.length)
  simp only [drop_zero, zero_add] at hwindow
  rw [hwindow, forall_place_iff]

theorem visiblePixelsEqual_iff
    (h1 : Holds image1 stride1 width height bpp)
    (h2 : Holds image2 stride2 width height bpp) :
    visiblePixelsEqual image1 stride1 image2 stride2 width height bpp = true ↔
      VisibleEqual image1 stride1 image2 stride2 width height bpp := by
  have hfits1 := h1.fits
  have hfits2 := h2.fits
  have hrows1 := h1.rows_in
  have hbytes : satMul width bpp = width * bpp := satMul_of_le (by unfold usizeMax; omega)
  unfold visiblePixelsEqual VisibleEqual
  simp only [hbytes]
  split
  · next hnone => exact iff_of_true rfl fun row _ k hk => by omega
  · next hsome =>
    split
    · next hpacked =>
      obtain ⟨rfl, rfl⟩ := hpacked
      have hin1 := h1.packed_in
      have hin2 := h2.packed_in
      rw [satMul_of_le (by unfold usizeMax; omega), decide_eq_true hin1, decide_eq_true hin2,
        Bool.true_and, Bool.true_and, beq_iff_eq]
      exact take_eq_take_iff hin1 hin2
    · rw [all_eq_true]
      refine forall_congr' fun row => ?_
      rw [mem_range]
      refine imp_congr_right fun hrow => ?_
      have hin1 := h1.row_in hrow
      have hin2 := h2.row_in hrow
      rw [satMul_of_le (by unfold usizeMax; omega), satMul_of_le (by unfold usizeMax; omega),
        satAdd_of_le (by unfold usizeMax; omega), satAdd_of_le (by unfold usizeMax; omega),
        sliceGet_of_le hin1, sliceGet_of_le hin2]
      rw [beq_iff_eq]
      exact window_eq_iff 0 hin1 hin2

variable {column row : Nat}

def PixelDiffers (image1 : Bytes) (stride1 : Nat) (image2 : Bytes) (stride2 : Nat)
    (bpp column row : Nat) : Prop :=
  ∃ k < bpp, image1.getD (row * stride1 + (column * bpp + k)) 0 ≠
    image2.getD (row * stride2 + (column * bpp + k)) 0

theorem Holds.sliceGet_columns {stride left span : Nat}
    (h : Holds image stride width height bpp)
    (hrow : row < height)
    (hright : left + span ≤ width) :
    row * stride + left * bpp + span * bpp ≤ image.length ∧
    sliceGet image (row * stride + left * bpp) (row * stride + left * bpp + span * bpp) =
      some ((image.drop (row * stride + left * bpp)).take (span * bpp)) := by
  have hbytes := mul_le_mul_right bpp hright
  have hin := h.row_in hrow
  rw [add_mul] at hbytes
  have hle : row * stride + left * bpp + span * bpp ≤ image.length := by omega
  exact ⟨hle, sliceGet_of_le hle⟩

theorem columns_ne_iff
    (h1 : Holds image1 stride1 width height bpp)
    (h2 : Holds image2 stride2 width height bpp)
    (hrow : row < height)
    {left span : Nat}
    (hright : left + span ≤ width) :
    (image1.drop (row * stride1 + left * bpp)).take (span * bpp) ≠
      (image2.drop (row * stride2 + left * bpp)).take (span * bpp) ↔
      ∃ c < span, PixelDiffers image1 stride1 image2 stride2 bpp (left + c) row := by
  rw [ne_eq,
    window_eq_iff 0 (h1.sliceGet_columns hrow hright).1 (h2.sliceGet_columns hrow hright).1]
  push Not
  rw [exists_place_iff]
  simp only [PixelDiffers, add_mul, add_assoc]

theorem tileDiffers_iff
    (h1 : Holds image1 stride1 width height bpp)
    (h2 : Holds image2 stride2 width height bpp)
    (hleft : tx * tileSize < width) :
    tileDiffers image1 stride1 image2 stride2 bpp (tileRect width height tx ty) = true ↔
      ∃ column row,
        (column < width ∧ row < height) ∧
        (column / tileSize = tx ∧ row / tileSize = ty) ∧
        PixelDiffers image1 stride1 image2 stride2 bpp column row := by
  have hright : tx * tileSize + min tileSize (width - tx * tileSize) ≤ width := by omega
  rw [tileDiffers, any_eq_true]
  constructor
  · rintro ⟨offset, hoffset, hslices⟩
    simp only [tileRect, mem_range] at hoffset hslices
    have hrow : ty * tileSize + offset < height := by omega
    rw [(h1.sliceGet_columns hrow hright).2, (h2.sliceGet_columns hrow hright).2] at hslices
    obtain ⟨c, hc, hdiffers⟩ := (columns_ne_iff h1 h2 hrow hright).mp (bne_iff_ne.mp hslices)
    exact ⟨_, _, ⟨by omega, hrow⟩, ⟨place_div (by omega), place_div (by omega)⟩, hdiffers⟩
  · rintro ⟨column, row, ⟨hcolumn, hrow⟩, ⟨rfl, rfl⟩, hdiffers⟩
    have hx := Nat.div_add_mod' column tileSize
    have hy := Nat.div_add_mod' row tileSize
    have hxlt : column % tileSize < tileSize := mod_lt _ (by decide)
    have hylt : row % tileSize < tileSize := mod_lt _ (by decide)
    refine ⟨row % tileSize, mem_range.mpr ?_, ?_⟩
    · simp only [tileRect]
      omega
    · simp only [tileRect, hy]
      rw [(h1.sliceGet_columns hrow hright).2, (h2.sliceGet_columns hrow hright).2]
      exact bne_iff_ne.mpr
        ((columns_ne_iff h1 h2 hrow hright).mpr ⟨column % tileSize, by omega, by rwa [hx]⟩)

theorem visibleEqual_iff_pixels :
    VisibleEqual image1 stride1 image2 stride2 width height bpp ↔
      ∀ column row, column < width ∧ row < height →
        ¬ PixelDiffers image1 stride1 image2 stride2 bpp column row := by
  unfold VisibleEqual PixelDiffers
  push Not
  constructor
  · exact fun h column row hin => forall_place_iff.mp (h row hin.2) column hin.1
  · exact fun h row hrow => forall_place_iff.mpr fun column hcolumn => h column row ⟨hcolumn, hrow⟩

theorem get_markTiles_tileNumber (differs : Rect → Bool)
    (hcolumn : column < width)
    (hrow : row < height) :
    (markTiles differs width height (divCeil width tileSize) (divCeil height tileSize)).get
      (tileNumber width column row) =
      differs (tileRect width height (column / tileSize) (row / tileSize)) :=
  get_markTiles differs width height (tile_lt hcolumn) (tile_lt hrow)

theorem findDirtyRects_inFrame :
    ∀ rect ∈ findDirtyRects image1 stride1 image2 stride2 width height bpp,
      rect.InFrame width height := by
  unfold findDirtyRects
  split
  · simp
  · split
    · simp
    · exact mergeTiles_inFrame _ _ _

/-- A pixel is covered exactly if its tile holds a changed one. -/
theorem findDirtyRects_contains_iff
    (h1 : Holds image1 stride1 width height bpp)
    (h2 : Holds image2 stride2 width height bpp)
    (column row : Nat) :
    (∃ rect ∈ findDirtyRects image1 stride1 image2 stride2 width height bpp,
       rect.Contains column row) ↔
      (column < width ∧ row < height) ∧
      ∃ column' row',
        (column' < width ∧ row' < height) ∧
        (column' / tileSize = column / tileSize ∧ row' / tileSize = row / tileSize) ∧
        PixelDiffers image1 stride1 image2 stride2 bpp column' row' := by
  unfold findDirtyRects
  split
  · next hempty => exact iff_of_false (fun ⟨_, hmem, _⟩ => not_mem_nil hmem) fun h => by omega
  · split
    · next hequal =>
      have hnone := visibleEqual_iff_pixels.mp ((visiblePixelsEqual_iff h1 h2).mp hequal)
      refine iff_of_false (fun ⟨_, hmem, _⟩ => not_mem_nil hmem) ?_
      rintro ⟨-, column', row', hin, -, hdiffers⟩
      exact hnone column' row' hin hdiffers
    · rw [mergeTiles_contains_iff _ 0 _ (by omega)]
      refine and_congr_right fun hin => ?_
      have hleft : column / tileSize * tileSize < width := by
        unfold tileSize
        omega
      rw [get_markTiles_tileNumber _ hin.1 hin.2, tileDiffers_iff h1 h2 hleft]
      exact and_iff_right (zero_le _)

theorem findDirtyRects_covers
    (h1 : Holds image1 stride1 width height bpp)
    (h2 : Holds image2 stride2 width height bpp)
    {k : Nat}
    (hcolumn : column < width)
    (hrow : row < height)
    (hk : k < bpp)
    (hne : image1.getD (row * stride1 + (column * bpp + k)) 0 ≠
        image2.getD (row * stride2 + (column * bpp + k)) 0) :
    ∃ rect ∈ findDirtyRects image1 stride1 image2 stride2 width height bpp,
      (rect.x ≤ column ∧ column < rect.x + rect.width) ∧
      (rect.y ≤ row ∧ row < rect.y + rect.height) :=
  (findDirtyRects_contains_iff h1 h2 column row).mpr
    ⟨⟨hcolumn, hrow⟩, column, row, ⟨hcolumn, hrow⟩, ⟨rfl, rfl⟩, k, hk, hne⟩

theorem findDirtyRects_disjoint :
    (findDirtyRects image1 stride1 image2 stride2 width height bpp).Pairwise fun first second =>
      ∀ column row, ¬ (first.Contains column row ∧ second.Contains column row) := by
  unfold findDirtyRects
  split
  · exact .nil
  · split
    · exact .nil
    · exact mergeTiles_disjoint _ 0 _ (by omega)

theorem findDirtyRects_eq_nil_iff
    (h1 : Holds image1 stride1 width height bpp)
    (h2 : Holds image2 stride2 width height bpp) :
    findDirtyRects image1 stride1 image2 stride2 width height bpp = [] ↔
      VisibleEqual image1 stride1 image2 stride2 width height bpp := by
  rw [visibleEqual_iff_pixels]
  constructor
  · intro hnil column row hin hdiffers
    obtain ⟨rect, hmem, -⟩ := (findDirtyRects_contains_iff h1 h2 column row).mpr
      ⟨hin, column, row, hin, ⟨rfl, rfl⟩, hdiffers⟩
    rw [hnil] at hmem
    exact not_mem_nil hmem
  · intro hnone
    refine eq_nil_iff_forall_not_mem.mpr fun rect hmem => ?_
    -- a rectangle has its own corner, so a pixel of that tile differs
    obtain ⟨⟨hwidth, -⟩, hheight, -⟩ := findDirtyRects_inFrame rect hmem
    obtain ⟨-, column, row, hin, -, hdiffers⟩ :=
      (findDirtyRects_contains_iff h1 h2 rect.x rect.y).mp
      ⟨rect, hmem, ⟨by omega, by omega⟩, by omega, by omega⟩
    exact hnone column row hin hdiffers

theorem PixelDiffers.congr {image3 image4 : Bytes} {stride3 stride4 : Nat}
    (h13 : VisibleEqual image1 stride1 image3 stride3 width height bpp)
    (h24 : VisibleEqual image2 stride2 image4 stride4 width height bpp)
    (hin : column < width ∧ row < height) :
    PixelDiffers image1 stride1 image2 stride2 bpp column row ↔
      PixelDiffers image3 stride3 image4 stride4 bpp column row := by
  refine exists_congr fun k => and_congr_right fun hk => ?_
  have hbyte := place_lt hk hin.1
  rw [h13 row hin.2 _ hbyte, h24 row hin.2 _ hbyte]

theorem findDirtyRects_congr {image3 image4 : Bytes} {stride3 stride4 : Nat}
    (h1 : Holds image1 stride1 width height bpp)
    (h2 : Holds image2 stride2 width height bpp)
    (h3 : Holds image3 stride3 width height bpp)
    (h4 : Holds image4 stride4 width height bpp)
    (h13 : VisibleEqual image1 stride1 image3 stride3 width height bpp)
    (h24 : VisibleEqual image2 stride2 image4 stride4 width height bpp) :
    findDirtyRects image1 stride1 image2 stride2 width height bpp =
      findDirtyRects image3 stride3 image4 stride4 width height bpp := by
  have hequal : visiblePixelsEqual image1 stride1 image2 stride2 width height bpp =
      visiblePixelsEqual image3 stride3 image4 stride4 width height bpp := by
    rw [Bool.eq_iff_iff, visiblePixelsEqual_iff h1 h2, visiblePixelsEqual_iff h3 h4,
      visibleEqual_iff_pixels, visibleEqual_iff_pixels]
    exact forall₂_congr fun column row => imp_congr_right fun hin =>
      not_congr (PixelDiffers.congr h13 h24 hin)
  have hmark : markTiles (tileDiffers image1 stride1 image2 stride2 bpp) width height
      (divCeil width tileSize)
        (divCeil height tileSize) =
      markTiles (tileDiffers image3 stride3 image4 stride4 bpp) width height
        (divCeil width tileSize)
        (divCeil height tileSize) := by
    refine foldl_ext _ _ _ ?_
    rintro dirty ⟨ty, tx⟩ hmem
    have hleft : tx * tileSize < width := by
      have := (mem_rounds.mp hmem).2
      unfold divCeil tileSize at this
      unfold tileSize
      omega
    congr 1
    rw [Bool.eq_iff_iff, tileDiffers_iff h1 h2 hleft, tileDiffers_iff h3 h4 hleft]
    exact exists₂_congr fun column row => and_congr_right fun hin =>
      and_congr_right fun _ => PixelDiffers.congr h13 h24 hin
  unfold findDirtyRects
  dsimp only
  rw [hequal, hmark]

end Compare
end Kmsrdp.Source.Server.Diff
