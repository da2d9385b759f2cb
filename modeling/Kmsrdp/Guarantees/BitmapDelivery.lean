import Kmsrdp.Client.BitmapPainter
import Kmsrdp.Source.Server.Encode

/-!
# A client paints exactly the bitmap update

`encode_bitmap_update` cuts an update into tiles or strips, upside down and compressed where that
pays, and the batches of rectangles into fragments.
-/
namespace Kmsrdp.Guarantees.BitmapDelivery
open Client.BitmapPainter Library.Bgrx Library.ByteString Library.Chunks Source.Pdu
  Source.Server.Display List
  Nat BitmapUpdateData BitmapUpdate Source.Server.Encode

theorem receivedUpdates_batches (maxRequestSize : Nat) (batches : List (List BitmapRect)) :
    receivedUpdates
      (batches.flatMap fun batch => encodeRectanglesToWireFrames batch maxRequestSize) =
      some (batches.map fun batch => (updateCodeBitmap, encodeRectangles batch)) := by
  have hupdates : ∀ update ∈ batches.map fun batch =>
      (updateCodeBitmap, encodeRectangles batch), update.1 < 16 ∧ update.2 ≠ [] := by
    intro update hupdate
    obtain ⟨batch, -, rfl⟩ := mem_map.mp hupdate
    exact ⟨(by decide : updateCodeBitmap < 16), cons_ne_nil _ _⟩
  rw [← receivedUpdates_encode hupdates maxRequestSize, flatMap_map]
  rfl

theorem foldlM_paintUpdate {batches : List (List BitmapRect)}
    (h : ∀ batch ∈ batches, batch.length < 65536 ∧ ∀ rect ∈ batch, rect.Fits)
    (canvas : Canvas) :
    (batches.map fun batch => (updateCodeBitmap, encodeRectangles batch)).foldlM paintUpdate
      canvas =
      batches.flatten.foldlM paintRect canvas := by
  induction batches generalizing canvas with
  | nil => rfl
  | cons batch rest ih =>
    have hbatch := h batch mem_cons_self
    have hrest := ih fun batch hbatch => h batch (mem_cons_of_mem _ hbatch)
    have hupdate : paintUpdate canvas (updateCodeBitmap, encodeRectangles batch) =
        batch.foldlM paintRect canvas := by
      rw [paintUpdate, if_pos rfl, decode_encodeRectangles hbatch.1 hbatch.2]
    rw [map_cons, foldlM_cons, hupdate, flatten_cons, foldlM_append]
    exact bind_congr hrest

theorem paintFrames_batches (maxRequestSize : Nat) {batches : List (List BitmapRect)}
    (h : ∀ batch ∈ batches, batch.length < 65536 ∧ ∀ rect ∈ batch, rect.Fits) :
    paintFrames (batches.flatMap fun batch => encodeRectanglesToWireFrames batch maxRequestSize) =
      batches.flatten.foldlM paintRect blank := by
  rw [paintFrames_eq_bind, receivedUpdates_batches, Option.bind_some, foldlM_paintUpdate h]

def RowsInside (b : BitmapUpdate) : Prop :=
  ∀ row < b.height.get, (b.srcY.val + row) * b.stride + (b.srcX.val + b.width.get) * 4 ≤ b.data.length

/-- A rectangle of the update, in positions relative to its origin. -/
structure Tile (b : BitmapUpdate) where
  (x y width height : Nat)
  width_pos : 0 < width
  height_pos : 0 < height
  right_le : x + width ≤ b.width.get
  bottom_le : y + height ≤ b.height.get

namespace Tile
variable {b : BitmapUpdate} (tile : Tile b)

def rowPixels (row : Nat) : List Pixel :=
  (List.range tile.width).map fun column => b.pixel (tile.x + column) (tile.y + row)

def pixelsBelow (rows : Nat) : List Pixel := (List.range rows).reverse.flatMap tile.rowPixels

def rowBytes (row : Nat) : Bytes :=
  (b.data.drop ((b.srcY.val + (tile.y + row)) * b.stride + (b.srcX.val + tile.x) * 4)).take
    (tile.width * 4)

variable (hrows : RowsInside b)
include hrows
variable {row : Nat}
section
variable (hrow : row < tile.height)
include hrow

theorem row_end_le :
    (b.srcY.val + (tile.y + row)) * b.stride + (b.srcX.val + tile.x) * 4 + tile.width * 4 ≤
      b.data.length := by
  have hinside := hrows (tile.y + row) (by have := tile.bottom_le; omega)
  have := tile.right_le
  omega

theorem length_rowBytes : (tile.rowBytes row).length = tile.width * 4 := by
  have := tile.row_end_le hrows hrow
  rw [rowBytes, length_take, length_drop]
  omega

theorem pixels_rowBytes : pixels (tile.rowBytes row) = tile.rowPixels row := by
  rw [pixels_eq_map (tile.length_rowBytes hrows hrow)]
  refine map_congr_left fun column hcolumn => ?_
  have hbelow : column < tile.width := mem_range.mp hcolumn
  have hat : ∀ k < 4, (tile.rowBytes row).getD (column * 4 + k) 0 = b.data.getD
      ((b.srcY.val + (tile.y + row)) * b.stride + (b.srcX.val + (tile.x + column)) * 4 + k) 0 := by
    intro k hk
    rw [rowBytes, getD_eq_getElem?_getD, getD_eq_getElem?_getD, getElem?_take, if_pos (by omega),
      getElem?_drop]
    congr 2
    omega
  rw [pixel, pixelAt, pixelAt]
  have h0 := hat 0 (by decide)
  have h1 := hat 1 (by decide)
  have h2 := hat 2 (by decide)
  rw [add_zero] at h0
  rw [h0, h1, h2]
  rfl

theorem sliceGet_row :
    sliceGet b.data (b.srcByteOffset tile.x ((tile.y + row) % 65536))
      (b.srcByteOffset tile.x ((tile.y + row) % 65536) + tile.width * 4) =
      some (tile.rowBytes row) :=
    by
  have hend := tile.row_end_le hrows hrow
  have hfits := b.data_fits
  have hmod : (tile.y + row) % 65536 = tile.y + row := by
    have := tile.bottom_le
    have := b.height.lt
    omega
  have hoffset : b.srcByteOffset tile.x (tile.y + row) =
      (b.srcY.val + (tile.y + row)) * b.stride + (b.srcX.val + tile.x) * 4 := by
    unfold srcByteOffset bytesPerPixel
    apply satAdd_satMul
    unfold usizeMax
    omega
  rw [hmod, hoffset, sliceGet_of_le hend]
  rfl

end

theorem gatherRows_tile {rows : Nat} (hheight : rows ≤ tile.height) (tileScratch : Bytes) :
    ∃ out,
      gatherRows b tile.x tile.y (tile.width * 4) rows tileScratch = (tileScratch ++ out, true) ∧
      out.length = tile.width * rows * 4 ∧
      pixels out = tile.pixelsBelow rows := by
  induction rows generalizing tileScratch with
  | zero => exact ⟨[], by rw [append_nil]; rfl, rfl, rfl⟩
  | succ row ih =>
    obtain ⟨out, hgather, hlength, hpixels⟩ := ih (by omega) (tileScratch ++ tile.rowBytes row)
    have hrow := tile.length_rowBytes hrows hheight
    refine ⟨tile.rowBytes row ++ out, ?_, ?_, ?_⟩
    · rw [gatherRows, tile.sliceGet_row hrows hheight]
      dsimp only
      rw [hgather, append_assoc]
    · rw [length_append, hrow, hlength, Nat.mul_add_one tile.width row]
      omega
    · rw [pixels_append hrow, tile.pixels_rowBytes hrows hheight, hpixels, pixelsBelow, pixelsBelow,
        range_succ, reverse_append, reverse_singleton, flatMap_append,
        flatMap_singleton]

end Tile

theorem tileData_spec (policy : BitmapEncodePolicy) {tileScratch : Bytes} {width height : Nat}
    (hwidth : 0 < width)
    (hheight : 0 < height)
    (hlength : tileScratch.length = width * height * 4)
    (bufferPool : List Bytes) (destLeft destTop destRight destBottom : Nat) :
    let encoded := (tileData policy tileScratch width height bufferPool).1
    rectPixels ⟨destLeft, destTop, destRight, destBottom, width, height, 32, encoded.1, encoded.2⟩ =
        some (pixels tileScratch) ∧
    encoded.1.length ≤ tileScratch.length ∧
    ∀ scanWidth ∈ encoded.2, scanWidth < 65536 := by
  rw [tileData_fst]
  split
  · next hcompressed =>
    refine ⟨?_, le_of_lt hcompressed.2, ?_⟩
    · rw [rectPixels]
      rw [Rdp6.decode_encodeTo hwidth hheight hlength]
      exact congrArg some (pixels_bytes _)
    · intro scanWidth hscan
      cases hscan
      exact mod_lt _ (by decide)
  · exact ⟨rfl, le_refl _, fun scanWidth hscan => by cases hscan⟩

structure Shows {b : BitmapUpdate} (tile : Tile b) (rect : BitmapRect) : Prop where
  fits : rect.Fits
  left : rect.destLeft = b.x.val + tile.x
  top : rect.destTop = b.y.val + tile.y
  right : rect.destRight + 1 = b.x.val + tile.x + tile.width
  bottom : rect.destBottom + 1 = b.y.val + tile.y + tile.height
  width : rect.width = tile.width
  height : rect.height = tile.height
  shown : rectPixels rect = some (tile.pixelsBelow tile.height)

def Tile.Contains {b : BitmapUpdate} (tile : Tile b) (column row : Nat) : Prop :=
  (b.x.val + tile.x ≤ column ∧ column < b.x.val + tile.x + tile.width) ∧
    (b.y.val + tile.y ≤ row ∧ row < b.y.val + tile.y + tile.height)

variable {b : BitmapUpdate}

theorem Tile.getElem?_pixelsBelow (tile : Tile b) (column row : Nat)
    (hcolumn : column < tile.width)
    (hrow : row < tile.height) :
    (tile.pixelsBelow tile.height)[(tile.height - 1 - row) * tile.width + column]? =
      some (b.pixel (tile.x + column) (tile.y + row)) := by
  have hwidth : ∀ row ∈ (range tile.height).reverse, (tile.rowPixels row).length = tile.width := by
    intro row _
    rw [rowPixels, length_map, length_range]
  have hindex : (range tile.height).reverse[tile.height - 1 - row]? = some row := by
    rw [getElem?_reverse (by rw [length_range]; omega), length_range, getElem?_range (by omega)]
    congr 1
    omega
  rw [pixelsBelow, getElem?_flatMap_blocks hwidth hcolumn, hindex, Option.bind_some, rowPixels,
    getElem?_map, getElem?_range hcolumn]
  rfl

theorem paintRect_of_shows {tile : Tile b} {rect : BitmapRect}
    (h : Shows tile rect)
    (canvas : Canvas) :
    ∃ painted,
      paintRect canvas rect = some painted ∧
      (∀ column row, tile.Contains column row →
         painted column row = some (b.pixel (column - b.x.val) (row - b.y.val))) ∧
      ∀ column row, ¬ tile.Contains column row → painted column row = canvas column row := by
  have hcovers : ∀ column row, Covers rect column row ↔ tile.Contains column row := by
    intro column row
    have := h.right
    have := h.bottom
    rw [Covers, Tile.Contains, h.left, h.top, h.width, h.height]
    omega
  refine ⟨paintPixels rect (tile.pixelsBelow tile.height) canvas, ?_, ?_, ?_⟩
  · rw [paintRect, h.shown]
    rfl
  · intro column row hcontains
    obtain ⟨hcolumn, hrow⟩ := hcontains
    have hpixel := tile.getElem?_pixelsBelow (column - (b.x.val + tile.x)) (row - (b.y.val + tile.y))
      (by omega) (by omega)
    rw [paintPixels, if_pos ((hcovers column row).mpr ⟨hcolumn, hrow⟩), h.left, h.top, h.width,
      h.height, hpixel]
    congr 2 <;> omega
  · intro column row hcontains
    rw [paintPixels, if_neg fun hcover => hcontains ((hcovers column row).mp hcover)]

/-- An update that a client screen can hold, with every row in the buffer. -/
structure Drawable (b : BitmapUpdate) : Prop where
  right_le : b.x.val + b.width.get ≤ 65535
  bottom_le : b.y.val + b.height.get ≤ 65535
  rows : RowsInside b

theorem pushBitmapRect_tile (hb : Drawable b) (policy : BitmapEncodePolicy) (tile : Tile b)
    (hsize : tile.width * tile.height * 4 < 65536) (s : EncodeState) :
    let t := pushBitmapRect b policy tile.x tile.y tile.width tile.height s
    t.1.batches = s.1.batches ∧
    ∃ rect, Shows tile rect ∧ t.1.rectangles = s.1.rectangles ++ [rect] := by
  have hwidth := tile.width_pos
  have hheight := tile.height_pos
  have hright := tile.right_le
  have hbottom := tile.bottom_le
  have hscreen := hb.right_le
  have hscreen' := hb.bottom_le
  obtain ⟨out, hgather, hlength, hpixels⟩ :=
    tile.gatherRows_tile hb.rows (le_refl _) (clear s.1.tileScratch)
  have hclear : clear s.1.tileScratch ++ out = out := by rw [clear, take_zero, nil_append]
  have hdata := tileData_spec policy hwidth hheight hlength s.1.bufferPool (b.x.val + tile.x)
    (b.y.val + tile.y) (b.x.val + tile.x + tile.width - 1) (b.y.val + tile.y + tile.height - 1)
  rw [hclear] at hgather
  simp only [pushBitmapRect, hgather, if_true]
  generalize tileData policy out tile.width tile.height s.1.bufferPool = encoded at hdata
  obtain ⟨⟨data, scan⟩, bufferPool⟩ := encoded
  obtain ⟨hshown, hshort, hscan⟩ := hdata
  refine ⟨trivial, _, ?_, rfl⟩
  have hleftEq : (b.x.val + tile.x) % 65536 = b.x.val + tile.x := by omega
  have htopEq : (b.y.val + tile.y) % 65536 = b.y.val + tile.y := by omega
  have hrightEq : (b.x.val + tile.x + tile.width + 65535) % 65536 =
      b.x.val + tile.x + tile.width - 1 := by omega
  have hbottomEq : (b.y.val + tile.y + tile.height + 65535) % 65536 =
      b.y.val + tile.y + tile.height - 1 := by omega
  rw [hleftEq, htopEq, hrightEq, hbottomEq]
  refine
    { fits :=
        { destLeft := ?_, destTop := ?_, destRight := ?_, destBottom := ?_, width := ?_, height := ?_,
          bitsPerPixel := show 32 < 65536 by decide, data := ?_, scanWidth := hscan }
      left := rfl
      top := rfl
      right := ?_
      bottom := ?_
      width := rfl
      height := rfl
      shown := hshown.trans (congrArg some hpixels) } <;> dsimp only at hshort ⊢ <;> omega

/-- The rectangles so far paint the source pixels in the region and write nothing else. -/
structure Painted (b : BitmapUpdate) (region : Nat → Nat → Prop) (s : EncodeState) : Prop where
  batches : s.1.batches = []
  fits : ∀ rect ∈ s.1.rectangles, rect.Fits
  painted : ∃ canvas, s.1.rectangles.foldlM paintRect blank = some canvas ∧
    (∀ column row, region column row →
      canvas column row = some (b.pixel (column - b.x.val) (row - b.y.val))) ∧
    ∀ column row, ¬ region column row → canvas column row = none

variable {s : EncodeState}

theorem Painted.push
    (hb : Drawable b)
    (policy : BitmapEncodePolicy) (tile : Tile b)
    (hsize : tile.width * tile.height * 4 < 65536)
    {region region' : Nat → Nat → Prop}
    (hregion : ∀ column row, region' column row ↔ region column row ∨ tile.Contains column row)
    (h : Painted b region s) :
    Painted b region' (pushBitmapRect b policy tile.x tile.y tile.width tile.height s) := by
  obtain ⟨hbatches, rect, hshows, hrectangles⟩ := pushBitmapRect_tile hb policy tile hsize s
  obtain ⟨canvas, hcanvas, hinside, houtside⟩ := h.painted
  obtain ⟨painted, hpaint, htile, hother⟩ := paintRect_of_shows hshows canvas
  refine ⟨hbatches.trans h.batches, ?_, painted, ?_, ?_, ?_⟩
  · intro other hmem
    rw [hrectangles] at hmem
    rcases mem_append.mp hmem with hmem | hmem
    · exact h.fits other hmem
    · rw [mem_singleton.mp hmem]
      exact hshows.fits
  · rw [hrectangles, foldlM_append, hcanvas, Option.bind_eq_bind, Option.bind_some, foldlM_cons, hpaint]
    rfl
  · intro column row hmem
    by_cases hnew : tile.Contains column row
    · exact htile column row hnew
    · rw [hother column row hnew]
      exact hinside column row (((hregion column row).mp hmem).resolve_right hnew)
  · intro column row hmem
    rw [hregion] at hmem
    rw [hother column row fun hnew => hmem (.inr hnew)]
    exact houtside column row fun hold => hmem (.inl hold)

def TopRows (b : BitmapUpdate) (rows column row : Nat) : Prop :=
  (b.x.val ≤ column ∧ column < b.x.val + b.width.get) ∧ (b.y.val ≤ row ∧ row < b.y.val + rows)

/-- The rows above a row of tiles, and the first `columns` columns of that row. -/
def PartialRow (b : BitmapUpdate) (tileY tileHeight columns column row : Nat) : Prop :=
  TopRows b tileY column row ∨
    (b.x.val ≤ column ∧ column < b.x.val + columns) ∧
      (b.y.val + tileY ≤ row ∧ row < b.y.val + tileY + tileHeight)

theorem Painted.congr {region region' : Nat → Nat → Prop}
    (hregion : ∀ column row, region column row ↔ region' column row)
    (h : Painted b region s) : Painted b region' s := by
  have heq : region = region' := funext fun column => funext fun row => propext (hregion column row)
  exact heq ▸ h

variable {tileY tileHeight : Nat}

theorem partialRow_zero (column row : Nat) :
    TopRows b tileY column row ↔ PartialRow b tileY tileHeight 0 column row := by
  unfold PartialRow TopRows
  omega

theorem partialRow_width (column row : Nat) :
    PartialRow b tileY tileHeight b.width.get column row ↔
      TopRows b (tileY + tileHeight) column row := by
  unfold PartialRow TopRows
  omega

theorem Painted.pushTile
    (hb : Drawable b)
    (policy : BitmapEncodePolicy) {tileX tileWidth : Nat}
    (hwidth : 0 < tileWidth)
    (hheight : 0 < tileHeight)
    (hright : tileX + tileWidth ≤ b.width.get)
    (hbottom : tileY + tileHeight ≤ b.height.get)
    (hsize : tileWidth * tileHeight * 4 < 65536)
    (h : Painted b (PartialRow b tileY tileHeight tileX) s) :
    Painted b (PartialRow b tileY tileHeight (tileX + tileWidth))
      (pushBitmapRect b policy tileX tileY tileWidth tileHeight s) := by
  refine h.push hb policy ⟨tileX, tileY, tileWidth, tileHeight, hwidth, hheight, hright, hbottom⟩ hsize
    fun column row => ?_
  unfold PartialRow TopRows Tile.Contains
  dsimp only
  omega

theorem tileSize_bounds {position limit : Nat} (h : position < limit) :
    0 < min tileSize (limit - position) ∧
    min tileSize (limit - position) ≤ 64 ∧
    position + min tileSize (limit - position) ≤ limit := by
  unfold tileSize
  omega

theorem painted_tileRow
    (hb : Drawable b)
    (policy : BitmapEncodePolicy)
    (htileY : tileY < b.height.get)
    (h : Painted b (TopRows b tileY) s) :
    Painted b (TopRows b (tileY + min tileSize (b.height.get - tileY)))
      ((offsets tileSize b.width.get).foldl
         (fun s tileX =>
            pushBitmapRect b policy tileX tileY (min tileSize (b.width.get - tileX))
              (min tileSize (b.height.get - tileY)) s) s) := by
  obtain ⟨hheight, hheightLe, hbottom⟩ := tileSize_bounds htileY
  generalize min tileSize (b.height.get - tileY) = tileHeight at hheight hheightLe hbottom ⊢
  refine Painted.congr partialRow_width (foldl_offsets_rule (by decide)
    (fun columns => Painted b (PartialRow b tileY tileHeight columns)) ?_ (h.congr partialRow_zero))
  intro tileX s hlt hs
  obtain ⟨htileWidth, hwidthLe, hright⟩ := tileSize_bounds hlt
  have hsize : min tileSize (b.width.get - tileX) * tileHeight * 4 ≤ 64 * 64 * 4 :=
    Nat.mul_le_mul_right 4 (Nat.mul_le_mul hwidthLe hheightLe)
  exact hs.pushTile hb policy htileWidth hheight hright hbottom (by omega)

theorem painted_strip
    (hb : Drawable b)
    (policy : BitmapEncodePolicy) {stripHeight : Nat}
    (hstrip : 0 < stripHeight)
    (hfits : b.width.get * stripHeight * 4 < 65536)
    (htileY : tileY < b.height.get)
    (h : Painted b (TopRows b tileY) s) :
    Painted b (TopRows b (tileY + min stripHeight (b.height.get - tileY)))
      (pushBitmapRect b policy 0 tileY b.width.get (min stripHeight (b.height.get - tileY)) s) := by
  have hsize : b.width.get * min stripHeight (b.height.get - tileY) * 4 ≤
      b.width.get * stripHeight * 4 :=
    mul_le_mul_right 4 (mul_le_mul_left _ (min_le_left _ _))
  have hpush := (h.congr partialRow_zero).pushTile hb policy b.width.pos
    (show 0 < min stripHeight (b.height.get - tileY) by omega) (zero_add _).le (by omega)
    (by omega)
  rw [zero_add] at hpush
  exact hpush.congr partialRow_width

/-- What the update asks a client to paint. -/
def painting (b : BitmapUpdate) : Canvas := fun column row =>
  if b.Contains column row then some (b.pixel (column - b.x.val) (row - b.y.val)) else none

theorem maxRectsPerUpdate_bounds (clientName : String) (advertised : Option Nat) :
    let policy := bitmapEncodePolicy clientName none (sessionMaxRequestSize advertised)
    0 < policy.maxRectsPerUpdate ∧ policy.maxRectsPerUpdate < 65536 := by
  have hsize : sessionMaxRequestSize advertised ≤ 8388608 := by
    unfold sessionMaxRequestSize serverMfu maxFastpathChunkSize
    omega
  simp only [bitmapEncodePolicy, compatMaxRectsPerUpdate]
  split <;> omega

theorem paintFrames_batchAll {policy : BitmapEncodePolicy}
    (hpos : 0 < policy.maxRectsPerUpdate)
    (hlt : policy.maxRectsPerUpdate < 65536)
    (h : Painted b (TopRows b b.height.get) s) :
    paintFrames (batchAll policy s).1.batches.flatten = some (painting b) := by
  have hmax : 0 < min policy.maxRectsPerUpdate (max s.1.rectangles.length 1) ∧
      min policy.maxRectsPerUpdate (max s.1.rectangles.length 1) < 65536 := by omega
  unfold batchAll
  generalize min policy.maxRectsPerUpdate (max s.1.rectangles.length 1) = maxRects at hmax
  obtain ⟨canvas, hcanvas, hinside, houtside⟩ := h.painted
  have hfits : ∀ batch ∈ chunks maxRects s.1.rectangles, batch.length < 65536 ∧
      ∀ rect ∈ batch, rect.Fits := by
    intro batch hbatch
    refine ⟨lt_of_le_of_lt (length_le_of_mem_chunks hbatch) hmax.2, fun rect hrect => ?_⟩
    apply h.fits
    rw [← flatten_chunks hmax.1 s.1.rectangles]
    exact mem_flatten_of_mem hbatch hrect
  rw [batches_batchRectangles, h.batches, nil_append, ← flatMap_def,
    paintFrames_batches policy.maxRequestSize hfits, flatten_chunks hmax.1, hcanvas]
  congr 1
  funext column row
  unfold painting
  split
  · next hcontains => exact hinside column row hcontains
  · next hcontains => exact houtside column row hcontains

theorem painted_recycle (b : BitmapUpdate) (scratch : EncodeScratch) (stats : BitmapWireStats) :
    Painted b (TopRows b 0) (recycle scratch, stats) where
  batches := rfl
  fits := fun rect hrect => nomatch hrect
  painted := by
    refine ⟨blank, rfl, fun column row hmem => ?_, fun _ _ _ => rfl⟩
    unfold TopRows at hmem
    omega

theorem painted_pushTiles
    (hb : Drawable b)
    (hwidth : b.width.get ≤ 16383)
    (hheight : b.height.get ≤ 65472)
    (policy : BitmapEncodePolicy)
    (h : Painted b (TopRows b 0) s) :
    ∃ t, pushTiles b policy s = some t ∧ Painted b (TopRows b b.height.get) t := by
  unfold pushTiles
  split
  · refine ⟨_, tileLoop_eq_foldl (by omega) hheight s, ?_⟩
    apply foldl_offsets_rule (by decide) (fun rows => Painted b (TopRows b rows)) _ h
    intro tileY s hlt hs
    exact painted_tileRow hb policy hlt hs
  · obtain ⟨hstrip, hfits⟩ := maxRawStripHeight_fits b.width.pos hwidth
    refine ⟨_, stripLoop_eq_foldl b.height.lt hstrip s, ?_⟩
    apply foldl_offsets_rule hstrip (fun rows => Painted b (TopRows b rows)) _ h
    intro tileY s hlt hs
    exact painted_strip hb policy hstrip hfits hlt hs

/-- Under any policy that a session builds without NSCodec, and whatever is left in the scratch
buffers, the encoder returns frames from which a client paints exactly the update. -/
theorem client_paints_bitmap_update (b : BitmapUpdate)
    (hwidth : b.width.get ≤ 16383)
    (hheight : b.height.get ≤ 65472)
    (hb : Drawable b)
    (clientName : String) (advertised : Option Nat) (scratch : EncodeScratch) :
    ∃ stats scratch',
      encodeBitmapUpdate b (bitmapEncodePolicy clientName none (sessionMaxRequestSize advertised))
        scratch =
        some (stats, scratch') ∧
      paintFrames scratch'.batches.flatten = some (painting b) := by
  obtain ⟨hpos, hlt⟩ := maxRectsPerUpdate_bounds clientName advertised
  generalize bitmapEncodePolicy clientName none (sessionMaxRequestSize advertised) = policy
    at hpos hlt ⊢
  obtain ⟨t, hpush, hpainted⟩ := painted_pushTiles hb hwidth hheight policy
    (painted_recycle b scratch ⟨0, 0, 0, 0, 0⟩)
  refine ⟨(batchAll policy t).2, (batchAll policy t).1, ?_, paintFrames_batchAll hpos hlt hpainted⟩
  rw [encodeBitmapUpdate, hpush]
  rfl

def paddedView : BitmapUpdate :=
  { x := 100, y := 65500, width := ⟨4, by decide, by decide⟩, height := ⟨2, by decide, by decide⟩
    format := .bgrX32, data := (List.range 48).map UInt8.ofNat, stride := 24, srcX := 1, srcY := 0
    stride_pos := by decide, stride_le := by decide, data_fits := by decide }

theorem drawable_paddedView : Drawable paddedView where
  right_le := by decide
  bottom_le := by decide
  rows := by
    have hall : ∀ row < 2, (0 + row) * 24 + (1 + 4) * 4 ≤ 48 := by decide
    exact hall

theorem client_paints_paddedView :
    Drawable paddedView ∧
    ∃ stats scratch',
      encodeBitmapUpdate paddedView
        (bitmapEncodePolicy "desktop" none (sessionMaxRequestSize (some 65536)))
        ⟨[], [1, 2, 3], [[[4]]], [[5, 6], [7]]⟩ =
        some (stats, scratch') ∧
      paintFrames scratch'.batches.flatten = some (painting paddedView) :=
  ⟨drawable_paddedView, client_paints_bitmap_update paddedView (by decide) (by decide)
    drawable_paddedView "desktop" (some 65536) ⟨[], [1, 2, 3], [[[4]]], [[5, 6], [7]]⟩⟩

end Kmsrdp.Guarantees.BitmapDelivery
