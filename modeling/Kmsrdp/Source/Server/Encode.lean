import Mathlib.Data.List.Infix
import Kmsrdp.Source.Pdu.BitmapRect
import Kmsrdp.Source.Pdu.NsCodec
import Kmsrdp.Source.Pdu.Rdp6
import Kmsrdp.Source.Pdu.Share
import Kmsrdp.Source.Server.Display
import Kmsrdp.Source.Server.Fragments

/-!
# Encoding a bitmap update

Model of `bitmap_encode_policy`, `encode_bitmap_update`, `push_bitmap_rect` and
`encode_nscodec_update` in `rdpcore-server/src/encode.rs`, and of the clamp of `MaxRequestSize` in
`session_loop.rs`. Positions are `u16` and wrap; one that does not reach its bound in 65536 rounds
never does, and such a call has no result here.
-/
namespace Kmsrdp.Source.Server.Encode
open Library.ByteString Library.Chunks Source.Pdu Source.Server.Display Source.Server.Fragments List
  Nat Option

def clientNeedsCompatWorkarounds (clientName : String) : Bool :=
  let n := clientName.toList.map Char.toLower
  "mac".toList <:+: n || "darwin".toList <:+: n || "iphone".toList <:+: n || "ipad".toList <:+: n

def tileSize : Nat := 64
def compatMaxRectsPerUpdate : Nat := 32

structure BitmapEncodePolicy where
  useRdp6Planar : Bool
  maxRectsPerUpdate : Nat
  nscodec : Option (UInt8 × Nat)
  maxRequestSize : Nat
  deriving DecidableEq

def bitmapEncodePolicy (clientName : String) (nscodec : Option NsCodecNegotiated)
    (maxRequestSize : Nat) : BitmapEncodePolicy :=
  let nscodecParams := nscodec.map fun n => (n.codecId, n.colorLossLevel)
  let nameCompat := clientNeedsCompatWorkarounds clientName
  let compatLimits := nscodecParams.isSome || nameCompat
  let sizeLimitedRects := max (maxRequestSize / 8192) 1
  { useRdp6Planar := nscodecParams.isNone && !nameCompat
    maxRectsPerUpdate :=
      if compatLimits then min compatMaxRectsPerUpdate sizeLimitedRects else sizeLimitedRects
    nscodec := nscodecParams
    maxRequestSize := maxRequestSize }

def serverMfu : Nat := 8 * 1024 * 1024

def sessionMaxRequestSize (advertised : Option Nat) : Nat :=
  max (min (advertised.getD serverMfu) serverMfu) maxFastpathChunkSize

structure BitmapWireStats where
  (tiles compressedTiles rawTiles encodedBytes updateBatches : Nat)

structure EncodeScratch where
  rectangles : List BitmapRect
  tileScratch : Bytes
  batches : List (List Bytes)
  bufferPool : List Bytes

def popBuffer (pool : List Bytes) : Bytes × List Bytes := (pool.getLastD [], pool.dropLast)

def clear (buf : Bytes) : Bytes := buf.take 0

def pooledCopy (pool : List Bytes) (src : Bytes) : Bytes × List Bytes :=
  let (buf, pool) := popBuffer pool
  (clear buf ++ src, pool)

/-- The rows below `row`, from the bottom up, appended to the scratch; the flag says whether
all of them lie in the buffer. -/
def gatherRows (bitmap : BitmapUpdate) (tileX tileY tileRowBytes : Nat) : Nat → Bytes → Bytes × Bool
  | 0, tileScratch => (tileScratch, true)
  | row + 1, tileScratch =>
    let srcStart := bitmap.srcByteOffset tileX ((tileY + row) % 65536)
    match sliceGet bitmap.data srcStart (srcStart + tileRowBytes) with
    | none => (tileScratch, false)
    | some slice => gatherRows bitmap tileX tileY tileRowBytes row (tileScratch ++ slice)

variable {bitmap : BitmapUpdate}

theorem length_gatherRows {tileX tileY tileRowBytes rows : Nat} {tileScratch pixels : Bytes}
    (h : gatherRows bitmap tileX tileY tileRowBytes rows tileScratch = (pixels, true)) :
    pixels.length = tileScratch.length + tileRowBytes * rows := by
  induction rows generalizing tileScratch with
  | zero =>
    obtain ⟨rfl, -⟩ := Prod.mk.inj h
    rfl
  | succ row ih =>
    rw [gatherRows] at h
    cases hslice : sliceGet bitmap.data (bitmap.srcByteOffset tileX ((tileY + row) % 65536))
        (bitmap.srcByteOffset tileX ((tileY + row) % 65536) + tileRowBytes) with
    | none =>
      rw [hslice] at h
      cases h
    | some slice =>
      rw [hslice] at h
      have hlength : slice.length = tileRowBytes := by
        unfold sliceGet at hslice
        split at hslice
        · obtain rfl := some.inj hslice
          rw [length_take, length_drop]
          omega
        · cases hslice
      rw [ih h, length_append, hlength, mul_add_one]
      omega

def tileData (policy : BitmapEncodePolicy) (tileScratch : Bytes) (tileWidth tileHeight : Nat)
    (bufferPool : List Bytes) : (Bytes × Option Nat) × List Bytes :=
  if policy.useRdp6Planar && tileWidth % 4 == 0 then
    let (compressed, bufferPool) := popBuffer bufferPool
    let compressed := clear compressed ++ Rdp6.encodeTo tileScratch tileWidth tileHeight
    if compressed.length < tileScratch.length then
      ((compressed, some (tileWidth * 4 % 65536)), bufferPool)
    else
      let (copy, bufferPool) := pooledCopy (bufferPool ++ [compressed]) tileScratch
      ((copy, none), bufferPool)
  else
    let (copy, bufferPool) := pooledCopy bufferPool tileScratch
    ((copy, none), bufferPool)

theorem tileData_fst (policy : BitmapEncodePolicy) (tileScratch : Bytes)
    (tileWidth tileHeight : Nat) (bufferPool : List Bytes) :
    (tileData policy tileScratch tileWidth tileHeight bufferPool).1 =
      if (policy.useRdp6Planar && tileWidth % 4 == 0) ∧
          (Rdp6.encodeTo tileScratch tileWidth tileHeight).length < tileScratch.length then
        (Rdp6.encodeTo tileScratch tileWidth tileHeight, some (tileWidth * 4 % 65536))
      else (tileScratch, none) := by
  unfold tileData pooledCopy popBuffer clear
  dsimp only
  rw [take_zero, nil_append, take_zero, nil_append]
  split
  · next hplanar =>
    split
    · next hshort => rw [if_pos ⟨hplanar, hshort⟩]
    · next hlong => rw [if_neg fun h => hlong h.2]
  · next hraw => rw [if_neg fun h => hraw h.1]

abbrev EncodeState := EncodeScratch × BitmapWireStats

def pushBitmapRect (bitmap : BitmapUpdate) (policy : BitmapEncodePolicy)
    (tileX tileY tileWidth tileHeight : Nat) (s : EncodeState) : EncodeState :=
  let (scratch, stats) := s
  let (tileScratch, complete) :=
    gatherRows bitmap tileX tileY (tileWidth * 4) tileHeight (clear scratch.tileScratch)
  if complete then
    let ((data, compressedScanWidth), bufferPool) :=
      tileData policy tileScratch tileWidth tileHeight scratch.bufferPool
    let rect : BitmapRect :=
      { destLeft := (bitmap.x.val + tileX) % 65536
        destTop := (bitmap.y.val + tileY) % 65536
        destRight := (bitmap.x.val + tileX + tileWidth + 65535) % 65536
        destBottom := (bitmap.y.val + tileY + tileHeight + 65535) % 65536
        width := tileWidth
        height := tileHeight
        bitsPerPixel := 32
        data := data
        compressedScanWidth := compressedScanWidth }
    ({ scratch with
        rectangles := scratch.rectangles ++ [rect]
        tileScratch := tileScratch
        bufferPool := bufferPool },
      { stats with
        tiles := stats.tiles + 1
        compressedTiles := stats.compressedTiles + if compressedScanWidth.isSome then 1 else 0
        rawTiles := stats.rawTiles + if compressedScanWidth.isSome then 0 else 1 })
  else
    -- a row outside the buffer: the tile is skipped
    ({ scratch with tileScratch := tileScratch }, stats)

def maxRawStripHeight (width : Nat) : Nat :=
  let rowBytes := width * 4
  if rowBytes = 0 then 1 else max (65535 / rowBytes) 1 % 65536

section Loops

-- the loops are parametric in what they do with a tile
variable {σ : Type} (push : Nat → Nat → Nat → Nat → σ → σ) (width height : Nat)

def tileRowLoop (tileY tileHeight : Nat) : Nat → Nat → σ → Option σ
  | 0, _, _ => none
  | fuel + 1, tileX, s =>
    if tileX < width then
      tileRowLoop tileY tileHeight fuel ((tileX + tileSize) % 65536)
        (push tileX tileY (min tileSize (width - tileX)) tileHeight s)
    else some s

def tileLoop : Nat → Nat → σ → Option σ
  | 0, _, _ => none
  | fuel + 1, tileY, s =>
    if tileY < height then do
      let s ← tileRowLoop push width tileY (min tileSize (height - tileY)) 65536 0 s
      tileLoop fuel ((tileY + tileSize) % 65536) s
    else some s

def stripLoop (stripHeight : Nat) : Nat → Nat → σ → Option σ
  | 0, _, _ => none
  | fuel + 1, tileY, s =>
    if tileY < height then
      let th := min stripHeight (height - tileY)
      stripLoop stripHeight fuel ((tileY + th) % 65536) (push 0 tileY width th s)
    else some s

variable {push width height}

/-! A loop that ends is the fold over the positions that it visits. A loop over tiles whose
positions reach the wrap starts again at zero, and so does not end. -/

def offsets (size limit : Nat) : List Nat := (List.range ((limit + size - 1) / size)).map (· * size)

variable {size : Nat}

theorem lt_count_iff (hsize : 0 < size) (limit k : Nat) :
    k < (limit + size - 1) / size ↔ k * size < limit := by
  rw [lt_iff_add_one_le, le_div_iff_mul_le hsize, add_one_mul]
  omega

variable {limit : Nat}

theorem foldl_offsets_rule
    (hsize : 0 < size)
    {body : σ → Nat → σ} (inv : Nat → σ → Prop)
    (hbody : ∀ position s, position < limit → inv position s →
        inv (position + min size (limit - position)) (body s position))
    {s : σ} (hs : inv 0 s) : inv limit ((offsets size limit).foldl body s) := by
  have hcount := lt_count_iff hsize limit
  have hupTo : ∀ n ≤ (limit + size - 1) / size,
      inv (min (n * size) limit) (((range n).map (· * size)).foldl body s) := by
    intro n
    induction n with
    | zero =>
      intro _
      rwa [Nat.zero_mul, Nat.zero_min]
    | succ n ih =>
      intro hn
      have hlt := (hcount n).mp hn
      have hnext := ih (Nat.le_of_succ_le hn)
      rw [Nat.min_eq_left (Nat.le_of_lt hlt)] at hnext
      have hdone : min ((n + 1) * size) limit = n * size + min size (limit - n * size) := by
        rw [Nat.add_one_mul]
        omega
      rw [hdone, range_succ, map_append, foldl_append]
      exact hbody _ _ hlt hnext
  have hall := hupTo _ (Nat.le_refl _)
  rwa [Nat.min_eq_right (Nat.le_of_not_lt fun hlt => Nat.lt_irrefl _ ((hcount _).mpr hlt))] at hall

/-- A loop that steps through the offsets is the fold over them. -/
theorem loop_eq_foldl (loop : Nat → Nat → σ → Option σ) (body : Nat → σ → σ)
    (hsize : 0 < size)
    (hstop : ∀ fuel position s, limit ≤ position → loop (fuel + 1) position s = some s)
    (hstep : ∀ fuel k s, k * size < limit → ∃ next,
        (next = (k + 1) * size ∨ limit ≤ (k + 1) * size ∧ limit ≤ next) ∧
        loop (fuel + 1) (k * size) s = loop fuel next (body (k * size) s))
    {fuel : Nat}
    (hfuel : limit < fuel)
    (s : σ) :
    loop fuel 0 s = some ((offsets size limit).foldl (fun s position => body position s) s) := by
  have hcount := lt_count_iff hsize limit
  have hle : (limit + size - 1) / size ≤ limit := by
    have hpast := (hcount limit).not.mpr (Nat.not_lt.mpr (Nat.le_mul_of_pos_right limit hsize))
    omega
  -- `left` positions are to come, the next of them with number `k`
  have hfrom : ∀ left fuel k position s, k + left = (limit + size - 1) / size → left < fuel →
      position = k * size ∨ left = 0 ∧ limit ≤ position →
      loop fuel position s =
        some (((range' k left).map (· * size)).foldl (fun s position => body position s) s) := by
    intro left
    induction left with
    | zero =>
      intro fuel k position s hk hfuel hposition
      obtain ⟨fuel, rfl⟩ : ∃ n, fuel = n + 1 := ⟨fuel - 1, by omega⟩
      have hpast : limit ≤ position := by
        rcases hposition with rfl | ⟨-, hpast⟩
        · have := hcount k
          omega
        · exact hpast
      rw [hstop fuel position s hpast]
      rfl
    | succ left ih =>
      intro fuel k position s hk hfuel hposition
      obtain ⟨fuel, rfl⟩ : ∃ n, fuel = n + 1 := ⟨fuel - 1, by omega⟩
      obtain rfl : position = k * size := by omega
      obtain ⟨next, hnext, hround⟩ := hstep fuel k s ((hcount k).mp (by omega))
      have := hcount (k + 1)
      rw [hround, ih fuel (k + 1) next _ (by omega) (by omega) (by omega), range'_succ]
      rfl
  rw [offsets, range_eq_range']
  exact hfrom _ fuel 0 0 s (zero_add _) (by omega) (.inl (zero_mul _).symm)

theorem next_tile {k : Nat} (hlimit : limit ≤ 65472) (hlt : k * tileSize < limit) :
    (k * tileSize + tileSize) % 65536 = (k + 1) * tileSize := by
  rw [add_one_mul]
  unfold tileSize at hlt ⊢
  omega

theorem tileRowLoop_eq_foldl (tileY tileHeight : Nat) (hwidth : width ≤ 65472) (s : σ) :
    tileRowLoop push width tileY tileHeight 65536 0 s =
      some
        ((offsets tileSize width).foldl
           (fun s tileX => push tileX tileY (min tileSize (width - tileX)) tileHeight s) s) := by
  refine loop_eq_foldl (tileRowLoop push width tileY tileHeight)
    (fun tileX s => push tileX tileY (min tileSize (width - tileX)) tileHeight s) (by decide) ?_ ?_
    (by omega) s
  · intro fuel tileX s hpast
    rw [tileRowLoop, if_neg (by omega)]
  · intro fuel k s hlt
    refine ⟨_, .inl rfl, ?_⟩
    rw [tileRowLoop, if_pos hlt, next_tile hwidth hlt]

theorem tileLoop_eq_foldl (hwidth : width ≤ 65472) (hheight : height ≤ 65472) (s : σ) :
    tileLoop push width height 65536 0 s =
      some
        ((offsets tileSize height).foldl
           (fun s tileY =>
              (offsets tileSize width).foldl
                (fun s tileX =>
                   push tileX tileY (min tileSize (width - tileX)) (min tileSize (height - tileY))
                     s) s) s) := by
  refine loop_eq_foldl (tileLoop push width height)
    (fun tileY s => (offsets tileSize width).foldl (fun s tileX =>
      push tileX tileY (min tileSize (width - tileX)) (min tileSize (height - tileY)) s) s)
    (by decide) ?_ ?_ (by omega) s
  · intro fuel tileY s hpast
    rw [tileLoop, if_neg (by omega)]
  · intro fuel k s hlt
    refine ⟨_, .inl rfl, ?_⟩
    rw [tileLoop, if_pos hlt, tileRowLoop_eq_foldl _ _ hwidth, next_tile hheight hlt]
    rfl

theorem stripLoop_eq_foldl {stripHeight : Nat}
    (hheight : height < 65536)
    (hstrip : 0 < stripHeight)
    (s : σ) :
    stripLoop push width height stripHeight 65536 0 s =
      some
        ((offsets stripHeight height).foldl
           (fun s tileY => push 0 tileY width (min stripHeight (height - tileY)) s) s) := by
  refine loop_eq_foldl (stripLoop push width height stripHeight)
    (fun tileY s => push 0 tileY width (min stripHeight (height - tileY)) s) hstrip ?_ ?_ hheight s
  · intro fuel tileY s hpast
    rw [stripLoop, if_neg (by omega)]
  · intro fuel k s hlt
    refine ⟨(k * stripHeight + min stripHeight (height - k * stripHeight)) % 65536, ?_, ?_⟩
    · rw [add_one_mul]
      omega
    · rw [stripLoop, if_pos hlt]

theorem tileRowLoop_none (tileY tileHeight : Nat)
    (hwidth : 65472 < width)
    (fuel : Nat) {tileX : Nat}
    (htileX : tileX % tileSize = 0)
    (hlt : tileX < 65536)
    (s : σ) : tileRowLoop push width tileY tileHeight fuel tileX s = none := by
  unfold tileSize at htileX
  induction fuel generalizing tileX s with
  | zero => rfl
  | succ fuel ih =>
    rw [tileRowLoop, if_pos (by omega)]
    exact ih (by unfold tileSize; omega) (by omega) _

theorem tileLoop_none_of_width
    (hwidth : 65472 < width)
    (hheight : 0 < height)
    (fuel : Nat) (s : σ) : tileLoop push width height fuel 0 s = none := by
  cases fuel with
  | zero => rfl
  | succ fuel =>
    rw [tileLoop, if_pos hheight, tileRowLoop_none _ _ hwidth _ rfl (by decide)]
    rfl

theorem tileLoop_none_of_height
    (hwidth : width ≤ 65472)
    (hheight : 65472 < height)
    (fuel : Nat) {tileY : Nat}
    (htileY : tileY % tileSize = 0)
    (hlt : tileY < 65536)
    (s : σ) : tileLoop push width height fuel tileY s = none := by
  unfold tileSize at htileY
  induction fuel generalizing tileY s with
  | zero => rfl
  | succ fuel ih =>
    rw [tileLoop, if_pos (by omega), tileRowLoop_eq_foldl _ _ hwidth, bind_eq_bind, bind_some]
    exact ih (by unfold tileSize; omega) (by omega) _

end Loops

theorem maxRawStripHeight_pos {width : Nat} (hpos : 0 < width) : 0 < maxRawStripHeight width := by
  have hle : 65535 / (width * 4) ≤ 65535 := div_le_self _ _
  rw [maxRawStripHeight, if_neg (by omega), mod_eq_of_lt (by omega)]
  omega

theorem maxRawStripHeight_fits {width : Nat} (hpos : 0 < width) (hwidth : width ≤ 16383) :
    0 < maxRawStripHeight width ∧ width * maxRawStripHeight width * 4 < 65536 := by
  have hrow : 1 ≤ 65535 / (width * 4) := (Nat.one_le_div_iff (by omega)).mpr (by omega)
  have hle : 65535 / (width * 4) ≤ 65535 := Nat.div_le_self _ _
  have hstrip : maxRawStripHeight width = 65535 / (width * 4) := by
    rw [maxRawStripHeight, if_neg (by omega), Nat.max_eq_left hrow, Nat.mod_eq_of_lt (by omega)]
  have hmul : width * 4 * (65535 / (width * 4)) ≤ 65535 := Nat.mul_div_le _ _
  rw [hstrip]
  refine ⟨hrow, ?_⟩
  rw [Nat.mul_right_comm]
  omega

def encodeRectanglesToWireFrames (rectangles : List BitmapRect) (maxRequestSize : Nat) :
    List Bytes :=
  encodeUpdateToWireFrames updateCodeBitmap (BitmapUpdateData.encodeRectangles rectangles)
    maxRequestSize

def batchRectangles (maxRequestSize : Nat) : List (List BitmapRect) → EncodeState → EncodeState
  | [], s => s
  | chunk :: rest, (scratch, stats) =>
    batchRectangles maxRequestSize rest
      ({ scratch with
          batches := scratch.batches ++ [encodeRectanglesToWireFrames chunk maxRequestSize] },
        { stats with
          encodedBytes := stats.encodedBytes + (chunk.map fun r => r.data.length).sum
          updateBatches := stats.updateBatches + 1 })

theorem batches_batchRectangles (maxRequestSize : Nat) (batches : List (List BitmapRect))
    (s : EncodeState) :
    (batchRectangles maxRequestSize batches s).1.batches =
      s.1.batches ++
        batches.map fun chunk => encodeRectanglesToWireFrames chunk maxRequestSize := by
  induction batches generalizing s with
  | nil => simp [batchRectangles]
  | cons chunk rest ih => simp [batchRectangles, ih]

def recycle (scratch : EncodeScratch) : EncodeScratch :=
  { rectangles := []
    tileScratch := clear scratch.tileScratch
    batches := []
    bufferPool := scratch.bufferPool ++ scratch.rectangles.map BitmapRect.data }

def pushTiles (bitmap : BitmapUpdate) (policy : BitmapEncodePolicy) (s : EncodeState) :
    Option EncodeState :=
  let width := bitmap.width.get
  let height := bitmap.height.get
  if policy.useRdp6Planar then tileLoop (pushBitmapRect bitmap policy) width height 65536 0 s
  else
    stripLoop (pushBitmapRect bitmap policy) width height (maxRawStripHeight width) 65536 0 s

structure Piece where
  (tileX tileY tileWidth tileHeight : Nat)
  deriving DecidableEq

def pieces (bitmap : BitmapUpdate) (policy : BitmapEncodePolicy) : List Piece :=
  let width := bitmap.width.get
  let height := bitmap.height.get
  if policy.useRdp6Planar then
    (offsets tileSize height).flatMap fun tileY => (offsets tileSize width).map fun tileX =>
      ⟨tileX, tileY, min tileSize (width - tileX), min tileSize (height - tileY)⟩
  else
    (offsets (maxRawStripHeight width) height).map fun tileY =>
      ⟨0, tileY, width, min (maxRawStripHeight width) (height - tileY)⟩

/-- The `u16` counters of the tile loops do not overflow. -/
def LoopsEnd (bitmap : BitmapUpdate) (policy : BitmapEncodePolicy) : Prop :=
  policy.useRdp6Planar = true → bitmap.width.get ≤ 65472 ∧ bitmap.height.get ≤ 65472

variable {policy : BitmapEncodePolicy}

theorem pushTiles_eq_foldl (h : LoopsEnd bitmap policy) (s : EncodeState) :
    pushTiles bitmap policy s =
      some
        ((pieces bitmap policy).foldl
           (fun s piece =>
              pushBitmapRect bitmap policy piece.tileX piece.tileY piece.tileWidth piece.tileHeight
                s) s) := by
  unfold pushTiles pieces
  split
  · next hplanar =>
    rw [tileLoop_eq_foldl (h hplanar).1 (h hplanar).2, foldl_flatMap]
    simp only [foldl_map]
  · rw [stripLoop_eq_foldl bitmap.height.lt (maxRawStripHeight_pos bitmap.width.pos), foldl_map]

theorem pushTiles_eq_none (h : ¬ LoopsEnd bitmap policy) (s : EncodeState) :
    pushTiles bitmap policy s = none := by
  obtain ⟨hplanar, hlarge⟩ := Classical.not_imp.mp h
  rw [pushTiles, if_pos hplanar]
  by_cases hwidth : bitmap.width.get ≤ 65472
  · exact tileLoop_none_of_height hwidth (by omega) _ rfl (by decide) s
  · exact tileLoop_none_of_width (by omega) bitmap.height.pos _ s

def batchAll (policy : BitmapEncodePolicy) (s : EncodeState) : EncodeState :=
  let maxRects := min policy.maxRectsPerUpdate (max s.1.rectangles.length 1)
  batchRectangles policy.maxRequestSize (chunks maxRects s.1.rectangles) s

def encodeBitmapUpdate (bitmap : BitmapUpdate) (policy : BitmapEncodePolicy)
    (scratch : EncodeScratch) :
    Option (BitmapWireStats × EncodeScratch) := do
  let s ← pushTiles bitmap policy (recycle scratch, ⟨0, 0, 0, 0, 0⟩)
  let (scratch, stats) := batchAll policy s
  return (stats, scratch)

theorem encodeBitmapUpdate_of_loopsEnd (h : LoopsEnd bitmap policy) (scratch : EncodeScratch) :
    ∃ stats after, encodeBitmapUpdate bitmap policy scratch = some (stats, after) := by
  rw [encodeBitmapUpdate, pushTiles_eq_foldl h]
  exact ⟨_, _, rfl⟩

variable {scratch after : EncodeScratch}

theorem loopsEnd_of_encodeBitmapUpdate {stats : BitmapWireStats}
    (h : encodeBitmapUpdate bitmap policy scratch = some (stats, after)) :
    LoopsEnd bitmap policy := by
  by_contra hloops
  rw [encodeBitmapUpdate, pushTiles_eq_none hloops] at h
  cases h

def Piece.toRect (piece : Piece) (bitmap : BitmapUpdate) (data : Bytes)
    (compressedScanWidth : Option Nat) :
    BitmapRect where
  destLeft := (bitmap.x.val + piece.tileX) % 65536
  destTop := (bitmap.y.val + piece.tileY) % 65536
  destRight := (bitmap.x.val + piece.tileX + piece.tileWidth + 65535) % 65536
  destBottom := (bitmap.y.val + piece.tileY + piece.tileHeight + 65535) % 65536
  width := piece.tileWidth
  height := piece.tileHeight
  bitsPerPixel := 32
  data := data
  compressedScanWidth := compressedScanWidth

/-- The rectangle that is pushed for a piece; `none` when the buffer does not hold all of its rows.
-/
def pieceRect (bitmap : BitmapUpdate) (policy : BitmapEncodePolicy) (piece : Piece) :
    Option BitmapRect :=
  let (pixels, complete) :=
    gatherRows bitmap piece.tileX piece.tileY (piece.tileWidth * 4) piece.tileHeight []
  if complete then
    let compressed := Rdp6.encodeTo pixels piece.tileWidth piece.tileHeight
    if (policy.useRdp6Planar && piece.tileWidth % 4 == 0) ∧ compressed.length < pixels.length then
      some (piece.toRect bitmap compressed (some (piece.tileWidth * 4 % 65536)))
    else some (piece.toRect bitmap pixels none)
  else none

theorem rectangles_pushBitmapRect (bitmap : BitmapUpdate) (policy : BitmapEncodePolicy)
    (piece : Piece) (s : EncodeState) :
    let t := pushBitmapRect bitmap policy piece.tileX piece.tileY piece.tileWidth piece.tileHeight s
    t.1.batches = s.1.batches ∧
      t.1.rectangles = s.1.rectangles ++ (pieceRect bitmap policy piece).toList := by
  obtain ⟨scratch, stats⟩ := s
  have hclear : clear scratch.tileScratch = [] := take_zero
  dsimp only [pushBitmapRect, pieceRect]
  rw [hclear]
  cases gatherRows bitmap piece.tileX piece.tileY (piece.tileWidth * 4) piece.tileHeight [] with
  | mk pixels complete =>
    cases complete with
    | false => exact ⟨rfl, (append_nil _).symm⟩
    | true =>
      have hdata := tileData_fst policy pixels piece.tileWidth piece.tileHeight scratch.bufferPool
      generalize tileData policy pixels piece.tileWidth piece.tileHeight scratch.bufferPool =
        encoded at hdata
      obtain ⟨⟨data, scanWidth⟩, bufferPool⟩ := encoded
      refine ⟨rfl, ?_⟩
      rw [if_pos rfl, if_pos rfl]
      split at hdata
      · next hshort =>
        obtain ⟨rfl, rfl⟩ := Prod.mk.inj hdata
        rw [if_pos hshort]
        rfl
      · next hlong =>
        obtain ⟨rfl, rfl⟩ := Prod.mk.inj hdata
        rw [if_neg hlong]
        rfl

theorem rectangles_foldl (bitmap : BitmapUpdate) (policy : BitmapEncodePolicy) (pieces : List Piece)
    (s : EncodeState) :
    let t := pieces.foldl (fun s piece =>
      pushBitmapRect bitmap policy piece.tileX piece.tileY piece.tileWidth piece.tileHeight s) s
    t.1.batches = s.1.batches ∧
      t.1.rectangles = s.1.rectangles ++ pieces.filterMap (pieceRect bitmap policy) := by
  induction pieces generalizing s with
  | nil => exact ⟨rfl, (append_nil _).symm⟩
  | cons piece rest ih =>
    obtain ⟨hbatches, hrectangles⟩ := rectangles_pushBitmapRect bitmap policy piece s
    obtain ⟨hbatches', hrectangles'⟩ := ih
      (pushBitmapRect bitmap policy piece.tileX piece.tileY piece.tileWidth piece.tileHeight s)
    refine ⟨hbatches'.trans hbatches, ?_⟩
    rw [foldl_cons, hrectangles', hrectangles, append_assoc, filterMap_eq_flatMap_toList,
      filterMap_eq_flatMap_toList, flatMap_cons]

theorem rectangles_batchRectangles (maxRequestSize : Nat) (batches : List (List BitmapRect))
    (s : EncodeState) :
    (batchRectangles maxRequestSize batches s).1.rectangles = s.1.rectangles := by
  induction batches generalizing s with
  | nil => rfl
  | cons chunk rest ih => rw [batchRectangles, ih]

theorem after_encodeBitmapUpdate {stats : BitmapWireStats}
    (h : encodeBitmapUpdate bitmap policy scratch = some (stats, after)) :
    after.rectangles = (pieces bitmap policy).filterMap (pieceRect bitmap policy) ∧
    after.batches =
      (chunks policy.maxRectsPerUpdate after.rectangles).map fun chunk =>
        encodeRectanglesToWireFrames chunk policy.maxRequestSize := by
  have hloops := loopsEnd_of_encodeBitmapUpdate h
  obtain ⟨hbatches, hrectangles⟩ :=
    rectangles_foldl bitmap policy (pieces bitmap policy) (recycle scratch, ⟨0, 0, 0, 0, 0⟩)
  rw [encodeBitmapUpdate, pushTiles_eq_foldl hloops, bind_eq_bind, bind_some] at h
  generalize (pieces bitmap policy).foldl (fun s piece => pushBitmapRect bitmap policy piece.tileX
    piece.tileY piece.tileWidth piece.tileHeight s) (recycle scratch, ⟨0, 0, 0, 0, 0⟩) = t
    at h hbatches hrectangles
  have hafter : after = (batchAll policy t).1 := (Prod.mk.inj (some.inj h)).2.symm
  have hkept : after.rectangles = t.1.rectangles := by rw [hafter, batchAll, rectangles_batchRectangles]
  refine ⟨hkept.trans hrectangles, ?_⟩
  rw [hkept, hafter, batchAll, batches_batchRectangles, hbatches, chunks_min]
  rfl

def encodeNscodecUpdate (bitmap : BitmapUpdate) (codecId : UInt8)
    (colorLossLevel maxRequestSize : Nat) :
    List (List Bytes) × BitmapWireStats :=
  let start := bitmap.srcByteOffset 0 0
  -- a start behind the buffer leaves no pixels
  let pixels := bitmap.data.drop start
  let data := NsCodec.encode pixels bitmap.width.get bitmap.height.get bitmap.stride colorLossLevel
  if data = [] then ([], ⟨0, 0, 0, 0, 0⟩)
  else
    let body := NsCodec.encodeSetSurfaceBits bitmap.x.val bitmap.y.val bitmap.width.get
      bitmap.height.get codecId data
    ([encodeUpdateToWireFrames updateCodeSurfaceCommands body maxRequestSize],
      ⟨1, 1, 0, data.length, 1⟩)

end Kmsrdp.Source.Server.Encode
