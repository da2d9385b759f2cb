import Kmsrdp.Library.WordBits
import Kmsrdp.Source.Server.Diff

/-!
# The dirty tiles in machine words

`SmallBitSet` of `rdpcore-server/src/diff.rs` keeps up to 8192 bits in 128 words of the stack frame
and more in a vector. The loops of `find_dirty_rects` over that storage, where `none` is an index
out of range, compute what the loops over a plain set compute (`findDirtyRects_eq`).
-/
namespace Kmsrdp.Source.Server.TileBits
open Library.ByteString Library.Grid Library.WordBits List Option
open Source.Server.Diff (Rect tileSize tileRect rounds pixelSpan divCeil visiblePixelsEqual
  tileDiffers mem_rounds)

def inlineWords : Nat := 128

structure SmallBitSet where
  (inline heap : List UInt64)
  length_inline : inline.length = inlineWords

namespace SmallBitSet

def new (len : Nat) : SmallBitSet where
  inline := List.replicate inlineWords 0
  heap := if divCeil len 64 ≤ inlineWords then [] else List.replicate (divCeil len 64) 0
  length_inline := List.length_replicate

def get (bits : SmallBitSet) (idx : Nat) : Option Bool :=
  if bits.heap.isEmpty then getBit bits.inline idx else getBit bits.heap idx

def set (bits : SmallBitSet) (idx : Nat) (value : Bool) : Option SmallBitSet :=
  if bits.heap.isEmpty then
    if idx / 64 < bits.inline.length then
      some { bits with
        inline := setBit bits.inline idx value
        length_inline := (length_setBit _ _ _).trans bits.length_inline }
    else none
  else if idx / 64 < bits.heap.length then some { bits with heap := setBit bits.heap idx value }
  else none

end SmallBitSet

def markTiles (differs : Rect → Bool) (width height tilesX tilesY : Nat) : Option SmallBitSet :=
  (rounds tilesY tilesX).foldlM
    (fun dirty t => dirty.set (t.1 * tilesX + t.2) (differs (tileRect width height t.2 t.1)))
    (.new (tilesX * tilesY))

def growRight (dirty : SmallBitSet) (idx startX tilesX : Nat) : Nat → Nat → Option Nat
  | 0, runWidth => some runWidth
  | fuel + 1, runWidth =>
    if startX + runWidth < tilesX then do
      let bit ← dirty.get (idx + runWidth)
      if bit then growRight dirty idx startX tilesX fuel (runWidth + 1) else some runWidth
    else some runWidth

def growDown (dirty : SmallBitSet) (startX startY tilesX tilesY runWidth : Nat) :
    Nat → Nat → Option Nat
  | 0, runHeight => some runHeight
  | fuel + 1, runHeight =>
    if startY + runHeight < tilesY then do
      let whole ← (List.range runWidth).allM fun x =>
        dirty.get ((startY + runHeight) * tilesX + startX + x)
      if whole then growDown dirty startX startY tilesX tilesY runWidth fuel (runHeight + 1)
      else some runHeight
    else some runHeight

def clearTiles (dirty : SmallBitSet) (startX startY tilesX runWidth runHeight : Nat) :
    Option SmallBitSet :=
  (rounds runHeight runWidth).foldlM
    (fun dirty t => dirty.set ((startY + t.1) * tilesX + startX + t.2) false) dirty

def mergeTiles (width height tilesX tilesY : Nat) : Nat → Nat → SmallBitSet → Option (List Rect)
  | 0, _, _ => some []
  | fuel + 1, idx, dirty =>
    if tilesX * tilesY ≤ idx then some []
    else do
      let bit ← dirty.get idx
      if bit = false then mergeTiles width height tilesX tilesY fuel (idx + 1) dirty
      else
        let startY := idx / tilesX
        let startX := idx % tilesX
        let runWidth ← growRight dirty idx startX tilesX tilesX 1
        let runHeight ← growDown dirty startX startY tilesX tilesY runWidth tilesY 1
        let rect : Rect :=
          { x := startX * tileSize, y := startY * tileSize,
            width := pixelSpan startX runWidth tilesX width,
            height := pixelSpan startY runHeight tilesY height }
        let dirty ← clearTiles dirty startX startY tilesX runWidth runHeight
        let rects ← mergeTiles width height tilesX tilesY fuel (idx + runWidth) dirty
        some (rect :: rects)

def findDirtyRects (image1 : Bytes) (stride1 : Nat) (image2 : Bytes) (stride2 : Nat)
    (width height bpp : Nat) : Option (List Rect) :=
  if width = 0 ∨ height = 0 then some []
  else if visiblePixelsEqual image1 stride1 image2 stride2 width height bpp then some []
  else do
    let tilesX := divCeil width tileSize
    let tilesY := divCeil height tileSize
    let dirty ← markTiles (tileDiffers image1 stride1 image2 stride2 bpp) width height tilesX tilesY
    mergeTiles width height tilesX tilesY (tilesX * tilesY) 0 dirty

def Represents (len : Nat) (words : SmallBitSet) (bits : Diff.SmallBitSet) : Prop :=
  ∀ i < len, words.get i = some (bits.get i)

theorem represents_new (len : Nat) : Represents len (.new len) .new := by
  intro i hi
  have hword : i / 64 < divCeil len 64 := by
    unfold divCeil
    omega
  unfold SmallBitSet.get SmallBitSet.new
  by_cases hsmall : divCeil len 64 ≤ inlineWords
  · rw [if_pos hsmall]
    exact getBit_replicate_zero (Nat.lt_of_lt_of_le hword hsmall)
  · rw [if_neg hsmall, if_neg]
    · exact getBit_replicate_zero hword
    · rw [List.isEmpty_iff, List.replicate_eq_nil_iff]
      omega

theorem get_isSome_iff (words : SmallBitSet) (idx : Nat) :
    (words.get idx).isSome ↔
      idx / 64 < (if words.heap.isEmpty then words.inline else words.heap).length := by
  unfold SmallBitSet.get
  split <;> simp [getBit]

variable {words : SmallBitSet}

theorem exists_set {idx : Nat} (hidx : (words.get idx).isSome) (value : Bool) :
    ∃ words',
      words.set idx value = some words' ∧
      ∀ i, words'.get i = if i = idx then some value else words.get i := by
  rw [get_isSome_iff] at hidx
  unfold SmallBitSet.set SmallBitSet.get
  cases hheap : words.heap.isEmpty with
  | true =>
    rw [hheap, if_pos rfl] at hidx
    rw [if_pos rfl, if_pos hidx]
    refine ⟨_, rfl, fun i => ?_⟩
    rw [hheap, if_pos rfl, if_pos rfl, getBit_setBit hidx]
  | false =>
    rw [hheap, if_neg Bool.false_ne_true] at hidx
    rw [if_neg Bool.false_ne_true, if_pos hidx]
    refine ⟨_, rfl, fun i => ?_⟩
    have hkept : (setBit words.heap idx value).isEmpty = false := by
      rw [← hheap, Bool.eq_iff_iff, isEmpty_iff_length_eq_zero, isEmpty_iff_length_eq_zero,
        length_setBit]
    rw [hkept, if_neg Bool.false_ne_true, if_neg Bool.false_ne_true, getBit_setBit hidx]

theorem Represents.set {len idx : Nat} {bits : Diff.SmallBitSet}
    (h : Represents len words bits)
    (hidx : idx < len)
    (value : Bool) :
    ∃ words', words.set idx value = some words' ∧ Represents len words' (bits.set idx value) := by
  obtain ⟨words', hset, hget⟩ := exists_set (show (words.get idx).isSome by rw [h idx hidx]; rfl) value
  refine ⟨words', hset, fun i hi => ?_⟩
  rw [hget, h i hi, Diff.SmallBitSet.set]
  dsimp only
  split <;> rfl

theorem Represents.foldlM_set {ι : Type} {len : Nat} (key : ι → Nat) (value : ι → Bool)
    (items : List ι)
    (hkey : ∀ t ∈ items, key t < len)
    {bits : Diff.SmallBitSet}
    (h : Represents len words bits) :
    ∃ words',
      items.foldlM (fun words t => words.set (key t) (value t)) words = some words' ∧
      Represents len words' (items.foldl (fun bits t => bits.set (key t) (value t)) bits) := by
  induction items generalizing words bits with
  | nil => exact ⟨words, rfl, h⟩
  | cons head tail ih =>
    obtain ⟨next, hset, hnext⟩ := h.set (hkey head mem_cons_self) (value head)
    obtain ⟨words', hrest, hwords'⟩ := ih (fun t ht => hkey t (mem_cons_of_mem _ ht)) hnext
    exact ⟨words', by rw [foldlM_cons, hset, bind_eq_bind, bind_some, hrest], hwords'⟩

section Loops
variable {tilesX tilesY : Nat} {words : SmallBitSet} {bits : Diff.SmallBitSet}

theorem tile_lt {tx ty : Nat} (hx : tx < tilesX) (hy : ty < tilesY) :
    ty * tilesX + tx < tilesX * tilesY := by
  rw [Nat.mul_comm tilesX]
  exact place_lt hx hy

theorem exists_markTiles (differs : Rect → Bool) (width height tilesX tilesY : Nat) :
    ∃ words,
      markTiles differs width height tilesX tilesY = some words ∧
      Represents (tilesX * tilesY) words (Diff.markTiles differs width height tilesX tilesY) := by
  refine (represents_new _).foldlM_set (fun t : Nat × Nat => t.1 * tilesX + t.2) _ _ ?_
  rintro ⟨ty, tx⟩ hmem
  obtain ⟨hy, hx⟩ := mem_rounds.mp hmem
  exact tile_lt hx hy

theorem growRight_eq
    (h : Represents (tilesX * tilesY) words bits)
    {startY : Nat}
    (hy : startY < tilesY)
    (startX fuel runWidth : Nat) :
    growRight words (startY * tilesX + startX) startX tilesX fuel runWidth =
      some (Diff.growRight bits (startY * tilesX + startX) startX tilesX fuel runWidth) := by
  induction fuel generalizing runWidth with
  | zero => rfl
  | succ fuel ih =>
    rw [growRight, Diff.growRight]
    by_cases hx : startX + runWidth < tilesX
    · have hin := tile_lt hx hy
      rw [← Nat.add_assoc] at hin
      rw [if_pos hx, h _ hin]
      cases hbit : bits.get (startY * tilesX + startX + runWidth) with
      | false => simp
      | true => simpa [hx] using ih (runWidth + 1)
    · rw [if_neg hx, if_neg fun hgrow => hx hgrow.1]

theorem allM_eq
    (h : Represents (tilesX * tilesY) words bits)
    (start : Nat) (columns : List Nat)
    (hin : ∀ x ∈ columns, start + x < tilesX * tilesY) :
    (columns.allM fun x => words.get (start + x)) =
      some (columns.all fun x => bits.get (start + x)) := by
  induction columns with
  | nil => rfl
  | cons head tail ih =>
    rw [allM, h _ (hin head mem_cons_self), all_cons]
    cases bits.get (start + head) with
    | false => rfl
    | true => exact ih fun x hx => hin x (mem_cons_of_mem _ hx)

theorem growDown_eq
    (h : Represents (tilesX * tilesY) words bits)
    {startX runWidth : Nat}
    (hright : startX + runWidth ≤ tilesX)
    (startY fuel runHeight : Nat) :
    growDown words startX startY tilesX tilesY runWidth fuel runHeight =
      some (Diff.growDown bits startX startY tilesX tilesY runWidth fuel runHeight) := by
  induction fuel generalizing runHeight with
  | zero => rfl
  | succ fuel ih =>
    rw [growDown, Diff.growDown]
    by_cases hy : startY + runHeight < tilesY
    · have hin : ∀ x ∈ range runWidth, (startY + runHeight) * tilesX + startX + x <
          tilesX * tilesY := by
        intro x hx
        rw [mem_range] at hx
        have hin := tile_lt (show startX + x < tilesX by omega) hy
        rwa [← Nat.add_assoc] at hin
      rw [if_pos hy, allM_eq h _ _ hin, bind_eq_bind, bind_some]
      cases hwhole : (range runWidth).all fun x => bits.get
        ((startY + runHeight) * tilesX + startX + x) with
      | false => simp
      | true => simpa [hy] using ih (runHeight + 1)
    · rw [if_neg hy, if_neg fun hgrow => hy hgrow.1]

theorem exists_clearTiles
    (h : Represents (tilesX * tilesY) words bits)
    {startX startY runWidth runHeight : Nat}
    (hright : startX + runWidth ≤ tilesX)
    (hbottom : startY + runHeight ≤ tilesY) :
    ∃ words',
      clearTiles words startX startY tilesX runWidth runHeight = some words' ∧
      Represents (tilesX * tilesY) words'
        (Diff.clearTiles bits startX startY tilesX runWidth runHeight) := by
  refine h.foldlM_set (fun t : Nat × Nat => (startY + t.1) * tilesX + startX + t.2)
    (fun _ => false) _ ?_
  rintro ⟨y, x⟩ hmem
  obtain ⟨hy, hx⟩ := mem_rounds.mp hmem
  have hin := tile_lt (show startX + x < tilesX by omega) (show startY + y < tilesY by omega)
  rwa [← Nat.add_assoc] at hin

theorem mergeTiles_eq (width height fuel idx : Nat) (h : Represents (tilesX * tilesY) words bits) :
    mergeTiles width height tilesX tilesY fuel idx words =
      some (Diff.mergeTiles width height tilesX tilesY fuel idx bits) := by
  induction fuel generalizing idx words bits with
  | zero => rfl
  | succ fuel ih =>
    rw [mergeTiles, Diff.mergeTiles]
    by_cases hidx : tilesX * tilesY ≤ idx
    · rw [if_pos hidx, if_pos hidx]
    · rw [if_neg hidx, if_neg hidx, h idx (by omega), bind_eq_bind, bind_some]
      cases hbit : bits.get idx with
      | false => exact ih (idx + 1) h
      | true =>
        rw [if_neg (by decide), if_neg (by decide)]
        have hn : 0 < tilesX := Nat.pos_of_mul_pos_right (show 0 < tilesX * tilesY by omega)
        have hx := Nat.mod_lt idx hn
        have hy : idx / tilesX < tilesY := Nat.div_lt_of_lt_mul (by omega)
        have hstart := Nat.div_add_mod' idx tilesX
        -- the block that the two loops of the plain model find
        have hblock := Diff.isBlock_grow hx hy (show bits.get _ = true by rw [hstart]; exact hbit)
        have hwidth := growRight_eq h hy (idx % tilesX) tilesX 1
        rw [hstart] at hblock hwidth
        obtain ⟨cleared, hclear, hcleared⟩ := exists_clearTiles h hblock.right hblock.bottom
        simp only [bind_eq_bind]
        rw [hwidth, bind_some, growDown_eq h hblock.right, bind_some, hclear, bind_some,
          ih _ hcleared, bind_some]

end Loops

/-- The words of bits compute what the set of tiles does. -/
theorem findDirtyRects_eq (image1 : Bytes) (stride1 : Nat) (image2 : Bytes) (stride2 : Nat)
    (width height bpp : Nat) :
    findDirtyRects image1 stride1 image2 stride2 width height bpp =
      some (Diff.findDirtyRects image1 stride1 image2 stride2 width height bpp) := by
  unfold findDirtyRects Diff.findDirtyRects
  split
  · rfl
  · split
    · rfl
    · obtain ⟨words, hmark, hwords⟩ := exists_markTiles
        (tileDiffers image1 stride1 image2 stride2 bpp) width height (divCeil width tileSize)
        (divCeil height tileSize)
      dsimp only
      rw [hmark, bind_eq_bind, bind_some, mergeTiles_eq width height _ _ hwords]

end Kmsrdp.Source.Server.TileBits
