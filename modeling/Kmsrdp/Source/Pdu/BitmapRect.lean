import Kmsrdp.Source.Pdu.Cursor

/-!
# The body of a bitmap update

Model of `BitmapRect` and `BitmapUpdateData` in `rdpcore-pdu/src/fastpath.rs`. Writing a field takes
its residue in sixteen bits, as the casts do; `BitmapRect.Fits` says when nothing is lost.
-/
namespace Kmsrdp.Source.Pdu
open Library.ByteString List

def bitmapUpdateType : Nat := 0x0001
def bitmapCompression : Nat := 0x0001

structure BitmapRect where
  (destLeft destTop destRight destBottom width height bitsPerPixel : Nat)
  data : Bytes
  compressedScanWidth : Option Nat

namespace BitmapRect

def geometry (rect : BitmapRect) : Bytes :=
  u16Le rect.destLeft ++ (u16Le rect.destTop ++ (u16Le rect.destRight ++ (u16Le rect.destBottom ++
    (u16Le rect.width ++ (u16Le rect.height ++ u16Le rect.bitsPerPixel)))))

def encode (rect : BitmapRect) : Bytes :=
  rect.geometry ++
    match rect.compressedScanWidth with
    | some scanWidthBytes =>
      u16Le bitmapCompression ++ (u16Le (8 + rect.data.length) ++ (u16Le 0 ++
        (u16Le rect.data.length ++ (u16Le scanWidthBytes ++
          (u16Le (rect.height * scanWidthBytes) ++ rect.data)))))
    | none => u16Le 0 ++ (u16Le rect.data.length ++ rect.data)

def wireSize (rect : BitmapRect) : Nat :=
  (if rect.compressedScanWidth.isSome then 26 else 18) + rect.data.length

theorem length_encode (rect : BitmapRect) : rect.encode.length = rect.wireSize := by
  unfold encode geometry wireSize
  cases rect.compressedScanWidth with
  | none =>
    simp only [length_append, length_u16Le, Option.isSome_none, Bool.false_eq_true, if_false]
    omega
  | some scanWidthBytes =>
    simp only [length_append, length_u16Le, Option.isSome_some, if_true]
    omega

def decodeData (flags bitmapLength : Nat) : Decoder (Bytes × Option Nat) :=
  if flags &&& bitmapCompression ≠ 0 then do
    let _cbCompFirstRowSize ← readU16Le
    let cbCompMainBodySize ← readU16Le
    let cbScanWidth ← readU16Le
    let _cbUncompressedSize ← readU16Le
    let data ← readSlice cbCompMainBodySize
    return (data, some cbScanWidth)
  else do
    let data ← readSlice bitmapLength
    return (data, none)

def decode : Decoder BitmapRect := do
  let destLeft ← readU16Le
  let destTop ← readU16Le
  let destRight ← readU16Le
  let destBottom ← readU16Le
  let width ← readU16Le
  let height ← readU16Le
  let bitsPerPixel ← readU16Le
  let flags ← readU16Le
  let bitmapLength ← readU16Le
  let (data, compressedScanWidth) ← decodeData flags bitmapLength
  return ⟨destLeft, destTop, destRight, destBottom, width, height, bitsPerPixel, data,
    compressedScanWidth⟩

structure Fits (rect : BitmapRect) : Prop where
  destLeft : rect.destLeft < 65536
  destTop : rect.destTop < 65536
  destRight : rect.destRight < 65536
  destBottom : rect.destBottom < 65536
  width : rect.width < 65536
  height : rect.height < 65536
  bitsPerPixel : rect.bitsPerPixel < 65536
  data : rect.data.length < 65536
  scanWidth : ∀ scanWidth ∈ rect.compressedScanWidth, scanWidth < 65536

theorem decodeData_raw (data rest : Bytes) :
    decodeData 0 data.length (data ++ rest) = .ok ((data, none), rest) := by
  rw [decodeData, if_neg (by decide), bind_ok (readSlice_append rfl rest)]
  rfl

theorem decodeData_compressed {data : Bytes} {scanWidth : Nat}
    (hdata : data.length < 65536)
    (hscan : scanWidth < 65536)
    (bitmapLength firstRow uncompressed : Nat) (rest : Bytes) :
    decodeData bitmapCompression bitmapLength
      (u16Le firstRow ++
         (u16Le data.length ++ (u16Le scanWidth ++ (u16Le uncompressed ++ (data ++ rest))))) =
      .ok ((data, some scanWidth), rest) := by
  rw [decodeData, if_pos (by decide), bind_ok (readU16Le_u16Le _ _), bind_ok (readU16Le_of_lt hdata _),
    bind_ok (readU16Le_of_lt hscan _), bind_ok (readU16Le_u16Le _ _),
    bind_ok (readSlice_append rfl rest)]
  rfl

theorem decode_encode {rect : BitmapRect} (h : rect.Fits) (rest : Bytes) :
    decode (rect.encode ++ rest) = .ok (rect, rest) := by
  obtain ⟨destLeft, destTop, destRight, destBottom, width, height, bitsPerPixel, data, scan⟩ := rect
  have hdata := h.data
  simp only [decode, encode, geometry, append_assoc]
  rw [bind_ok (readU16Le_of_lt h.destLeft _), bind_ok (readU16Le_of_lt h.destTop _),
    bind_ok (readU16Le_of_lt h.destRight _), bind_ok (readU16Le_of_lt h.destBottom _),
    bind_ok (readU16Le_of_lt h.width _), bind_ok (readU16Le_of_lt h.height _),
    bind_ok (readU16Le_of_lt h.bitsPerPixel _)]
  cases scan with
  | none =>
    simp only [append_assoc]
    rw [bind_ok (readU16Le_of_lt (by decide) _), bind_ok (readU16Le_of_lt hdata _),
      bind_ok (decodeData_raw data rest)]
    rfl
  | some scanWidth =>
    simp only [append_assoc]
    rw [bind_ok (readU16Le_of_lt (by decide) _), bind_ok (readU16Le_u16Le _ _),
      bind_ok (decodeData_compressed hdata (h.scanWidth scanWidth rfl) _ _ _ rest)]
    rfl

end BitmapRect

structure BitmapUpdateData where
  rectangles : List BitmapRect

namespace BitmapUpdateData

def encodeRectangles (rectangles : List BitmapRect) : Bytes :=
  u16Le bitmapUpdateType ++ (u16Le rectangles.length ++ rectangles.flatMap BitmapRect.encode)

open BitmapRect

theorem length_encodeRectangles (rectangles : List BitmapRect) :
    (encodeRectangles rectangles).length = 4 + (rectangles.map wireSize).sum := by
  have hsizes : (rectangles.map fun rect => rect.encode.length) = rectangles.map wireSize :=
    map_congr_left fun rect _ => length_encode rect
  rw [encodeRectangles, length_append, length_append, length_u16Le, length_u16Le,
    length_flatMap, hsizes]
  omega

def decodeRectangles : Nat → Decoder (List BitmapRect)
  | 0 => return []
  | count + 1 => do
    let rect ← BitmapRect.decode
    let rest ← decodeRectangles count
    return rect :: rest

def decode (input : Bytes) : Except DecodeError BitmapUpdateData :=
  decodeFrom (do
    let updateType ← readU16Le
    if updateType &&& bitmapUpdateType = 0 then
      fail "bitmap_update_data.update_type" "expected the BITMAP_UPDATE_TYPE bit set"
    else
      let count ← readU16Le
      let rectangles ← decodeRectangles count
      return ⟨rectangles⟩) input

theorem decodeRectangles_flatMap {rectangles : List BitmapRect}
    (h : ∀ rect ∈ rectangles, rect.Fits) :
    decodeRectangles rectangles.length (rectangles.flatMap encode) = .ok (rectangles, []) := by
  induction rectangles with
  | nil => rfl
  | cons rect rest ih =>
    rw [length_cons, decodeRectangles, flatMap_cons, bind_ok (decode_encode (h rect mem_cons_self) _),
      bind_ok (ih fun rect hrect => h rect (mem_cons_of_mem _ hrect))]
    rfl

theorem decode_encodeRectangles {rectangles : List BitmapRect}
    (hcount : rectangles.length < 65536)
    (h : ∀ rect ∈ rectangles, rect.Fits) :
    decode (encodeRectangles rectangles) = .ok ⟨rectangles⟩ := by
  rw [decode, decodeFrom, encodeRectangles, bind_ok (readU16Le_of_lt (by decide) _),
    if_neg (by decide), bind_ok (readU16Le_of_lt hcount _),
    bind_ok (decodeRectangles_flatMap h)]
  rfl

end BitmapUpdateData
end Kmsrdp.Source.Pdu
