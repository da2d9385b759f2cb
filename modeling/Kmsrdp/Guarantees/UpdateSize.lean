import Kmsrdp.Guarantees.BitmapDelivery

/-!
# The size of a reassembled update

The policy limits the rectangles of an update, at an estimated 8192 bytes each. A tile that does not
compress takes 16402 bytes, a raw strip up to 65550 and more when a single row is longer, and an
NSCodec update is the whole frame.
-/
namespace Kmsrdp.Guarantees.UpdateSize
open Client.BitmapPainter List
open Guarantees.BitmapDelivery (receivedUpdates_batches RowsInside Tile)
open Library.Bgrx Library.ByteString Library.Chunks Library.Runs Source.Pdu Source.Server.Display
  Source.Server.Encode
  Source.Server.Fragments

/-- No update that a client puts together from the batches is longer than the limit. -/
def WithinRequestSize (maxRequestSize : Nat) (batches : List (List Bytes)) : Prop :=
  ∃ updates, receivedUpdates batches.flatten = some updates ∧
    ∀ update ∈ updates, update.2.length ≤ maxRequestSize

/-- The bound on every update that either encoder makes of the bitmap. -/
def UpdatesWithin (bitmap : BitmapUpdate) (policy : BitmapEncodePolicy) (scratch : EncodeScratch) :
    Prop :=
  (∀ stats after, encodeBitmapUpdate bitmap policy scratch = some (stats, after) →
    WithinRequestSize policy.maxRequestSize after.batches) ∧
  ∀ codecId colorLossLevel, policy.nscodec = some (codecId, colorLossLevel) →
    WithinRequestSize policy.maxRequestSize
      (encodeNscodecUpdate bitmap codecId colorLossLevel policy.maxRequestSize).1

theorem withinRequestSize_iff {maxRequestSize : Nat} {batches : List (List Bytes)}
    {updates : List (UInt8 × Bytes)}
    (h : receivedUpdates batches.flatten = some updates) :
    WithinRequestSize maxRequestSize batches ↔
      ∀ update ∈ updates, update.2.length ≤ maxRequestSize := by
  constructor
  · rintro ⟨received, hreceived, hlength⟩
    obtain rfl : updates = received := Option.some.inj (h.symm.trans hreceived)
    exact hlength
  · exact fun hlength => ⟨updates, h, hlength⟩

/-- Literals are written in segments of up to fifteen, each behind a control byte. -/
def literalsSize (n : Nat) : Nat := n + (n + 14) / 15

/-- A run begins with a control byte and its byte, which stand for up to sixteen. Behind them a
control byte stands for up to fifteen more, but one or two that are left over are literals. -/
def runSize (n : Nat) : Nat :=
  2 + (n - 16) / 15 +
    if (n - 16) % 15 = 0 then 0 else if (n - 16) % 15 < 3 then 1 + (n - 16) % 15 else 1

/-- Runs shorter than four are literals, and are collected up to the next longer one. -/
def runsSize (literals : Nat) : List Nat → Nat
  | [] => literalsSize literals
  | n :: rest =>
    if n < 4 then runsSize (literals + n) rest
    else literalsSize literals + runSize n + runsSize 0 rest

def planeSize (plane : Bytes) (width height : Nat) : Nat :=
  ((Rdp6.deltaRows (Rdp6.planeRows width height plane)).map fun row =>
    runsSize 0 ((runs row).map length)).sum

/-- A header byte and the three colour planes. -/
def rdp6Size (bgrx : Bytes) (width height : Nat) : Nat :=
  let px := Rdp6.planePixels bgrx (width * height)
  1 + planeSize (px.map Pixel.red) width height + planeSize (px.map Pixel.green) width height +
    planeSize (px.map Pixel.blue) width height

/-- The bytes of a piece in an update, if its rows are there: its pixels, or their RDP6 planes
behind eight more header bytes where those are smaller. -/
def pieceSize (bitmap : BitmapUpdate) (policy : BitmapEncodePolicy) (piece : Piece) : Option Nat :=
  let (pixels, complete) :=
    gatherRows bitmap piece.tileX piece.tileY (piece.tileWidth * 4) piece.tileHeight []
  if complete then
    let raw := piece.tileWidth * 4 * piece.tileHeight
    let compressed := rdp6Size pixels piece.tileWidth piece.tileHeight
    if (policy.useRdp6Planar && piece.tileWidth % 4 == 0) ∧ compressed < raw then some (26 + compressed)
    else some (18 + raw)
  else none

theorem runsSize_add_fifteen (literals : Nat) (lengths : List Nat) :
    runsSize (literals + 15) lengths = 16 + runsSize literals lengths := by
  induction lengths generalizing literals with
  | nil =>
    simp only [runsSize, literalsSize]
    omega
  | cons n rest ih =>
    unfold runsSize
    split
    · rw [Nat.add_right_comm, ih]
    · unfold literalsSize
      omega

section Rows
open Rdp6

theorem length_flush (pending : LiteralBuf) :
    pending.flush.length = literalsSize pending.buf.length := by
  have hshort := pending.short
  unfold LiteralBuf.flush literalsSize
  split
  · rw [length_cons]
    omega
  · rw [length_nil]
    omega

theorem length_pushMany (pending : LiteralBuf) (byte : UInt8) (count : Nat) (lengths : List Nat) :
    (pending.pushMany byte count).1.length +
      runsSize (pending.pushMany byte count).2.buf.length lengths =
      runsSize (pending.buf.length + count) lengths := by
  induction count generalizing pending with
  | zero => simp [LiteralBuf.pushMany]
  | succ count ih =>
    have hpush : (pending.push byte).1.length + runsSize
        ((pending.push byte).2.buf.length + count) lengths =
        runsSize (pending.buf.length + (count + 1)) lengths := by
      unfold LiteralBuf.push
      split
      · next hfull =>
        have hsplit : pending.buf.length + (count + 1) = count + 15 := by omega
        rw [hsplit, runsSize_add_fifteen]
        simp [LiteralBuf.new, hfull]
      · simp [Nat.add_assoc, Nat.add_comm 1]
    rw [LiteralBuf.pushMany, length_append, Nat.add_assoc, ih, hpush]

theorem length_continueRun (byte : UInt8) {fuel remaining : Nat} (hfuel : remaining ≤ fuel) :
    (continueRun byte fuel remaining).length =
      remaining / 15 +
        if remaining % 15 = 0 then 0 else if remaining % 15 < 3 then 1 + remaining % 15 else 1 := by
  induction fuel generalizing remaining with
  | zero =>
    obtain rfl : remaining = 0 := by omega
    rfl
  | succ fuel ih =>
    unfold continueRun
    split
    · next hnone => rw [hnone]; rfl
    · split
      · rw [length_cons, ih (by omega)]
        by_cases hlong : remaining < 15
        · rw [Nat.min_eq_left (by omega), Nat.sub_self, if_pos rfl, if_neg (by omega),
            if_neg (by omega)]
          omega
        · rw [Nat.min_eq_right (by omega)]
          have hmod : (remaining - 15) % 15 = remaining % 15 := by omega
          rw [hmod]
          omega
      · rw [length_cons, length_replicate, if_neg (by omega), if_pos (by omega)]
        omega

theorem length_emitRun (byte : UInt8) (count : Nat) :
    (emitRun byte count).length = runSize count := by
  have hrest : count - 1 - min (count - 1) 15 = count - 16 := by omega
  rw [emitRun, runSize, hrest, length_cons, length_cons, length_continueRun byte (Nat.le_refl _)]
  omega

theorem length_encodeRuns {fuel : Nat} {scanline : Bytes}
    (hfuel : scanline.length ≤ fuel)
    (pending : LiteralBuf) :
    (encodeRuns fuel pending scanline).length =
      runsSize pending.buf.length ((runs scanline).map length) := by
  induction fuel generalizing scanline pending with
  | zero =>
    obtain rfl := eq_nil_of_length_eq_zero (Nat.le_zero.mp hfuel)
    exact length_flush pending
  | succ fuel ih =>
    cases scanline with
    | nil => exact length_flush pending
    | cons byte rest =>
      have hleft : (rest.dropWhile (· == byte)).length ≤ fuel := by
        have := (dropWhile_sublist (l := rest) (· == byte)).length_le
        rw [length_cons] at hfuel
        omega
      rw [encodeRuns, runs_cons, map_cons, length_replicate, runsSize]
      split
      · rw [length_append, ih hleft, length_pushMany]
      · rw [length_append, length_append, length_flush, length_emitRun, ih hleft, Nat.add_assoc]
        rfl

theorem length_encodePlane (plane : Bytes) (width height : Nat) :
    (encodePlane plane width height).length = planeSize plane width height := by
  rw [encodePlane, length_flatMap, planeSize]
  exact congrArg sum (map_congr_left fun row _ => length_encodeRuns (Nat.le_refl _) .new)

theorem length_encodeTo {bgrx : Bytes} {width height : Nat} (hpixels : width * height ≠ 0) :
    (encodeTo bgrx width height).length = rdp6Size bgrx width height := by
  rw [encodeTo, if_neg hpixels, rdp6Size]
  simp only [length_cons, length_append, length_encodePlane]
  omega

end Rows

variable {policy : BitmapEncodePolicy}

/-- Each batch of consecutive pieces takes no more than the limit, with four bytes in front. -/
def PiecesFit (bitmap : BitmapUpdate) (policy : BitmapEncodePolicy) : Prop :=
  ∀ batch ∈ chunks policy.maxRectsPerUpdate
      ((pieces bitmap policy).filterMap (pieceSize bitmap policy)),
    4 + batch.sum ≤ policy.maxRequestSize

theorem pieceSize_eq (bitmap : BitmapUpdate) (policy : BitmapEncodePolicy) (piece : Piece) :
    pieceSize bitmap policy piece = (pieceRect bitmap policy piece).map BitmapRect.wireSize := by
  unfold pieceSize pieceRect
  cases hgather : gatherRows bitmap piece.tileX piece.tileY (piece.tileWidth * 4)
    piece.tileHeight [] with
  | mk pixels complete =>
    cases complete with
    | false => rfl
    | true =>
      have hraw := length_gatherRows hgather
      rw [length_nil, Nat.zero_add] at hraw
      dsimp only
      rw [if_pos rfl, if_pos rfl, hraw]
      by_cases hpixels : piece.tileWidth * piece.tileHeight = 0
      · -- no size is smaller than that of no pixels
        have hzero : piece.tileWidth * 4 * piece.tileHeight = 0 := by
          rw [Nat.mul_right_comm, hpixels, Nat.zero_mul]
        rw [if_neg fun h => by omega, if_neg fun h => by omega, ← hraw]
        rfl
      · rw [length_encodeTo hpixels]
        split
        · rw [← length_encodeTo hpixels]
          rfl
        · rw [← hraw]
          rfl

theorem withinRequestSize_bitmap_iff {bitmap : BitmapUpdate} {scratch after : EncodeScratch}
    {stats : BitmapWireStats}
    (h : encodeBitmapUpdate bitmap policy scratch = some (stats, after)) :
    WithinRequestSize policy.maxRequestSize after.batches ↔ PiecesFit bitmap policy := by
  obtain ⟨hrectangles, hall⟩ := after_encodeBitmapUpdate h
  have hreceived :=
    receivedUpdates_batches policy.maxRequestSize (chunks policy.maxRectsPerUpdate after.rectangles)
  rw [flatMap_def, ← hall] at hreceived
  rw [withinRequestSize_iff hreceived, PiecesFit]
  have hpieces : (pieces bitmap policy).filterMap (pieceSize bitmap policy) =
      after.rectangles.map BitmapRect.wireSize := by
    rw [hrectangles, map_filterMap]
    exact filterMap_congr fun piece _ => pieceSize_eq bitmap policy piece
  rw [hpieces, chunks_map, forall_mem_map, forall_mem_map]
  refine forall₂_congr fun chunk _ => ?_
  rw [BitmapUpdateData.length_encodeRectangles]

/-- The planes of the frame take no more than the limit, with twenty bytes of lengths and levels
and the twenty-two bytes of the command in front. A frame with a missing row is not sent. -/
def PlanesFit (bitmap : BitmapUpdate) (colorLossLevel maxRequestSize : Nat) : Prop :=
  let pixels := bitmap.data.drop (bitmap.srcByteOffset 0 0)
  (bitmap.height.get - 1) * bitmap.stride + bitmap.width.get * 4 ≤ pixels.length →
    42 + NsCodec.planesSize pixels bitmap.width.get bitmap.height.get bitmap.stride colorLossLevel ≤
      maxRequestSize

open NsCodec

theorem withinRequestSize_nscodec_iff (bitmap : BitmapUpdate) (codecId : UInt8)
    (colorLossLevel maxRequestSize : Nat) :
    WithinRequestSize maxRequestSize
      (encodeNscodecUpdate bitmap codecId colorLossLevel maxRequestSize).1 ↔
      PlanesFit bitmap colorLossLevel maxRequestSize := by
  unfold encodeNscodecUpdate PlanesFit
  dsimp only
  have hdata : (bitmap.data.drop (bitmap.srcByteOffset 0 0)).length ≤ usizeMax := by
    have := bitmap.data_fits
    rw [length_drop]
    unfold usizeMax
    omega
  generalize bitmap.data.drop (bitmap.srcByteOffset 0 0) = pixels at hdata ⊢
  by_cases hrows : (bitmap.height.get - 1) * bitmap.stride + bitmap.width.get * 4 ≤ pixels.length
  · have hcount : bitmap.width.get * bitmap.height.get ≤ u32Max := by
      have := Nat.mul_le_mul (Nat.le_of_lt_succ bitmap.width.lt) (Nat.le_of_lt_succ bitmap.height.lt)
      unfold u32Max
      omega
    have hlength := length_encode bitmap.width.pos bitmap.height.pos hcount hdata hrows colorLossLevel
    generalize encode pixels bitmap.width.get bitmap.height.get bitmap.stride colorLossLevel = data
      at hlength
    have hne : data ≠ [] := ne_nil_of_length_pos (by omega)
    have hbody := length_encodeSetSurfaceBits bitmap.x.val bitmap.y.val bitmap.width.get
      bitmap.height.get codecId data
    generalize encodeSetSurfaceBits bitmap.x.val bitmap.y.val bitmap.width.get
      bitmap.height.get codecId data = body at hbody
    have hbodyNe : body ≠ [] := ne_nil_of_length_pos (by omega)
    have hupdate : ∀ update ∈ [(updateCodeSurfaceCommands, body)], update.1 < 16 ∧ update.2 ≠ [] := by
      rw [forall_mem_singleton]
      exact ⟨(by decide : updateCodeSurfaceCommands < 16), hbodyNe⟩
    have hreceived : receivedUpdates
        [encodeUpdateToWireFrames updateCodeSurfaceCommands body maxRequestSize].flatten =
        some [(updateCodeSurfaceCommands, body)] := receivedUpdates_encode hupdate maxRequestSize
    rw [if_neg hne, withinRequestSize_iff hreceived, forall_mem_singleton, hbody, hlength]
    omega
  · rw [encode_eq_nil (by omega), if_pos rfl]
    refine iff_of_true ⟨[], rfl, fun update hupdate => by cases hupdate⟩ fun h => absurd h hrows

/-- Every update the client reassembles fits its `MaxRequestSize` exactly if the pieces of each group
do, where the tile loops end, and the colour planes under NSCodec. -/
theorem updates_within_request_size_iff (clientName : String) (nscodec : Option NsCodecNegotiated)
    (advertised : Option Nat) (bitmap : BitmapUpdate) (scratch : EncodeScratch) :
    let policy := bitmapEncodePolicy clientName nscodec (sessionMaxRequestSize advertised)
    UpdatesWithin bitmap policy scratch ↔
      (LoopsEnd bitmap policy → PiecesFit bitmap policy) ∧
      ∀ codecId colorLossLevel, policy.nscodec = some (codecId, colorLossLevel) →
        PlanesFit bitmap colorLossLevel policy.maxRequestSize := by
  intro policy
  refine and_congr ?_ ?_
  · constructor
    · intro hwithin hloops
      obtain ⟨stats, after, hencode⟩ := encodeBitmapUpdate_of_loopsEnd hloops scratch
      exact (withinRequestSize_bitmap_iff hencode).mp (hwithin stats after hencode)
    · intro hfit stats after hencode
      have hloops := loopsEnd_of_encodeBitmapUpdate hencode
      exact (withinRequestSize_bitmap_iff hencode).mpr (hfit hloops)
  · refine forall₂_congr fun codecId colorLossLevel => imp_congr_right fun _ => ?_
    exact withinRequestSize_nscodec_iff bitmap codecId colorLossLevel policy.maxRequestSize

def blackSquare : BitmapUpdate :=
  { x := 0, y := 0, width := ⟨64, by decide, by decide⟩, height := ⟨64, by decide, by decide⟩
    format := .bgrX32, data := List.replicate 16384 0, stride := 256, srcX := 0, srcY := 0
    stride_pos := by decide, stride_le := by decide
    data_fits := by rw [List.length_replicate]; decide }

theorem rowsInside_blackSquare : RowsInside blackSquare := by
  have hall : ∀ row < 64, (0 + row) * 256 + (0 + 64) * 4 ≤ 16384 := by decide
  intro row hrow
  have hlength : blackSquare.data.length = 16384 := length_replicate
  rw [hlength]
  exact hall row hrow

theorem pieceSize_blackSquare (hraw : policy.useRdp6Planar = false) :
    (pieces blackSquare policy).filterMap (pieceSize blackSquare policy) = [16402] := by
  have hpieces : pieces blackSquare policy = [⟨0, 0, 64, 64⟩] := by
    rw [pieces, if_neg (by rw [hraw]; decide)]
    rfl
  let tile : Tile blackSquare := ⟨0, 0, 64, 64, by decide, by decide, by decide, by decide⟩
  obtain ⟨pixels, hrows, -⟩ := tile.gatherRows_tile rowsInside_blackSquare (Nat.le_refl _) []
  have hsize : pieceSize blackSquare policy ⟨0, 0, 64, 64⟩ = some 16402 := by
    rw [pieceSize, hrows, hraw]
    rfl
  rw [hpieces, filterMap_cons, hsize]
  rfl

/-- The update is 16406 bytes long where the client takes 16374. -/
theorem black_square_exceeds_request_size :
    ¬ UpdatesWithin blackSquare
        (bitmapEncodePolicy "MacBook" none (sessionMaxRequestSize (some 16374)))
        ⟨[], [], [], []⟩ := by
  intro hwithin
  have hpolicy : bitmapEncodePolicy "MacBook" none (sessionMaxRequestSize (some 16374)) =
      ⟨false, 1, none, 16374⟩ := by decide
  rw [hpolicy] at hwithin
  have hloops : LoopsEnd blackSquare ⟨false, 1, none, 16374⟩ := fun hplanar => by cases hplanar
  obtain ⟨stats, after, hencode⟩ := encodeBitmapUpdate_of_loopsEnd hloops ⟨[], [], [], []⟩
  have hfit := (withinRequestSize_bitmap_iff hencode).mp (hwithin.1 stats after hencode)
  rw [PiecesFit, pieceSize_blackSquare rfl] at hfit
  have hbatch := hfit [16402] (by decide)
  exact absurd hbatch (by decide)

end Kmsrdp.Guarantees.UpdateSize
