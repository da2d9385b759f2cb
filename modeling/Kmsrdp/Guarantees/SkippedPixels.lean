import Kmsrdp.Source.Server.FramePump

/-!
# Pixels the encoder leaves out

A tile not wholly in the buffer of its bitmap is skipped, and so is an NSCodec payload. The session
takes a bitmap as sent if any frames were queued, and the frame markers always are.
-/
namespace Kmsrdp.Guarantees.SkippedPixels
open Library.ByteString Source.Server.Display Source.Server.Encode Source.Server.BitmapSync
  Source.Server.FramePump Option

/-- The encoder leaves out a tile of the bitmap, or the whole NSCodec payload. -/
def LeavesOut (bitmap : BitmapUpdate) (policy : BitmapEncodePolicy) : Prop :=
  match policy.nscodec with
  | some (codecId, cll) => (encodeNscodecUpdate bitmap codecId cll policy.maxRequestSize).1 = []
  | none => ∃ piece ∈ pieces bitmap policy, pieceRect bitmap policy piece = none

/-- The baseline is where it was, and a resync against it is owed. -/
def Owed (before after : BitmapSyncState) : Prop :=
  after.lastSyncedFull = before.lastSyncedFull ∧ after.pendingResync = true

theorem queued_of_encoded {bitmap : BitmapUpdate} {policy : BitmapEncodePolicy} {frameId : Nat}
    {gfxFrames : List Bytes} {queue : Queue}
    (h : encodeAndQueueBitmap bitmap policy ⟨frameId, none, none⟩ gfxFrames false = some queue) :
    queue.bulkSend.isSome = true := by
  obtain ⟨⟨frames, next⟩, hencoded, hqueue⟩ := bind_eq_some_iff.mp h
  obtain ⟨⟨encoded, next⟩, hencode, hframes⟩ := map_eq_some_iff.mp hencoded
  cases hframes
  cases hqueue
  simp [frames_ne_nil hencode]

/-- For every bitmap, policy and state: what the encoder leaves out stays owed if and only if,
whenever something is left out, the bitmap advances no baseline. -/
theorem left_out_owed_iff (sync after : BitmapSyncState) (bitmap : BitmapUpdate)
    (policy : BitmapEncodePolicy) (width height : NonZeroU16) (frameId : Nat)
    (gfxFrames : List Bytes) (gfxHandled : Bool) (queue : Queue)
    (hpump : pumpBitmap sync bitmap policy width height frameId gfxFrames gfxHandled =
      some (after, queue)) :
    (gfxHandled = false ∧ LeavesOut bitmap policy → Owed sync after) ↔
      (gfxHandled = false ∧ LeavesOut bitmap policy →
        sync.resyncTarget = none ∧ coversDesktop bitmap width height = false) := by
  apply imp_congr_right
  rintro ⟨rfl, -⟩
  obtain ⟨_, hqueue, hafter⟩ := bind_eq_some_iff.mp hpump
  cases hafter
  have hqueued := queued_of_encoded hqueue
  cases sync.resyncTarget <;> cases coversDesktop bitmap width height <;>
    simp [Owed, BitmapSyncState.confirmSend, hqueued]

def pixel : NonZeroU16 := ⟨1, Nat.one_pos, one_lt_u16⟩

def missingPixel : BitmapUpdate where
  x := 0
  y := 0
  width := pixel
  height := pixel
  format := .bgrX32
  data := []
  stride := 4
  srcX := 0
  srcY := 0
  stride_pos := BitmapUpdate.bytesPerPixel_pos
  stride_le := BitmapUpdate.bytesPerPixel_le
  data_fits := Nat.two_pow_pos 63

def rawPolicy : BitmapEncodePolicy := ⟨false, 1, none, 65535⟩

theorem leavesOut_missingPixel : LeavesOut missingPixel rawPolicy :=
  ⟨⟨0, 0, 1, 1⟩, by decide +kernel⟩

/-- On a wider desktop the pixel stays owed. -/
theorem left_out_owed_missingPixel :
    ∃ width after queue,
      pumpBitmap .new missingPixel rawPolicy width pixel 1 [] false = some (after, queue) ∧
      Owed .new after := by
  have hwide : ∃ width, coversDesktop missingPixel width pixel = false ∧
      (pumpBitmap .new missingPixel rawPolicy width pixel 1 [] false).isSome = true :=
    ⟨⟨2, by decide +kernel, by decide +kernel⟩, by decide +kernel⟩
  obtain ⟨width, hcovers, hsome⟩ := hwide
  obtain ⟨⟨after, queue⟩, hpump⟩ := isSome_iff_exists.mp hsome
  exact ⟨width, after, queue, hpump, (left_out_owed_iff _ _ _ _ _ _ _ _ _ _ hpump).mpr
    (fun _ => ⟨rfl, hcovers⟩) ⟨rfl, leavesOut_missingPixel⟩⟩

/-- The first frame of a desktop of one pixel: only the markers are sent, and the frame is taken as
the one the client shows. -/
theorem missing_frame_confirmed :
    LeavesOut missingPixel rawPolicy ∧
    (pumpBitmap .new missingPixel rawPolicy pixel pixel 1 [] false).map
      (fun out => (out.1, out.2.bulkSend.map List.length)) =
      some (⟨false, some missingPixel, none⟩, some 2) :=
  ⟨leavesOut_missingPixel, by decide +kernel⟩

end Kmsrdp.Guarantees.SkippedPixels
