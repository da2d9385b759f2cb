import Kmsrdp.Source.Server.BitmapSync
import Kmsrdp.Source.Server.Encode

/-!
# From a bitmap to the bulk send

Model of `encode_outbound_bitmap` and `encode_and_queue_bitmap` in `server/frame_pump.rs` and of the
part of a turn of `session_loop.rs` that calls them and confirms the send. What a GFX session made
of the bitmap is an input.
-/
namespace Kmsrdp.Source.Server.FramePump
open Library.ByteString Source.Pdu Source.Server.Display Source.Server.Fragments
  Source.Server.Encode
open Source.Server.BitmapSync

def encodeBatches (bitmap : BitmapUpdate) (policy : BitmapEncodePolicy) :
    Option (List (List Bytes)) :=
  match policy.nscodec with
  | some (codecId, cll) => some (encodeNscodecUpdate bitmap codecId cll policy.maxRequestSize).1
  | none => (encodeBitmapUpdate bitmap policy ⟨[], [], [], []⟩).map fun encoded => encoded.2.batches

def encodeOutboundBitmap (bitmap : BitmapUpdate) (policy : BitmapEncodePolicy) (frameId : Nat) :
    Option (List Bytes × Nat) :=
  let marker (action : Nat) : List Bytes :=
    encodeUpdateToWireFrames updateCodeSurfaceCommands (encodeFrameMarker action frameId)
      policy.maxRequestSize
  (encodeBatches bitmap policy).map fun batches =>
    (marker frameActionBegin ++ batches.flatten ++ marker frameActionEnd,
      max ((frameId + 1) % 2 ^ 32) 1)

structure Queue where
  frameId : Nat
  bulkSend : Option (List Bytes)
  deferredBitmap : Option BitmapUpdate

def encodeAndQueueBitmap (bitmap : BitmapUpdate) (policy : BitmapEncodePolicy) (q : Queue)
    (gfxFrames : List Bytes) (gfxHandled : Bool) : Option Queue :=
  if q.bulkSend.isSome then some { q with deferredBitmap := some bitmap }
  else do
    let (frames, frameId) ←
      if gfxHandled then some (gfxFrames, q.frameId)
      else (encodeOutboundBitmap bitmap policy q.frameId).map fun encoded =>
        (gfxFrames ++ encoded.1, encoded.2)
    return { q with frameId := frameId, bulkSend := if frames = [] then none else some frames }

def pumpBitmap (sync : BitmapSyncState) (bitmap : BitmapUpdate) (policy : BitmapEncodePolicy)
    (desktopWidth desktopHeight : NonZeroU16) (frameId : Nat) (gfxFrames : List Bytes)
    (gfxHandled : Bool) :
    Option (BitmapSyncState × Queue) := do
  let (advanceSynced, sync) := sync.takeResyncTarget
  let advanceFull := if coversDesktop bitmap desktopWidth desktopHeight then some bitmap else none
  let queue ← encodeAndQueueBitmap bitmap policy ⟨frameId, none, none⟩ gfxFrames gfxHandled
  return (sync.confirmSend queue.bulkSend.isSome advanceSynced advanceFull, queue)

theorem frames_ne_nil {bitmap : BitmapUpdate} {policy : BitmapEncodePolicy} {frameId next : Nat}
    {frames : List Bytes}
    (h : encodeOutboundBitmap bitmap policy frameId = some (frames, next)) : frames ≠ [] := by
  have hmarker : encodeUpdateToWireFrames updateCodeSurfaceCommands
      (encodeFrameMarker frameActionBegin frameId)
      policy.maxRequestSize ≠ [] := by
    intro hnil
    have hbody :=
      flatMap_data_fragments updateCodeSurfaceCommands (encodeFrameMarker frameActionBegin frameId)
      policy.maxRequestSize
    rw [encodeUpdateToWireFrames, List.map_eq_nil_iff] at hnil
    rw [hnil] at hbody
    cases hbody
  obtain ⟨batches, -, hframes⟩ := Option.map_eq_some_iff.mp h
  cases hframes
  simp [hmarker]

end Kmsrdp.Source.Server.FramePump
