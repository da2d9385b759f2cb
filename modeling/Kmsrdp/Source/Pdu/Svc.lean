import Kmsrdp.Library.Chunks
import Kmsrdp.Source.Pdu.X224
import Kmsrdp.Source.Pdu.Mcs

/-!
# Static virtual channel framing

Model of `rdpcore-pdu/src/svc.rs`. `wholeMessage` is what a client makes of a frame that holds a
message in one chunk.
-/
namespace Kmsrdp.Source.Pdu
open Library.ByteString Library.Chunks List

def channelFlagFirst : Nat := 0x00000001
def channelFlagLast : Nat := 0x00000002
def defaultChunkLength : Nat := 1600

def channelChunk (totalLength flags : Nat) (chunk : Bytes) : Bytes :=
  u32Le totalLength ++ (u32Le flags ++ chunk)

def chunkFlags (count i : Nat) : Nat :=
  (if i = 0 then channelFlagFirst else 0) ||| (if i = count - 1 then channelFlagLast else 0)

def chunkify (data : Bytes) : List Bytes :=
  if data = [] then [channelChunk 0 (channelFlagFirst ||| channelFlagLast) []]
  else
    let pieces := chunks defaultChunkLength data
    pieces.mapIdx fun i chunk => channelChunk data.length (chunkFlags pieces.length i) chunk

def wrapIndication (initiator channelId : Nat) (data : Bytes) : List Bytes :=
  (chunkify data).map fun chunk =>
    wrapData (SendData.encodeIndication ⟨initiator, channelId, chunk, true⟩)

def dechunkify : Decoder (Nat × Nat × Bytes) := do
  let totalLength ← readU32Le
  let flags ← readU32Le
  let body ← readRest
  return (totalLength, flags, body)

def reassemble (buffer payload : Bytes) (maxSize : Nat) (field : String) :
    Except DecodeError (Option Bytes) × Bytes :=
  match decodeFrom dechunkify payload with
  | .error e => (.error e, buffer)
  | .ok (_, flags, chunk) =>
    if flags &&& channelFlagFirst = 0 ∧ buffer = [] then
      -- an orphan continuation
      (.ok none, buffer)
    else
      let buffer := if flags &&& channelFlagFirst ≠ 0 then [] else buffer
      if maxSize < buffer.length + chunk.length then
        (.error (.invalidValue field "reassembled SVC message exceeded maximum allowed size"), [])
      else if flags &&& channelFlagLast = 0 then (.ok none, buffer ++ chunk)
      else (.ok (some (buffer ++ chunk)), [])

theorem length_le_of_reassemble_eq_ok {buffer payload message : Bytes} {maxSize : Nat}
    {field : String}
    (h : (reassemble buffer payload maxSize field).1 = .ok (some message)) :
    message.length ≤ maxSize := by
  unfold reassemble at h
  split at h
  · cases h
  · next total flags chunk hchunk =>
    generalize (if flags &&& channelFlagFirst ≠ 0 then [] else buffer) = front at h
    split at h
    · cases h
    · dsimp only at h
      split at h
      · cases h
      · next hfits =>
        split at h
        · cases h
        · cases h
          rw [length_append]
          omega

theorem length_reassemble_le {buffer : Bytes} (payload : Bytes) {maxSize : Nat} (field : String)
    (hbuffer : buffer.length ≤ maxSize) :
    (reassemble buffer payload maxSize field).2.length ≤ maxSize := by
  unfold reassemble
  split
  · exact hbuffer
  · next total flags chunk hchunk =>
    generalize (if flags &&& channelFlagFirst ≠ 0 then [] else buffer) = front
    split
    · exact hbuffer
    · dsimp only
      split
      · exact Nat.zero_le _
      · split
        · rw [length_append]
          omega
        · exact Nat.zero_le _

/-- The client's view of a frame: a message of the static channel `channelId`, if the frame
holds one in a single chunk. -/
def wholeMessage (channelId : Nat) (frame : Bytes) : Option Bytes :=
  match (unwrapData frame).bind SendData.decodeIndication with
  | .error _ => none
  | .ok pdu =>
    if pdu.channelId ≠ channelId then none
    else
      match decodeFrom dechunkify pdu.data with
      | .error _ => none
      | .ok (_, flags, body) =>
        if flags = channelFlagFirst ||| channelFlagLast then some body else none

theorem dechunkify_channelChunk {totalLength flags : Nat}
    (htotal : totalLength < 2 ^ 32)
    (hflags : flags < 2 ^ 32)
    (chunk : Bytes) :
    decodeFrom dechunkify (channelChunk totalLength flags chunk) =
      .ok (totalLength, flags, chunk) := by
  rw [decodeFrom, dechunkify, channelChunk, bind_ok (readU32Le_of_lt htotal _),
    bind_ok (readU32Le_of_lt hflags _)]
  rfl

theorem wrapIndication_single {initiator channelId : Nat}
    (hinitiator : initiator < 65536)
    (hchannel : channelId < 65536)
    {data : Bytes}
    (hdata : data ≠ [])
    (hlength : data.length ≤ defaultChunkLength) :
    ∃ frame,
      wrapIndication initiator channelId data = [frame] ∧
      wholeMessage channelId frame = some data := by
  have hchunk : chunkify data =
      [channelChunk data.length (channelFlagFirst ||| channelFlagLast) data] := by
    rw [chunkify, if_neg hdata, chunks_one hdata hlength]
    rfl
  have hsize : data.length ≤ 1600 := hlength
  refine ⟨_, by rw [wrapIndication, hchunk, map_singleton], ?_⟩
  have hdecode := SendData.decodeIndication_encodeIndication
    ⟨initiator, channelId, channelChunk data.length (channelFlagFirst ||| channelFlagLast) data, true⟩
    hinitiator hchannel
    (by simp only [channelChunk, u32Le, length_append, length_cons, length_nil]; omega) rfl
  rw [wholeMessage, unwrapData_wrapData, Except.bind, hdecode]
  simp only [ne_eq, not_true_eq_false, if_false]
  rw [dechunkify_channelChunk (by omega) (by decide)]
  simp only [if_true]

theorem chunkify_ne_nil (data : Bytes) : chunkify data ≠ [] := by
  unfold chunkify
  split
  · exact cons_ne_nil _ _
  · next hdata =>
    intro hnone
    exact chunks_ne_nil defaultChunkLength hdata (mapIdx_eq_nil_iff.mp hnone)

theorem wrapIndication_ne_nil (initiator channelId : Nat) (data : Bytes) :
    wrapIndication initiator channelId data ≠ [] := by
  intro hnone
  exact chunkify_ne_nil data (map_eq_nil_iff.mp hnone)

end Kmsrdp.Source.Pdu
