import Kmsrdp.Client.StaticChannel

/-!
# Messages of a static channel through all layers

Read back through all layers, the chunks that `wrap_indication` makes of a message within the limit
give nothing until the last, which gives the message.
-/
namespace Kmsrdp.Guarantees.StaticDelivery
open Library.ByteString Library.Chunks Library.Segments Client.StaticChannel Source.Pdu List

def sizeError (field : String) : DecodeError :=
  .invalidValue field "reassembled SVC message exceeded maximum allowed size"

/-- A message over the limit gives one error, at the chunk that passes it. -/
def expected (limit : Nat) (field : String) (message : Bytes) : List Result :=
  let count := (chunkify message).length
  if message.length ≤ limit then List.replicate (count - 1) (.ok none) ++ [.ok (some message)]
  else
    let refused := limit / defaultChunkLength
    List.replicate refused (.ok none) ++ .error (sizeError field) ::
      List.replicate (count - 1 - refused) (.ok none)

def segmentFlags (first last : Bool) : Nat :=
  (if first then channelFlagFirst else 0) ||| (if last then channelFlagLast else 0)

def segmentChunk (totalLength : Nat) (segment : Segment UInt8) : Bytes :=
  channelChunk totalLength (segmentFlags segment.first segment.last) segment.data

theorem mapIdx_channelChunk (totalLength count start : Nat) (rest : List Bytes)
    (hcount : count = start + rest.length) :
    (rest.mapIdx fun i chunk => channelChunk totalLength (chunkFlags count (i + start)) chunk) =
      (tag (decide (start = 0)) rest).map (segmentChunk totalLength) := by
  induction rest generalizing start with
  | nil => rfl
  | cons piece rest ih =>
    have hlater := ih (start + 1) (by rw [hcount, length_cons]; omega)
    have hflags : chunkFlags count (0 + start) = segmentFlags (decide (start = 0)) rest.isEmpty := by
      have hlast : start = count - 1 ↔ rest.isEmpty = true := by
        rw [hcount, List.length_cons, List.isEmpty_iff, ← List.length_eq_zero_iff]
        omega
      simp only [chunkFlags, segmentFlags, Nat.zero_add, hlast, decide_eq_true_eq]
    have hshift : (rest.mapIdx fun i chunk => channelChunk totalLength
        (chunkFlags count (i + 1 + start)) chunk) =
        rest.mapIdx fun i chunk => channelChunk totalLength (chunkFlags count (i + (start + 1)))
          chunk := by
      simp only [Nat.add_assoc, Nat.add_comm 1 start]
    rw [mapIdx_cons, hshift, hlater, hflags, tag, map_cons]
    rfl

theorem chunkify_eq (message : Bytes) :
    chunkify message = (segments defaultChunkLength message).map (segmentChunk message.length) := by
  unfold chunkify segments pieces
  split
  · next hnil =>
    rw [hnil]
    rfl
  · exact mapIdx_channelChunk message.length _ 0 _ (Nat.zero_add _).symm

def toResult (field : String) : Outcome UInt8 → Result
  | .waiting => .ok none
  | .complete message => .ok (some message)
  | .tooLong => .error (sizeError field)

theorem reassemble_segmentChunk {totalLength : Nat}
    (htotal : totalLength < 2 ^ 32)
    (segment : Segment UInt8) (limit : Nat) (field : String) (buffer : Bytes) :
    reassemble buffer (segmentChunk totalLength segment) limit field =
      (toResult field (receive limit buffer segment).1, (receive limit buffer segment).2) := by
  obtain ⟨first, last, data⟩ := segment
  have hflags : segmentFlags first last < 2 ^ 32 := by
    cases first <;> cases last <;> decide
  have hfirst : segmentFlags first last &&& channelFlagFirst = 0 ↔ first = false := by
    cases first <;> cases last <;> decide
  have hlast : segmentFlags first last &&& channelFlagLast = 0 ↔ last = false := by
    cases first <;> cases last <;> decide
  rw [reassemble, segmentChunk, dechunkify_channelChunk htotal hflags]
  simp only [hfirst, hlast, ne_eq, Bool.not_eq_false, receive, List.isEmpty_iff]
  split
  · rfl
  · generalize (if first = true then [] else buffer) = front
    by_cases hlong : limit < front.length + data.length
    · simp only [if_pos hlong]
      rfl
    · simp only [if_neg hlong]
      cases last <;> rfl

theorem reassembleAll_map {totalLength : Nat}
    (htotal : totalLength < 2 ^ 32)
    (limit : Nat) (field : String) (buffer : Bytes) (row : List (Segment UInt8)) :
    reassembleAll limit field buffer (row.map (segmentChunk totalLength)) =
      ((receiveAll limit buffer row).1.map (toResult field), (receiveAll limit buffer row).2) :=
    by
  induction row generalizing buffer with
  | nil => rfl
  | cons segment rest ih =>
    rw [map_cons, reassembleAll, reassemble_segmentChunk htotal]
    rw [ih]
    rfl

theorem length_tag (first : Bool) (row : List Bytes) : (tag first row).length = row.length := by
  induction row generalizing first with
  | nil => rfl
  | cons piece rest ih => rw [tag, length_cons, length_cons, ih]

theorem map_outcomes (limit : Nat) (field : String) (message : Bytes) :
    (outcomes defaultChunkLength limit (pieces defaultChunkLength message).length [] message).map
      (toResult field) =
      expected limit field message := by
  have hcount : (chunkify message).length = (pieces defaultChunkLength message).length := by
    rw [chunkify_eq, length_map, segments, length_tag]
  simp only [outcomes, expected, hcount, length_nil, Nat.zero_add, Nat.sub_zero, nil_append]
  split
  · simp [toResult]
  · simp [toResult]

theorem reassembleAll_chunkify {message : Bytes}
    (hmessage : message.length < 2 ^ 32)
    (limit : Nat) (field : String) (buffer : Bytes) :
    reassembleAll limit field buffer (chunkify message) = (expected limit field message, []) := by
  rw [chunkify_eq, reassembleAll_map hmessage, receiveAll_segments (by decide), map_outcomes]

theorem reassembleAll_flatMap_chunkify {messages : List Bytes}
    (hmessages : ∀ message ∈ messages, message.length < 2 ^ 32)
    (limit : Nat) (field : String) (buffer : Bytes) :
    (reassembleAll limit field buffer (messages.flatMap chunkify)).1 =
      messages.flatMap (expected limit field) := by
  induction messages generalizing buffer with
  | nil => rfl
  | cons message rest ih =>
    have hlater := ih fun other hother => hmessages other (mem_cons_of_mem _ hother)
    rw [flatMap_cons, reassembleAll_append,
      reassembleAll_chunkify (hmessages message mem_cons_self), flatMap_cons]
    rw [hlater]

theorem length_of_mem_chunkify {message chunk : Bytes} (h : chunk ∈ chunkify message) :
    chunk.length < 0x8000 := by
  have hheader : ∀ totalLength flags (data : Bytes), (channelChunk totalLength flags data).length =
      data.length + 8 := by
    intro totalLength flags data
    simp [channelChunk, u32Le]
  unfold chunkify at h
  split at h
  · rw [mem_singleton.mp h]
    decide
  · obtain ⟨i, hi, rfl⟩ := mem_mapIdx.mp h
    have hlength := length_le_of_mem_chunks (getElem_mem hi)
    rw [hheader]
    exact Nat.lt_of_le_of_lt (Nat.add_le_add_right hlength 8) (by decide)

/-- For any row of messages shorter than 2^32 bytes, any ids, any limit and any buffer: the
stream of their frames, read through all the layers, gives each message its results. The
initiator is an offset from 1001 on the wire; below that it wraps around, and is read back all
the same. -/
theorem messages_received {initiator channelId : Nat}
    (hinitiator : initiator < 65536)
    (hchannel : channelId < 65536)
    {messages : List Bytes}
    (hmessages : ∀ message ∈ messages, message.length < 2 ^ 32)
    (limit : Nat) (field : String) (buffer : Bytes) :
    receiveStream limit field buffer
      (messages.flatMap (wrapIndication initiator channelId)).flatten =
      some (messages.flatMap (expected limit field)) := by
  have hframes : messages.flatMap (wrapIndication initiator channelId) =
      (messages.flatMap chunkify).map (chunkFrame initiator channelId) := by
    rw [map_flatMap]
    rfl
  have hpayloads : ∀ payload ∈ messages.flatMap chunkify, payload.length < 0x8000 := by
    intro payload hpayload
    obtain ⟨message, -, hchunk⟩ := mem_flatMap.mp hpayload
    exact length_of_mem_chunkify hchunk
  rw [hframes, receiveStream_chunkFrames hinitiator hchannel hpayloads,
    reassembleAll_flatMap_chunkify hmessages]

/-- A message over the limit of two bytes, then one within it, on a buffer left by something
else. -/
theorem received_after_refused :
    receiveStream 2 "rdpdr.incoming_buffer" [9, 9]
      ([[1, 2, 3], [4, 5]].flatMap (wrapIndication 1007 1004)).flatten =
      some [.error (sizeError "rdpdr.incoming_buffer"), .ok (some [4, 5])] :=
  messages_received (by decide) (by decide) (by decide) 2 "rdpdr.incoming_buffer" [9, 9]

end Kmsrdp.Guarantees.StaticDelivery
