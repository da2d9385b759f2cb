import Kmsrdp.Client.ChannelChunks

/-!
# Putting the chunks of a static-channel message together

A chunk without the FIRST flag that finds the buffer empty is dropped: the start of its message was
missed.
-/
namespace Kmsrdp.Guarantees.StaticReassembly
open Library.ByteString Source.Pdu Client.ChannelChunks List

abbrev Answer := Except DecodeError (Option Bytes)

/-- What `reassemble` answers, chunk by chunk. -/
def answers (maxSize : Nat) (field : String) : Bytes → List ChannelPdu → List Answer
  | _, [] => []
  | buffer, chunk :: rest =>
    let outcome := reassemble buffer chunk.payload maxSize field
    outcome.1 :: answers maxSize field outcome.2 rest

def delivers (count : Nat) (message : Bytes) : List Answer :=
  List.replicate (count - 1) (.ok none) ++ [.ok (some message)]

section Chunk
variable {buffer : Bytes} {chunk : ChannelPdu} {maxSize : Nat} {field : String}

theorem reassemble_orphan (h : ¬ chunk.isFirst) :
    reassemble [] chunk.payload maxSize field = (.ok none, []) := by
  rw [reassemble, chunk.dechunkify_payload]
  exact if_pos ⟨not_not.mp h, rfl⟩

theorem reassemble_taken {front : Bytes}
    (hfront : chunk.isFirst ∧ front = [] ∨ ¬ chunk.isFirst ∧ buffer ≠ [] ∧ front = buffer)
    (hfits : (front ++ chunk.body).length ≤ maxSize) :
    reassemble buffer chunk.payload maxSize field =
      if chunk.flags.toNat &&& channelFlagLast = 0 then (.ok none, front ++ chunk.body)
      else (.ok (some (front ++ chunk.body)), []) := by
  have hkept : ¬ (chunk.flags.toNat &&& channelFlagFirst = 0 ∧ buffer = []) := by
    rintro ⟨hflag, hempty⟩
    rcases hfront with ⟨hfirst, -⟩ | ⟨-, hbuffer, -⟩
    · exact hfirst hflag
    · exact hbuffer hempty
  have hcleared : (if chunk.flags.toNat &&& channelFlagFirst ≠ 0 then [] else buffer) = front := by
    rcases hfront with ⟨hfirst, rfl⟩ | ⟨hfirst, -, rfl⟩
    · exact if_pos hfirst
    · exact if_neg hfirst
  rw [length_append] at hfits
  rw [reassemble, chunk.dechunkify_payload]
  dsimp only
  rw [if_neg hkept, hcleared, if_neg (by omega)]

end Chunk
section Chunks
variable {maxSize : Nat} {field : String} {chunks : List ChannelPdu}

theorem answers_orphans (h : Continues chunks) :
    answers maxSize field [] chunks = replicate chunks.length (.ok none) := by
  induction chunks with
  | nil => rfl
  | cons chunk rest ih =>
    obtain ⟨hfirst, -, hrest⟩ := h
    rw [answers, reassemble_orphan hfirst, ih hrest]
    rfl

theorem answers_continuation {buffer : Bytes}
    (hbuffer : buffer ≠ [])
    (hchunks : chunks ≠ [])
    (h : Continues chunks)
    (hfits : (buffer ++ chunks.flatMap ChannelPdu.body).length ≤ maxSize) :
    answers maxSize field buffer chunks =
      delivers chunks.length (buffer ++ chunks.flatMap ChannelPdu.body) := by
  induction chunks generalizing buffer with
  | nil => exact absurd rfl hchunks
  | cons chunk rest ih =>
    obtain ⟨hfirst, hlast, hrest⟩ := h
    rw [flatMap_cons, ← append_assoc] at hfits ⊢
    have hshort : (buffer ++ chunk.body).length ≤ maxSize := by
      rw [length_append] at hfits
      omega
    have htaken : reassemble buffer chunk.payload maxSize field = _ :=
      reassemble_taken (.inr ⟨hfirst, hbuffer, rfl⟩) hshort
    rw [answers]
    cases rest with
    | nil =>
      rw [htaken, if_neg (hlast.mpr rfl), flatMap_nil, append_nil]
      rfl
    | cons next rest =>
      have hopen : chunk.flags.toNat &&& channelFlagLast = 0 :=
        not_not.mp fun h => cons_ne_nil _ _ (hlast.mp h)
      have hlater := ih (by simp [hbuffer]) (cons_ne_nil _ _) hrest hfits
      rw [htaken, if_pos hopen, hlater]
      rfl

end Chunks

theorem answers_of_isCut {message : Bytes} {chunks : List ChannelPdu} (hcut : IsCut message chunks)
    {maxSize : Nat} (hsize : message.length ≤ maxSize) (field : String) (buffer : Bytes) :
    answers maxSize field buffer chunks =
      if chunks.length = 1 ∨ (chunks.head?.map ChannelPdu.body) ≠ some []
        then delivers chunks.length message
      else replicate chunks.length (.ok none) := by
  obtain ⟨chunk, rest, rfl, hfirst, hlast, hrest, rfl⟩ := hcut.cases
  have hshort : ([] ++ chunk.body).length ≤ maxSize := by
    rw [length_append] at hsize
    rw [nil_append]
    omega
  have htaken : reassemble buffer chunk.payload maxSize field = _ :=
    reassemble_taken (.inl ⟨hfirst, rfl⟩) hshort
  rw [nil_append] at htaken
  rw [answers]
  cases rest with
  | nil =>
    rw [htaken, if_neg (hlast.mpr rfl), if_pos (.inl rfl), flatMap_nil, append_nil]
    rfl
  | cons next rest =>
    have hopen : chunk.flags.toNat &&& channelFlagLast = 0 :=
      not_not.mp fun h => cons_ne_nil _ _ (hlast.mp h)
    rw [htaken, if_pos hopen]
    by_cases hbody : chunk.body = []
    · -- the buffer is as empty as before the message
      rw [if_neg (by simp [hbody]), hbody, answers_orphans hrest]
      rfl
    · rw [if_pos (.inr (by simpa using hbody)),
        answers_continuation hbody (cons_ne_nil _ _) hrest hsize]
      rfl

theorem replicate_ne_delivers (count : Nat) (message : Bytes) :
    replicate count (.ok none) ≠ delivers count message := by
  intro heq
  have hmem : (.ok (some message) : Answer) ∈ replicate count (.ok none) := by
    rw [heq, delivers]
    simp
  cases (mem_replicate.mp hmem).2

/-- A message within the limit is delivered with its last chunk, and nothing before it, exactly when
it comes in a single chunk or its first chunk is not empty. -/
theorem delivered_iff_first_nonempty {message : Bytes} {chunks : List ChannelPdu}
    (hcut : IsCut message chunks)
    {maxSize : Nat}
    (hsize : message.length ≤ maxSize)
    (field : String) (buffer : Bytes) :
    answers maxSize field buffer chunks = delivers chunks.length message ↔
      chunks.length = 1 ∨ chunks.head?.map ChannelPdu.body ≠ some [] := by
  rw [answers_of_isCut hcut hsize field buffer]
  split
  · next hgood => exact ⟨fun _ => hgood, fun _ => rfl⟩
  · next hbad =>
      exact ⟨fun heq => absurd heq (replicate_ne_delivers _ _), fun hgood => absurd hgood hbad⟩

/-- Four bytes in three chunks, of which the second is empty. -/
theorem delivered_in_three :
    answers 16 "cliprdr.incoming_buffer" [9, 9] (cutInto [[1, 2], [], [3, 4]]) =
      [.ok none, .ok none, .ok (some [1, 2, 3, 4])] :=
  (delivered_iff_first_nonempty (isCut_cutInto (cons_ne_nil [1, 2] [[], [3, 4]])) (by decide)
    "cliprdr.incoming_buffer" [9, 9]).mpr (.inr (by decide))

/-- The same bytes behind an empty first chunk are lost. -/
theorem lost_behind_empty_first :
    IsCut [1, 2, 3, 4] (cutInto [[], [1, 2], [3, 4]]) ∧
    answers 16 "cliprdr.incoming_buffer" [] (cutInto [[], [1, 2], [3, 4]]) =
      [.ok none, .ok none, .ok none] :=
  ⟨isCut_cutInto (cons_ne_nil [] [[1, 2], [3, 4]]), by decide +kernel⟩

end Kmsrdp.Guarantees.StaticReassembly
