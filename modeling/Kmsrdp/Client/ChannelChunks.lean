import Kmsrdp.Source.Pdu.Svc

/-!
# A client that cuts a static-channel message into chunks

A message may be cut anywhere, into empty pieces too. The other flag bits and the total length are
left open, since the server reads neither.
-/
namespace Kmsrdp.Client.ChannelChunks
open Library.ByteString Source.Pdu List

structure ChannelPdu where
  (totalLength flags : UInt32)
  body : Bytes

namespace ChannelPdu

def payload (chunk : ChannelPdu) : Bytes :=
  channelChunk chunk.totalLength.toNat chunk.flags.toNat chunk.body

def isFirst (chunk : ChannelPdu) : Prop := chunk.flags.toNat &&& channelFlagFirst ≠ 0

def isLast (chunk : ChannelPdu) : Prop := chunk.flags.toNat &&& channelFlagLast ≠ 0

theorem dechunkify_payload (chunk : ChannelPdu) :
    decodeFrom dechunkify chunk.payload =
      .ok (chunk.totalLength.toNat, chunk.flags.toNat, chunk.body) :=
  dechunkify_channelChunk chunk.totalLength.toNat_lt chunk.flags.toNat_lt chunk.body

end ChannelPdu

/-- The chunks hold the message; the first and the last are marked. -/
structure IsCut (message : Bytes) (chunks : List ChannelPdu) : Prop where
  some_chunk : chunks ≠ []
  joined : chunks.flatMap ChannelPdu.body = message
  first : ∀ i chunk, chunks[i]? = some chunk → (chunk.isFirst ↔ i = 0)
  last : ∀ i chunk, chunks[i]? = some chunk → (chunk.isLast ↔ i + 1 = chunks.length)

def cutInto (pieces : List Bytes) : List ChannelPdu :=
  pieces.mapIdx fun i piece =>
    ⟨UInt32.ofNat pieces.flatten.length, UInt32.ofNat (chunkFlags pieces.length i), piece⟩

theorem flags_chunkFlags (count i : Nat) :
    ((UInt32.ofNat (chunkFlags count i)).toNat &&& channelFlagFirst ≠ 0 ↔ i = 0) ∧
    ((UInt32.ofNat (chunkFlags count i)).toNat &&& channelFlagLast ≠ 0 ↔ i = count - 1) := by
  unfold chunkFlags
  split
  · next hfirst =>
    refine ⟨iff_of_true ?_ hfirst, ?_⟩
    · split <;> decide
    · split
      · next hlast => exact iff_of_true (by decide) hlast
      · next hlast => exact iff_of_false (by decide) hlast
  · next hfirst =>
    refine ⟨iff_of_false ?_ hfirst, ?_⟩
    · split <;> decide
    · split
      · next hlast => exact iff_of_true (by decide) hlast
      · next hlast => exact iff_of_false (by decide) hlast

theorem isCut_cutInto {pieces : List Bytes} (h : pieces ≠ []) :
    IsCut pieces.flatten (cutInto pieces) where
  some_chunk := by
    rw [cutInto, ne_eq, List.mapIdx_eq_nil_iff]
    exact h
  joined := by
    have hbodies : (cutInto pieces).map ChannelPdu.body = pieces :=
      List.ext_getElem (by simp [cutInto]) fun i _ _ => by simp [cutInto]
    rw [List.flatMap_def, hbodies]
  first i chunk hchunk := by
    rw [cutInto, List.getElem?_mapIdx, Option.map_eq_some_iff] at hchunk
    obtain ⟨piece, -, rfl⟩ := hchunk
    exact (flags_chunkFlags pieces.length i).1
  last i chunk hchunk := by
    rw [cutInto, List.getElem?_mapIdx, Option.map_eq_some_iff] at hchunk
    obtain ⟨piece, hpiece, rfl⟩ := hchunk
    have hlt := (List.getElem?_eq_some_iff.mp hpiece).1
    have hlength : (cutInto pieces).length = pieces.length := by simp [cutInto]
    refine (flags_chunkFlags pieces.length i).2.trans ?_
    omega

def Continues : List ChannelPdu → Prop
  | [] => True
  | chunk :: rest => ¬ chunk.isFirst ∧ (chunk.isLast ↔ rest = []) ∧ Continues rest

theorem isLast_iff_of_cons {chunk : ChannelPdu} {rest : List ChannelPdu}
    (hlast : ∀ i c, (chunk :: rest)[i]? = some c → (c.isLast ↔ i + 1 = (chunk :: rest).length)) :
    chunk.isLast ↔ rest = [] := by
  rw [hlast 0 chunk rfl, length_cons, ← length_eq_zero_iff]
  omega

theorem continues_of_flags {chunks : List ChannelPdu}
    (hfirst : ∀ chunk ∈ chunks, ¬ chunk.isFirst)
    (hlast : ∀ i c, chunks[i]? = some c → (c.isLast ↔ i + 1 = chunks.length)) :
    Continues chunks := by
  induction chunks with
  | nil => trivial
  | cons chunk rest ih =>
    refine ⟨hfirst chunk mem_cons_self, isLast_iff_of_cons hlast, ?_⟩
    apply ih
    · exact fun c hmem => hfirst c (mem_cons_of_mem _ hmem)
    · intro i c hc
      rw [hlast (i + 1) c hc, length_cons, Nat.add_right_cancel_iff]

theorem IsCut.cases {message : Bytes} {chunks : List ChannelPdu} (h : IsCut message chunks) :
    ∃ chunk rest,
      chunks = chunk :: rest ∧
      chunk.isFirst ∧
      (chunk.isLast ↔ rest = []) ∧
      Continues rest ∧
      chunk.body ++ rest.flatMap ChannelPdu.body = message := by
  obtain ⟨hne, hjoined, hfirst, hlast⟩ := h
  cases chunks with
  | nil => exact absurd rfl hne
  | cons chunk rest =>
    refine ⟨chunk, rest, rfl, (hfirst 0 chunk rfl).mpr rfl, isLast_iff_of_cons hlast, ?_, hjoined⟩
    apply continues_of_flags
    · intro c hmem
      obtain ⟨i, hi⟩ := mem_iff_getElem?.mp hmem
      rw [hfirst (i + 1) c hi]
      omega
    · intro i c hc
      rw [hlast (i + 1) c hc, length_cons, Nat.add_right_cancel_iff]

end Kmsrdp.Client.ChannelChunks
