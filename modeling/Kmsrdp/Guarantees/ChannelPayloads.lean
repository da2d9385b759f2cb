import Kmsrdp.Source.Dvc.Mux
import Kmsrdp.Client.SegmentedData

/-!
# Payloads on a dynamic channel

A receiver puts the PDUs of `encode_channel_payload` together by the rules of
`DvcMux::handle_incoming_data`, without its two size checks.
-/
namespace Kmsrdp.Guarantees.ChannelPayloads
open Library.ByteString Library.Chunks Library.Reassembly Source.Pdu Source.Dvc List
open Source.Rdpegfx (encodeSegmented zgfxMaxSegmentPayload)
open Client.SegmentedData (decodeSegmented decodeSegmented_encodeSegmented)

def assembleUnlimited (reassembly : Option (Nat × Bytes)) (data : Bytes) (startsNew : Option Nat) :
    Option Bytes × Option (Nat × Bytes) :=
  match startsNew with
  | some totalLength =>
    if totalLength ≤ data.length % 2 ^ 32 then (some (data.take totalLength), reassembly)
    else (none, some (totalLength, data))
  | none =>
    match reassembly with
    | some (totalLength, buffered) =>
      if totalLength ≤ (buffered ++ data).length % 2 ^ 32 then
        (some ((buffered ++ data).take totalLength), none)
      else (none, some (totalLength, buffered ++ data))
    | none => (some data, none)

/-- The receiver of one channel: what it has delivered, and the message in progress. -/
structure Receiver where
  delivered : List Bytes
  reassembly : Option (Nat × Bytes)

def Receiver.idle : Receiver := ⟨[], none⟩

def Receiver.take (r : Receiver) (data : Bytes) (startsNew : Option Nat) : Receiver :=
  let assembled := assembleUnlimited r.reassembly data startsNew
  ⟨r.delivered ++ assembled.1.toList, assembled.2⟩

def Receiver.read (channelId : Nat) (r : Receiver) (pdu : Bytes) : Option Receiver :=
  match decodeClientMessage pdu with
  | .ok (.data id data) => if id = channelId then some (r.take data none) else none
  | .ok (.dataFirst id totalLength data) =>
    if id = channelId then some (r.take data (some totalLength)) else none
  | _ => none

def Receiver.readAll (channelId : Nat) : Receiver → List Bytes → Option Receiver
  | r, [] => some r
  | r, pdu :: rest => (r.read channelId pdu).bind fun r => r.readAll channelId rest

/-- A fragment that arrives in an expected place: a first one when no message is in progress, and
no message in progress outgrows 32 bits. -/
def Expected (progress : InProgress UInt8) (fragment : Fragment UInt8) : Prop :=
  match progress, fragment with
  | none, .first _ data => data.length < 2 ^ 32
  | some _, .first _ _ => False
  | some (_, buffered), .more data => (buffered ++ data).length < 2 ^ 32
  | none, .more _ => True

variable {channelId : Nat}

theorem read_of_dataFragment {pdu : Bytes} {fragment : Fragment UInt8} (r : Receiver)
    (hcarries : dataFragment pdu = some (channelId, fragment))
    (hexpected : Expected r.reassembly fragment) :
    r.read channelId pdu =
      some ⟨r.delivered ++ (feed r.reassembly fragment).1, (feed r.reassembly fragment).2⟩ := by
  obtain ⟨delivered, reassembly⟩ := r
  cases hdecode : decodeClientMessage pdu with
  | error _ =>
    rw [dataFragment, hdecode] at hcarries
    cases hcarries
  | ok message =>
    rw [dataFragment, hdecode] at hcarries
    rw [Receiver.read, hdecode]
    cases message with
    | data id data =>
      cases hcarries
      cases reassembly with
      | none => simp [Receiver.take, assembleUnlimited, feed]
      | some progress =>
        have hwide : (progress.2 ++ data).length % 2 ^ 32 = (progress.2 ++ data).length :=
          Nat.mod_eq_of_lt hexpected
        simp only [if_true, Receiver.take, assembleUnlimited, feed, settle, hwide]
        split <;> simp
    | dataFirst id totalLength data =>
      cases hcarries
      cases reassembly with
      | some progress => exact hexpected.elim
      | none =>
        have hwide : data.length % 2 ^ 32 = data.length := Nat.mod_eq_of_lt hexpected
        simp only [if_true, Receiver.take, assembleUnlimited, feed, settle, hwide]
        split <;> simp
    | _ => cases hcarries

/-- Every fragment of the sequence is expected where it comes. -/
def AllExpected : InProgress UInt8 → List (Fragment UInt8) → Prop
  | _, [] => True
  | progress, fragment :: rest =>
    Expected progress fragment ∧ AllExpected (feed progress fragment).2 rest

variable {fragments : List (Fragment UInt8)}

theorem AllExpected.take {progress : InProgress UInt8}
    (h : AllExpected progress fragments)
    (n : Nat) : AllExpected progress (fragments.take n) := by
  induction fragments generalizing progress n with
  | nil => simpa using h
  | cons fragment rest ih =>
    cases n with
    | zero => trivial
    | succ n => exact ⟨h.1, ih h.2 n⟩

theorem readAll_of_dataFragment {pdus : List Bytes} (r : Receiver)
    (hcarries : pdus.map dataFragment = fragments.map fun fragment => some (channelId, fragment))
    (hexpected : AllExpected r.reassembly fragments) :
    r.readAll channelId pdus =
      some
        ⟨r.delivered ++ (collect r.reassembly fragments).1,
          (collect r.reassembly fragments).2⟩ := by
  induction fragments generalizing pdus r with
  | nil =>
    rw [map_nil, map_eq_nil_iff] at hcarries
    subst hcarries
    simp [Receiver.readAll, collect]
  | cons fragment rest ih =>
    obtain ⟨pdu, later, rfl, hfirst, hlater⟩ := map_eq_cons_iff.mp hcarries
    rw [Receiver.readAll, read_of_dataFragment r hfirst hexpected.1, Option.bind_some,
      ih _ hlater hexpected.2, collect, append_assoc]

theorem allExpected_more {total : Nat} (front : Bytes) (pieces : List Bytes)
    (hne : ∀ piece ∈ pieces, piece ≠ [])
    (htotal : total = front.length + pieces.flatten.length)
    (hwide : total < 2 ^ 32) : AllExpected (some (total, front)) (pieces.map .more) := by
  induction pieces generalizing front with
  | nil => trivial
  | cons piece rest ih =>
    rw [flatten_cons, length_append] at htotal
    refine ⟨show (front ++ piece).length < 2 ^ 32 by rw [length_append]; omega, ?_⟩
    cases rest with
    | nil => trivial
    | cons next later =>
      have hnext : 0 < next.length := length_pos_iff.mpr (hne next (by simp))
      have hopen : ¬ total ≤ (front ++ piece).length := by
        rw [htotal, length_append, flatten_cons, length_append]
        omega
      rw [feed, settle, if_neg hopen]
      exact ih (front ++ piece) (fun other hother => hne other (mem_cons_of_mem _ hother))
        (by rw [htotal, length_append]; omega)

theorem allExpected_split {payload : Bytes} (hwide : payload.length < 2 ^ 32) :
    AllExpected none (split maxDataSize payload) := by
  unfold split
  split
  · exact ⟨trivial, trivial⟩
  · next hlong =>
    obtain ⟨rest, -, hchunks⟩ := chunks_of_lt (by decide) (Nat.lt_of_not_le hlong)
    have hlength : payload.length = (payload.take maxDataSize).length + rest.flatten.length := by
      rw [← length_append, ← flatten_cons, ← hchunks, flatten_chunks (by decide)]
    have hopen : ¬ payload.length ≤ (payload.take maxDataSize).length := by
      rw [length_take]
      omega
    rw [hchunks]
    refine ⟨show (payload.take maxDataSize).length < 2 ^ 32 by rw [length_take]; omega, ?_⟩
    rw [feed, settle, if_neg hopen]
    exact allExpected_more _ rest
      (fun piece hpiece => ne_nil_of_mem_chunks (by decide) (hchunks ▸ mem_cons_of_mem _ hpiece))
      hlength hwide

theorem readAll_take_encodeChannelPayload
    (hid : channelId < 2 ^ 32)
    {payload : Bytes}
    (hwide : payload.length < 2 ^ 32)
    (n : Nat) :
    Receiver.idle.readAll channelId ((encodeChannelPayload channelId payload).take n) =
      some
        ⟨(collect none ((split maxDataSize payload).take n)).1,
          (collect none ((split maxDataSize payload).take n)).2⟩ := by
  refine readAll_of_dataFragment Receiver.idle ?_ ((allExpected_split hwide).take n)
  rw [map_take, map_dataFragment_encodeChannelPayload hid hwide, map_take]

theorem length_chunkify_of_le {pdu : Bytes} (hlength : pdu.length ≤ defaultChunkLength) :
    (chunkify pdu).length = 1 := by
  unfold chunkify
  split
  · rfl
  · next hne => simp only [chunks_one hne hlength, length_mapIdx, length_singleton]

/-- Every PDU of a payload fits one chunk of the static channel; the receiver gets the payload
with the last PDU and nothing before it; and the segments of graphics PDUs are within their
limit and decode back to the PDUs. -/
theorem channel_payload_received :
    (∀ channelId < 2 ^ 32, ∀ payload : Bytes, payload.length < 2 ^ 32 →
       (∀ pdu ∈ encodeChannelPayload channelId payload,
          pdu.length ≤ 1600 ∧ (chunkify pdu).length = 1) ∧
       Receiver.idle.readAll channelId (encodeChannelPayload channelId payload) =
         some ⟨[payload], none⟩ ∧
       ∀ n < (encodeChannelPayload channelId payload).length, ∃ r,
         Receiver.idle.readAll channelId ((encodeChannelPayload channelId payload).take n) =
           some r ∧
         r.delivered = []) ∧
    ∀ gfxPdus : Bytes, (chunks zgfxMaxSegmentPayload gfxPdus).length ≤ 65535 → ∃ segments,
      decodeSegmented (encodeSegmented gfxPdus) = .ok segments ∧
      segments.flatten = gfxPdus ∧
      ∀ segment ∈ segments, segment.length ≤ 65535 := by
  refine ⟨fun channelId hid payload hwide => ⟨fun pdu hpdu => ?_, ?_, fun n hn => ?_⟩,
    fun gfxPdus hcount => ?_⟩
  · have hlength : pdu.length ≤ 1600 := Nat.le_succ_of_le (length_le_of_mem_encodeChannelPayload hpdu)
    exact ⟨hlength, length_chunkify_of_le hlength⟩
  · have hall :=
      readAll_take_encodeChannelPayload hid hwide (encodeChannelPayload channelId payload).length
    have hsame := congrArg length (map_dataFragment_encodeChannelPayload hid hwide)
    rw [length_map, length_map] at hsame
    rw [take_length, hsame, take_length, collect_split (by decide)] at hall
    exact hall
  · have hsame := congrArg length (map_dataFragment_encodeChannelPayload hid hwide)
    rw [length_map, length_map] at hsame
    exact ⟨_, readAll_take_encodeChannelPayload hid hwide n,
      collect_take_split (by decide) payload (hsame ▸ hn)⟩
  · exact decodeSegmented_encodeSegmented hcount

/-- Two PDUs on a channel with a two-byte id. -/
theorem channel_payload_received_two :
    Receiver.idle.readAll 300 (encodeChannelPayload 300 (List.replicate 2000 7)) =
      some ⟨[List.replicate 2000 7], none⟩ ∧
    ∃ segments,
      decodeSegmented (encodeSegmented [1, 2, 3]) = .ok segments ∧
      segments.flatten = [1, 2, 3] ∧
      ∀ segment ∈ segments, segment.length ≤ 65535 :=
  ⟨(channel_payload_received.1 300 (by decide) (replicate 2000 7)
    (by rw [length_replicate]; decide)).2.1, channel_payload_received.2 [1, 2, 3] (by decide)⟩

end Kmsrdp.Guarantees.ChannelPayloads
