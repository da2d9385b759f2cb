import Kmsrdp.Source.Dvc.Mux

/-!
# A client of dynamic channels

The client puts the Data and DataFirst PDUs of the drdynvc channel together per channel, without a
size limit.
-/
namespace Kmsrdp.Client.DynamicChannels
open Library.ByteString Library.Reassembly Source.Pdu Source.Dvc List
variable {η : Type}

def fragmentFor (channelId dynamicId : Nat) (frame : Bytes) : Option (Fragment UInt8) :=
  match (wholeMessage channelId frame).bind dataFragment with
  | some (id, fragment) => if id = dynamicId then some fragment else none
  | none => none

def received (channelId dynamicId : Nat) (frames : List Bytes) : List Bytes × InProgress UInt8 :=
  collect none (frames.filterMap (fragmentFor channelId dynamicId))

def readsFor (mux : DvcMux η) (dynamicId : Nat) : Bytes → Option (Fragment UInt8) :=
  fragmentFor mux.channelId.toNat dynamicId

theorem filterMap_readsFor_wrap (mux : DvcMux η) (dynamicId : Nat) {pdu : Bytes}
    (hpdu : pdu ≠ [])
    (hlength : pdu.length ≤ defaultChunkLength) :
    (mux.wrap pdu).filterMap (readsFor mux dynamicId) =
      [dataFragment pdu].filterMap fun read =>
        read.bind fun found => if found.1 = dynamicId then some found.2 else none := by
  obtain ⟨frame, hwrap, hwhole⟩ := wrapIndication_single (UInt16.toNat_lt mux.userChannelId)
    (UInt16.toNat_lt mux.channelId) hpdu hlength
  rw [DvcMux.wrap, hwrap]
  have hread : readsFor mux dynamicId frame = (dataFragment pdu).bind fun found =>
      if found.1 = dynamicId then some found.2 else none := by
    rw [readsFor, fragmentFor, hwhole]
    cases hdata : dataFragment pdu <;> simp [hdata]
  rw [filterMap_cons, filterMap_cons, hread]
  rfl

theorem encodeChannelPayload_ne_nil {channelId : Nat} {payload pdu : Bytes}
    (h : pdu ∈ encodeChannelPayload channelId payload) : pdu ≠ [] := by
  unfold encodeChannelPayload at h
  split at h
  · rw [mem_singleton.mp h]
    exact cons_ne_nil _ _
  · split at h
    · cases h
    · rcases mem_cons.mp h with rfl | h
      · exact cons_ne_nil _ _
      · obtain ⟨piece, -, rfl⟩ := mem_map.mp h
        exact cons_ne_nil _ _

theorem filterMap_readsFor_flatMap_wrap (mux : DvcMux η) (dynamicId : Nat) {pdus : List Bytes}
    (hpdus : ∀ pdu ∈ pdus, pdu ≠ [] ∧ pdu.length ≤ defaultChunkLength) :
    (pdus.flatMap mux.wrap).filterMap (readsFor mux dynamicId) =
      (pdus.map dataFragment).filterMap fun read =>
        read.bind fun found => if found.1 = dynamicId then some found.2 else none := by
  induction pdus with
  | nil => rfl
  | cons pdu rest ih =>
    obtain ⟨hne, hlength⟩ := hpdus pdu mem_cons_self
    rw [flatMap_cons, filterMap_append, filterMap_readsFor_wrap mux dynamicId hne hlength,
      ih fun pdu hpdu => hpdus pdu (mem_cons_of_mem _ hpdu), ← filterMap_append]
    rfl

theorem filterMap_readsFor_encodePayloads (mux : DvcMux η) (dynamicId : Nat) {channelId : Nat}
    (hid : channelId < 2 ^ 32)
    {payloads : List Bytes}
    (hpayloads : ∀ payload ∈ payloads, payload.length < 2 ^ 32) :
    (mux.encodePayloads channelId payloads).filterMap (readsFor mux dynamicId) =
      if channelId = dynamicId then payloads.flatMap (split maxDataSize) else [] := by
  induction payloads with
  | nil => simp [DvcMux.encodePayloads]
  | cons payload rest ih =>
    have hfits : ∀ pdu ∈ encodeChannelPayload channelId payload,
        pdu ≠ [] ∧ pdu.length ≤ defaultChunkLength := fun pdu hpdu =>
      ⟨encodeChannelPayload_ne_nil hpdu,
        Nat.le_trans (length_le_of_mem_encodeChannelPayload hpdu) (by decide)⟩
    have hfirst : ((encodeChannelPayload channelId payload).flatMap mux.wrap).filterMap
        (readsFor mux dynamicId) = if channelId = dynamicId then split maxDataSize payload else [] := by
      rw [filterMap_readsFor_flatMap_wrap mux dynamicId hfits,
        map_dataFragment_encodeChannelPayload hid (hpayloads payload mem_cons_self)]
      by_cases hsame : channelId = dynamicId <;> simp [filterMap_map, hsame]
    have hrest := ih fun payload hpayload => hpayloads payload (mem_cons_of_mem _ hpayload)
    rw [DvcMux.encodePayloads] at hrest ⊢
    rw [flatMap_cons, flatMap_append, filterMap_append, hfirst, hrest, flatMap_cons]
    split <;> rfl

end Kmsrdp.Client.DynamicChannels
