import Kmsrdp.Source.Dvc.Pdu
import Kmsrdp.Source.Pdu.Svc

/-!
# The dynamic channel multiplexer

Model of `DvcMux` in `rdpcore-dvc/src/lib.rs`. A handler is a value of `η`; what its methods change
is a state of type `ω`, which stays when the mux drops the handler.
-/
namespace Kmsrdp.Source.Dvc
open Library.ByteString Source.Pdu List
variable {η ω : Type}

structure DvcHandlers (η ω : Type) where
  channelName : η → String
  onOpen : η → ω → List Bytes × ω
  onData : η → ω → Bytes → List Bytes × ω

structure ChannelSlot (η : Type) where
  id : Nat
  handler : η
  reassembly : Option (Nat × Bytes)

structure DvcMux (η : Type) where
  (channelId userChannelId : UInt16)
  svcIncoming : Bytes
  nextDynamicId : Nat
  capabilityNegotiated : Bool
  pending : List η
  channels : List (ChannelSlot η)

def maxDvcMessageSize : Nat := 16 * 1024 * 1024

inductive Response where
  | creates (requests : List (Nat × String))
  | payloads (channelId : Nat) (messages : List Bytes)

namespace DvcMux

def new (channelId userChannelId : UInt16) : DvcMux η :=
  ⟨channelId, userChannelId, [], 1, false, [], []⟩

def wrap (mux : DvcMux η) (pdu : Bytes) : List Bytes :=
  wrapIndication mux.userChannelId.toNat mux.channelId.toNat pdu

def initial (mux : DvcMux η) : List Bytes := mux.wrap encodeCapabilityRequest

def encodePayloads (mux : DvcMux η) (channelId : Nat) (payloads : List Bytes) : List Bytes :=
  (payloads.flatMap (encodeChannelPayload channelId)).flatMap mux.wrap

end DvcMux

def Response.frames (mux : DvcMux η) : Response → List Bytes
  | .creates requests =>
    requests.flatMap fun request => mux.wrap (encodeCreateRequest request.1 request.2)
  | .payloads channelId messages => mux.encodePayloads channelId messages

namespace DvcMux
variable (handlers : DvcHandlers η ω)

def openChannel (mux : DvcMux η) (handler : η) : (Nat × String) × DvcMux η :=
  ((mux.nextDynamicId, handlers.channelName handler),
    { mux with
      nextDynamicId := mux.nextDynamicId + 1
      channels := mux.channels ++ [⟨mux.nextDynamicId, handler, none⟩] })

def openAll : DvcMux η → List η → List (Nat × String) × DvcMux η
  | mux, [] => ([], mux)
  | mux, handler :: rest =>
    let opened := mux.openChannel handlers handler
    let later := openAll opened.2 rest
    (opened.1 :: later.1, later.2)

def registerChannel (mux : DvcMux η) (handler : η) : Response × DvcMux η :=
  if mux.capabilityNegotiated then
    let opened := mux.openChannel handlers handler
    (.creates [opened.1], opened.2)
  else (.creates [], { mux with pending := mux.pending ++ [handler] })

def assemble (reassembly : Option (Nat × Bytes)) (data : Bytes) (startsNew : Option Nat) :
    Except DecodeError (Option Bytes) × Option (Nat × Bytes) :=
  match startsNew with
  | some totalLength =>
    if maxDvcMessageSize < totalLength then
      (.error (.invalidValue "dvc.data_first.total_length"
        "DataFirst declared total length exceeds maximum allowed size"), reassembly)
    else if totalLength ≤ data.length % 2 ^ 32 then
      -- a complete message leaves `slot.reassembly` as it is
      (.ok (some (data.take totalLength)), reassembly)
    else (.ok none, some (totalLength, data))
  | none =>
    match reassembly with
    | some (totalLength, buffered) =>
      if maxDvcMessageSize < buffered.length + data.length then
        (.error (.invalidValue "dvc.data.buffered"
          "accumulated dynamic channel data exceeded maximum allowed size"), none)
      else if totalLength ≤ (buffered ++ data).length % 2 ^ 32 then
        (.ok (some ((buffered ++ data).take totalLength)), none)
      else (.ok none, some (totalLength, buffered ++ data))
    | none => (.ok (some data), none)

def setReassembly (channelId : Nat) (reassembly : Option (Nat × Bytes)) :
    List (ChannelSlot η) → List (ChannelSlot η)
  | [] => []
  | slot :: rest =>
    if slot.id = channelId then { slot with reassembly := reassembly } :: rest
    else slot :: setReassembly channelId reassembly rest

def findSlot (mux : DvcMux η) (channelId : Nat) : Option (ChannelSlot η) :=
  mux.channels.find? fun slot => slot.id = channelId

def handleIncomingData (mux : DvcMux η) (world : ω) (channelId : Nat) (data : Bytes)
    (startsNew : Option Nat) : Except DecodeError Response × DvcMux η × ω :=
  match mux.findSlot channelId with
  | none => (.ok (.payloads channelId []), mux, world)
  | some slot =>
    let assembled := assemble slot.reassembly data startsNew
    let mux := { mux with channels := setReassembly channelId assembled.2 mux.channels }
    match assembled.1 with
    | .error e => (.error e, mux, world)
    | .ok none => (.ok (.payloads channelId []), mux, world)
    | .ok (some complete) =>
      let answered := handlers.onData slot.handler world complete
      (.ok (.payloads channelId answered.1), mux, answered.2)

def onMessage (mux : DvcMux η) (world : ω) :
    ClientMessage → Except DecodeError Response × DvcMux η × ω
  | .capabilityResponse _ =>
    let opened := openAll handlers { mux with capabilityNegotiated := true, pending := [] } mux.pending
    (.ok (.creates opened.1), opened.2, world)
  | .createResponse channelId creationStatus =>
    if creationStatus ≠ 0 then
      (.ok (.payloads channelId []),
        { mux with channels := mux.channels.filter fun slot => slot.id ≠ channelId }, world)
    else
      match mux.findSlot channelId with
      | none => (.ok (.payloads channelId []), mux, world)
      | some slot =>
        let answered := handlers.onOpen slot.handler world
        (.ok (.payloads channelId answered.1), mux, answered.2)
  | .data channelId data => mux.handleIncomingData handlers world channelId data none
  | .dataFirst channelId totalLength data =>
    mux.handleIncomingData handlers world channelId data (some totalLength)
  | .close channelId =>
    (.ok (.payloads channelId []),
      { mux with channels := mux.channels.filter fun slot => slot.id ≠ channelId }, world)
  | .other => (.ok (.creates []), mux, world)

def onChannelData (mux : DvcMux η) (world : ω) (payload : Bytes) :
    Except DecodeError Response × DvcMux η × ω :=
  let incoming := reassemble mux.svcIncoming payload maxDvcMessageSize "dvc.svc_incoming"
  let mux := { mux with svcIncoming := incoming.2 }
  match incoming.1 with
  | .error e => (.error e, mux, world)
  | .ok none => (.ok (.creates []), mux, world)
  | .ok (some message) =>
    match decodeClientMessage message with
    | .error e => (.error e, mux, world)
    | .ok message => mux.onMessage handlers world message

def channelIdForName (mux : DvcMux η) (name : String) : Option Nat :=
  (mux.channels.find? fun slot => handlers.channelName slot.handler = name).map ChannelSlot.id

structure Numbered (limit : Nat) (mux : DvcMux η) : Prop where
  below : ∀ slot ∈ mux.channels, slot.id < mux.nextDynamicId
  room : mux.nextDynamicId + mux.pending.length ≤ limit

variable {channelId : Nat} {slot : ChannelSlot η} {channels : List (ChannelSlot η)}

theorem id_of_mem_setReassembly {reassembly : Option (Nat × Bytes)}
    (h : slot ∈ setReassembly channelId reassembly channels) :
    ∃ old ∈ channels, old.id = slot.id := by
  induction channels with
  | nil => cases h
  | cons first rest ih =>
    unfold setReassembly at h
    split at h
    · rcases mem_cons.mp h with rfl | h
      · exact ⟨first, mem_cons_self, rfl⟩
      · exact ⟨slot, mem_cons_of_mem _ h, rfl⟩
    · rcases mem_cons.mp h with rfl | h
      · exact ⟨slot, mem_cons_self, rfl⟩
      · obtain ⟨old, hmem, hid⟩ := ih h
        exact ⟨old, mem_cons_of_mem _ hmem, hid⟩

variable {limit : Nat} {mux : DvcMux η}

theorem numbered_openAll {opening : List η}
    (hbelow : ∀ slot ∈ mux.channels, slot.id < mux.nextDynamicId)
    (hpending : mux.pending = [])
    (hroom : mux.nextDynamicId + opening.length ≤ limit) :
    (openAll handlers mux opening).2.Numbered limit := by
  induction opening generalizing mux with
  | nil => exact ⟨hbelow, by rw [openAll, hpending]; exact hroom⟩
  | cons handler rest ih =>
    rw [length_cons] at hroom
    refine ih ?_ hpending (by show mux.nextDynamicId + 1 + _ ≤ _; omega)
    intro slot hslot
    rcases mem_append.mp hslot with hold | hnew
    · exact Nat.lt_succ_of_lt (hbelow slot hold)
    · rw [mem_singleton.mp hnew]
      exact Nat.lt_succ_self _

theorem Numbered.of_subset
    (h : mux.Numbered limit)
    (hsub : ∀ slot ∈ channels, ∃ old ∈ mux.channels, old.id = slot.id)
    (svcIncoming : Bytes) :
    ({ mux with svcIncoming := svcIncoming, channels := channels } : DvcMux η).Numbered limit := by
  refine ⟨fun slot hslot => ?_, h.room⟩
  obtain ⟨old, hmem, hid⟩ := hsub slot hslot
  exact hid ▸ h.below old hmem

/-- What one call of `on_channel_data` may do: its answer opens channels of handlers or is for
a channel the mux has, and ids stay in order. -/
structure Answered (limit : Nat) (mux : DvcMux η)
    (result : Except DecodeError Response × DvcMux η × ω) :
    Prop where
  numbered : result.2.1.Numbered limit
  channelId : result.2.1.channelId = mux.channelId
  userChannelId : result.2.1.userChannelId = mux.userChannelId
  named : ∀ requests, result.1 = .ok (.creates requests) →
    ∀ request ∈ requests, ∃ handler, request.2 = handlers.channelName handler
  known : ∀ channelId messages, result.1 = .ok (.payloads channelId messages) → messages ≠ [] →
    ∃ slot ∈ mux.channels, slot.id = channelId

variable {handlers}

theorem exists_of_findSlot (h : mux.findSlot channelId = some slot) :
    ∃ slot ∈ mux.channels, slot.id = channelId :=
  ⟨slot, mem_of_find?_eq_some h, by simpa using find?_some h⟩

theorem named_openAll (handlers : DvcHandlers η ω) (mux : DvcMux η) (opening : List η) :
    ∀ request ∈ (openAll handlers mux opening).1, ∃ handler,
      request.2 = handlers.channelName handler := by
  induction opening generalizing mux with
  | nil => intro request hrequest; cases hrequest
  | cons handler rest ih =>
    intro request hrequest
    rcases mem_cons.mp hrequest with rfl | hrequest
    · exact ⟨handler, rfl⟩
    · exact ih _ request hrequest

variable {after : DvcMux η}

theorem Answered.of_payloads (mux : DvcMux η)
    (hnumbered : after.Numbered limit)
    (hid : after.channelId = mux.channelId)
    (huser : after.userChannelId = mux.userChannelId)
    (world : ω) {messages : List Bytes}
    (hknown : messages ≠ [] → ∃ slot ∈ mux.channels, slot.id = channelId) :
    Answered handlers limit mux (.ok (.payloads channelId messages), after, world) where
  numbered := hnumbered
  channelId := hid
  userChannelId := huser
  named := fun _ hok => by cases hok
  known := fun _ _ hok hne => by cases hok; exact hknown hne

theorem Answered.of_error (mux : DvcMux η)
    (hnumbered : after.Numbered limit)
    (hid : after.channelId = mux.channelId)
    (huser : after.userChannelId = mux.userChannelId)
    (world : ω) (e : DecodeError) : Answered handlers limit mux (.error e, after, world) where
  numbered := hnumbered
  channelId := hid
  userChannelId := huser
  named := fun _ hok => by cases hok
  known := fun _ _ hok => by cases hok

theorem Answered.of_creates (mux : DvcMux η)
    (hnumbered : after.Numbered limit)
    (hid : after.channelId = mux.channelId)
    (huser : after.userChannelId = mux.userChannelId)
    (world : ω) {requests : List (Nat × String)}
    (hnamed : ∀ request ∈ requests, ∃ handler, request.2 = handlers.channelName handler) :
    Answered handlers limit mux (.ok (.creates requests), after, world) where
  numbered := hnumbered
  channelId := hid
  userChannelId := huser
  named := fun _ hok => by cases hok; exact hnamed
  known := fun _ _ hok => by cases hok

theorem answered_handleIncomingData
    (h : mux.Numbered limit)
    (world : ω) (channelId : Nat) (data : Bytes) (startsNew : Option Nat) :
    Answered handlers limit mux
      (mux.handleIncomingData handlers world channelId data startsNew) := by
  unfold handleIncomingData
  split
  · exact .of_payloads mux h rfl rfl world (absurd rfl)
  · next slot hslot =>
    have hsub : ∀ kept ∈ setReassembly channelId (assemble slot.reassembly data
        startsNew).2 mux.channels,
        ∃ old ∈ mux.channels, old.id = kept.id := fun _ => id_of_mem_setReassembly
    have hnumbered := h.of_subset hsub mux.svcIncoming
    dsimp only
    split
    · exact .of_error mux hnumbered rfl rfl world _
    · exact .of_payloads mux hnumbered rfl rfl world (absurd rfl)
    · exact .of_payloads mux hnumbered rfl rfl _ fun _ => exists_of_findSlot hslot

theorem openAll_ids (handlers : DvcHandlers η ω) (mux : DvcMux η) (opening : List η) :
    (openAll handlers mux opening).2.channelId = mux.channelId ∧
    (openAll handlers mux opening).2.userChannelId = mux.userChannelId := by
  induction opening generalizing mux with
  | nil => exact ⟨rfl, rfl⟩
  | cons handler rest ih => exact ih (mux.openChannel handlers handler).2

theorem openAll_snd (handlers : DvcHandlers η ω) (mux : DvcMux η) (opening : List η) :
    (openAll handlers mux opening).2 =
      { mux with
        nextDynamicId := mux.nextDynamicId + opening.length
        channels := mux.channels ++
          (opening.zipIdx mux.nextDynamicId).map fun entry => ⟨entry.2, entry.1, none⟩ } := by
  induction opening generalizing mux with
  | nil => simp [openAll]
  | cons handler rest ih =>
    rw [openAll]
    rw [ih]
    simp only [openChannel, zipIdx_cons, map_cons, length_cons, append_assoc,
      singleton_append, Nat.add_assoc, Nat.add_comm 1]

theorem answered_removing (h : mux.Numbered limit) (world : ω) (channelId : Nat) :
    Answered handlers limit mux
      (.ok (.payloads channelId []),
        { mux with channels := mux.channels.filter fun slot => slot.id ≠ channelId }, world) :=
  .of_payloads mux
    (h.of_subset (fun slot hslot => ⟨slot, (mem_filter.mp hslot).1, rfl⟩) mux.svcIncoming)
    rfl rfl world (absurd rfl)

theorem answered_onMessage (h : mux.Numbered limit) (world : ω) (message : ClientMessage) :
    Answered handlers limit mux (mux.onMessage handlers world message) := by
  cases message with
  | capabilityResponse version =>
    obtain ⟨hid, huser⟩ :=
      openAll_ids handlers { mux with capabilityNegotiated := true, pending := [] } mux.pending
    refine .of_creates mux ?_ hid huser world (named_openAll handlers _ _)
    exact numbered_openAll handlers h.below rfl h.room
  | createResponse channelId creationStatus =>
    simp only [onMessage]
    split
    · exact answered_removing h world channelId
    · split
      · exact .of_payloads mux h rfl rfl world (absurd rfl)
      · next slot hslot => exact .of_payloads mux h rfl rfl _ fun _ => exists_of_findSlot hslot
  | data channelId data => exact answered_handleIncomingData h world channelId data none
  | dataFirst channelId totalLength data =>
    exact answered_handleIncomingData h world channelId data (some totalLength)
  | close channelId => exact answered_removing h world channelId
  | other => exact .of_creates mux h rfl rfl world (by simp)

theorem answered_onChannelData (handlers : DvcHandlers η ω)
    (h : mux.Numbered limit)
    (world : ω) (payload : Bytes) :
    Answered handlers limit mux (mux.onChannelData handlers world payload) := by
  unfold onChannelData
  generalize reassemble mux.svcIncoming payload maxDvcMessageSize "dvc.svc_incoming" = incoming
  have hbuffered : ({ mux with svcIncoming := incoming.2 } : DvcMux η).Numbered limit :=
    ⟨h.below, h.room⟩
  dsimp only
  split
  · exact .of_error mux hbuffered rfl rfl world _
  · exact .of_creates mux hbuffered rfl rfl world (by simp)
  · split
    · exact .of_error mux hbuffered rfl rfl world _
    · next message _ =>
      obtain ⟨hnumbered, hid, huser, hnamed, hknown⟩ := answered_onMessage hbuffered world message
      exact ⟨hnumbered, hid, huser, hnamed, hknown⟩

theorem foldl_registerChannel (handlers : DvcHandlers η ω)
    (hmux : mux.capabilityNegotiated = false)
    (registering : List η) :
    registering.foldl (fun mux handler => (mux.registerChannel handlers handler).2) mux =
      { mux with pending := mux.pending ++ registering } := by
  induction registering generalizing mux with
  | nil => simp
  | cons handler rest ih =>
    have hfirst : (mux.registerChannel handlers handler).2 =
        { mux with pending := mux.pending ++ [handler] } := by
      simp [registerChannel, hmux]
    have hrest := @ih { mux with pending := mux.pending ++ [handler] } hmux
    rw [foldl_cons, hfirst, hrest, append_assoc, singleton_append]

def slots (mux : DvcMux η) : List (Nat × η) := mux.channels.map fun slot => (slot.id, slot.handler)

def incomingMessage (mux : DvcMux η) (payload : Bytes) : Option ClientMessage :=
  match (reassemble mux.svcIncoming payload maxDvcMessageSize "dvc.svc_incoming").1 with
  | .ok (some message) => (decodeClientMessage message).toOption
  | _ => none

theorem length_carried_incomingMessage {payload : Bytes} {message : ClientMessage}
    (h : mux.incomingMessage payload = some message) :
    message.carried.length ≤ maxDvcMessageSize := by
  unfold incomingMessage at h
  split at h
  · next whole hwhole =>
    cases hdecode : decodeClientMessage whole with
    | error e => rw [hdecode] at h; cases h
    | ok decoded =>
      rw [hdecode] at h
      cases h
      exact Nat.le_trans (length_carried_le hdecode) (length_le_of_reassemble_eq_ok hwhole)
  · cases h

def closes : ClientMessage → Option Nat
  | .createResponse channelId creationStatus => if creationStatus ≠ 0 then some channelId else none
  | .close channelId => some channelId
  | _ => none

/-- A call closes the channel its message names, or it opens channels for pending handlers, or it
calls one handler of an open channel. -/
inductive Effect (handlers : DvcHandlers η ω) (mux : DvcMux η) (world : ω) :
    Option Nat → DvcMux η × ω → Prop
  | opened (after : DvcMux η) (added : List (Nat × η)) (hslots : after.slots = mux.slots ++ added)
      (hpending : added.map Prod.snd ++ after.pending = mux.pending) :
      Effect handlers mux world none (after, world)
  | closed (channelId : Nat) (after : DvcMux η)
      (hslots : after.slots = mux.slots.filter fun slot => slot.1 ≠ channelId)
      (hpending : after.pending = mux.pending) : Effect handlers mux world (some channelId)
      (after, world)
  | called (handler : η) (after : DvcMux η) (world' : ω)
      (hopen : ∃ channelId, (channelId, handler) ∈ mux.slots)
      (hslots : after.slots = mux.slots) (hpending : after.pending = mux.pending)
      (hworld : world' = (handlers.onOpen handler world).2 ∨
        ∃ data, world' = (handlers.onData handler world data).2) :
      Effect handlers mux world none (after, world')

theorem Effect.nothing (handlers : DvcHandlers η ω) (world : ω)
    (hslots : after.slots = mux.slots)
    (hpending : after.pending = mux.pending) : Effect handlers mux world none (after, world) :=
  .opened after [] (by rw [hslots, append_nil]) hpending

theorem Effect.congr {handlers : DvcHandlers η ω} {mux' : DvcMux η} {world : ω}
    {channelId : Option Nat} {result : DvcMux η × ω}
    (h : Effect handlers mux' world channelId result)
    (hslots : mux'.slots = mux.slots)
    (hpending : mux'.pending = mux.pending) : Effect handlers mux world channelId result := by
  cases h with
  | opened after added hslots' hpending' =>
    exact .opened after added (hslots ▸ hslots') (hpending ▸ hpending')
  | closed channelId after hslots' hpending' =>
    exact .closed channelId after (hslots ▸ hslots') (hpending ▸ hpending')
  | called handler after world' hopen hslots' hpending' hworld =>
    exact .called handler after world' (hslots ▸ hopen) (hslots ▸ hslots') (hpending ▸ hpending') hworld

theorem map_setReassembly (channelId : Nat) (reassembly : Option (Nat × Bytes))
    (channels : List (ChannelSlot η)) :
    (setReassembly channelId reassembly channels).map (fun slot => (slot.id, slot.handler)) =
      channels.map fun slot => (slot.id, slot.handler) := by
  induction channels with
  | nil => rfl
  | cons slot rest ih =>
    unfold setReassembly
    split
    · rfl
    · rw [map_cons, map_cons, ih]

theorem slots_openAll (handlers : DvcHandlers η ω) (mux : DvcMux η) (opening : List η) :
    ∃ added,
      (openAll handlers mux opening).2.slots = mux.slots ++ added ∧
      added.map Prod.snd = opening ∧
      (openAll handlers mux opening).2.pending = mux.pending := by
  induction opening generalizing mux with
  | nil => exact ⟨[], (append_nil _).symm, rfl, rfl⟩
  | cons handler rest ih =>
    obtain ⟨added, hslots, hadded, hpending⟩ := ih (mux.openChannel handlers handler).2
    refine ⟨(mux.nextDynamicId, handler) :: added, ?_, by rw [map_cons, hadded], hpending⟩
    refine hslots.trans ?_
    simp [slots, openChannel]

theorem slots_filter (mux : DvcMux η) (channelId : Nat) :
    slots { mux with channels := mux.channels.filter fun slot => slot.id ≠ channelId } =
      mux.slots.filter fun slot => slot.1 ≠ channelId := by
  simp only [slots, filter_map]
  rfl

theorem mem_slots_of_findSlot (h : mux.findSlot channelId = some slot) :
    (slot.id, slot.handler) ∈ mux.slots :=
  mem_map.mpr ⟨slot, mem_of_find?_eq_some h, rfl⟩

theorem effect_handleIncomingData (handlers : DvcHandlers η ω) (mux : DvcMux η) (world : ω)
    (channelId : Nat) (data : Bytes) (startsNew : Option Nat) :
    Effect handlers mux world none
      (mux.handleIncomingData handlers world channelId data startsNew).2 := by
  unfold handleIncomingData
  split
  · exact .nothing handlers world rfl rfl
  · next slot hslot =>
    have hkept := map_setReassembly channelId (assemble slot.reassembly data startsNew).2 mux.channels
    dsimp only
    split
    · exact .nothing handlers world hkept rfl
    · exact .nothing handlers world hkept rfl
    · next complete _ =>
      exact .called slot.handler _ _ ⟨_, mem_slots_of_findSlot hslot⟩ hkept rfl (.inr ⟨complete, rfl⟩)

/-- `Effect` has every case of a message. -/
theorem effect_onMessage (handlers : DvcHandlers η ω) (mux : DvcMux η) (world : ω)
    (message : ClientMessage) :
    Effect handlers mux world (closes message) (mux.onMessage handlers world message).2 := by
  cases message with
  | capabilityResponse version =>
    obtain ⟨added, hslots, hadded, hpending⟩ := slots_openAll handlers
      { mux with capabilityNegotiated := true, pending := [] } mux.pending
    exact .opened _ added hslots (by rw [hadded, hpending, append_nil])
  | createResponse channelId creationStatus =>
    simp only [onMessage, closes]
    split
    · exact .closed channelId _ (slots_filter mux channelId) rfl
    · split
      · exact .nothing handlers world rfl rfl
      · next slot hslot =>
        exact .called slot.handler mux _ ⟨_, mem_slots_of_findSlot hslot⟩ rfl rfl (.inl rfl)
  | data channelId data => exact effect_handleIncomingData handlers mux world channelId data none
  | dataFirst channelId totalLength data =>
    exact effect_handleIncomingData handlers mux world channelId data (some totalLength)
  | close channelId => exact .closed channelId _ (slots_filter mux channelId) rfl
  | other => exact .nothing handlers world rfl rfl

theorem effect_onChannelData (handlers : DvcHandlers η ω) (mux : DvcMux η) (world : ω)
    (payload : Bytes) :
    Effect handlers mux world ((mux.incomingMessage payload).bind closes)
      (mux.onChannelData handlers world payload).2 := by
  unfold onChannelData incomingMessage
  generalize reassemble mux.svcIncoming payload maxDvcMessageSize "dvc.svc_incoming" = incoming
  obtain ⟨result, buffer⟩ := incoming
  match result with
  | .error _ => exact .nothing handlers world rfl rfl
  | .ok none => exact .nothing handlers world rfl rfl
  | .ok (some message) =>
    dsimp only
    cases decodeClientMessage message with
    | error e => exact .nothing handlers world rfl rfl
    | ok message =>
      exact (effect_onMessage handlers { mux with svcIncoming := buffer } world message).congr rfl rfl

end DvcMux
end Kmsrdp.Source.Dvc
