import Mathlib.Data.List.Nodup
import Kmsrdp.Library.Execution
import Kmsrdp.Source.Dvc.Mux

/-!
# The calls that handlers of dynamic channels see

An endpoint is a `DvcMux` whose handlers, numbered by registration, write down their calls. The
history holds the messages decoded, the channels created and the calls, in order.
-/
namespace Kmsrdp.Guarantees.HandlerHistory
open Library.ByteString Source.Pdu Source.Dvc List DvcMux Nat
variable {η ω : Type}

inductive Event where
  | heard (message : ClientMessage)
  | created (handler channelId : Nat)
  | opened (handler : Nat)
  | received (handler : Nat) (data : Bytes)

def logged (handlers : DvcHandlers η ω) : DvcHandlers (Nat × η) (ω × List Event) where
  channelName handler := handlers.channelName handler.2
  onOpen handler world :=
    let answered := handlers.onOpen handler.2 world.1
    (answered.1, answered.2, world.2 ++ [.opened handler.1])
  onData handler world data :=
    let answered := handlers.onData handler.2 world.1 data
    (answered.1, answered.2, world.2 ++ [.received handler.1 data])

structure Endpoint (η ω : Type) where
  mux : DvcMux (Nat × η)
  world : ω
  registered : Nat
  history : List Event

inductive Action (η : Type) where
  | register (handler : η)
  | channelData (payload : Bytes)

namespace Endpoint

def start (channelId userChannelId : UInt16) (world : ω) : Endpoint η ω :=
  ⟨.new channelId userChannelId, world, 0, []⟩

def message (s : Endpoint η ω) : Action η → Option ClientMessage
  | .register _ => none
  | .channelData payload => s.mux.incomingMessage payload

def createdSince (before after : DvcMux (Nat × η)) : List Event :=
  (after.slots.drop before.slots.length).map fun slot => .created slot.2.1 slot.1

def step (handlers : DvcHandlers η ω) (s : Endpoint η ω) : Action η → Option (Endpoint η ω)
  | .register handler =>
    let mux := (s.mux.registerChannel (logged handlers) (s.registered, handler)).2
    some { s with
      mux := mux, registered := s.registered + 1, history := s.history ++ createdSince s.mux mux }
  | .channelData payload =>
    let heard := (s.mux.incomingMessage payload).toList.map .heard
    let after := (s.mux.onChannelData (logged handlers) (s.world, s.history ++ heard) payload).2
    some { s with
      mux := after.1, world := after.2.1, history := after.2.2 ++ createdSince s.mux after.1 }

def tags (s : Endpoint η ω) : List Nat :=
  s.mux.channels.map (fun slot => slot.handler.1) ++ s.mux.pending.map Prod.fst

end Endpoint

def silent : DvcHandlers Unit Unit where
  channelName _ := "ECHO"
  onOpen _ world := ([], world)
  onData _ world _ := ([], world)

def inOneChunk (message : Bytes) : Action Unit :=
  .channelData (channelChunk message.length (channelFlagFirst ||| channelFlagLast) message)

def target : ClientMessage → Option Nat
  | .createResponse channelId _ => some channelId
  | .data channelId _ => some channelId
  | .dataFirst channelId _ _ => some channelId
  | .close channelId => some channelId
  | _ => none

variable {channelId : Nat}

theorem target_of_closes {message : ClientMessage} (h : closes message = some channelId) :
    target message = some channelId := by
  cases message with
  | createResponse id status =>
    simp only [closes] at h
    split at h
    · exact h
    · cases h
  | close id => exact h
  | _ => cases h

def dataMessage (channelId : Nat) (data : Bytes) : Option Nat → ClientMessage
  | none => .data channelId data
  | some totalLength => .dataFirst channelId totalLength data

def delivered : Except DecodeError (Option Bytes) → List Bytes
  | .ok complete => complete.toList
  | .error _ => []

def slotsFrom (next : Nat) (added : List (Nat × η)) : List (ChannelSlot (Nat × η)) :=
  (added.zipIdx next).map fun entry => ⟨entry.2, entry.1, none⟩

def creations (next : Nat) (added : List (Nat × η)) : List Event :=
  (added.zipIdx next).map fun entry => .created entry.1.1 entry.2

/-- One action: some handlers come and some get a channel, while no open channel is concerned; a
channel is closed; a handler is opened; or a channel takes data. -/
inductive Turn (s t : Endpoint η ω) : Option ClientMessage → Prop
  | grows (message : Option ClientMessage) (added : List (Nat × η)) (coming : List Nat)
      (htarget : ∀ channelId, message.bind target = some channelId → s.mux.findSlot channelId = none)
      (hchannels : t.mux.channels = s.mux.channels ++ slotsFrom s.mux.nextDynamicId added)
      (hnext : t.mux.nextDynamicId = s.mux.nextDynamicId + added.length)
      (hcoming : ∀ tag ∈ coming, s.registered ≤ tag ∧ tag < t.registered) (hdistinct : coming.Nodup)
      (hregistered : s.registered ≤ t.registered) (htags : t.tags.Perm (s.tags ++ coming))
      (hhistory : t.history =
        s.history ++ message.toList.map .heard ++ creations s.mux.nextDynamicId added) :
      Turn s t message
  | closes (message : ClientMessage) (channelId : Nat)
      (hcloses : DvcMux.closes message = some channelId)
      (hchannels : t.mux.channels = s.mux.channels.filter fun slot => slot.id ≠ channelId)
      (hnext : t.mux.nextDynamicId = s.mux.nextDynamicId) (hpending : t.mux.pending = s.mux.pending)
      (hregistered : t.registered = s.registered)
      (hhistory : t.history = s.history ++ [.heard message]) :
      Turn s t (some message)
  | opens (slot : ChannelSlot (Nat × η)) (hslot : slot ∈ s.mux.channels)
      (hchannels : t.mux.channels = s.mux.channels) (hnext : t.mux.nextDynamicId = s.mux.nextDynamicId)
      (hpending : t.mux.pending = s.mux.pending) (hregistered : t.registered = s.registered)
      (hhistory : t.history =
        s.history ++ [.heard (.createResponse slot.id 0), .opened slot.handler.1]) :
      Turn s t (some (.createResponse slot.id 0))
  | takes (slot : ChannelSlot (Nat × η)) (data : Bytes) (startsNew : Option Nat)
      (hslot : s.mux.findSlot slot.id = some slot) (hdata : data.length ≤ maxDvcMessageSize)
      (hchannels : t.mux.channels =
        DvcMux.setReassembly slot.id (DvcMux.assemble slot.reassembly data startsNew).2 s.mux.channels)
      (hnext : t.mux.nextDynamicId = s.mux.nextDynamicId) (hpending : t.mux.pending = s.mux.pending)
      (hregistered : t.registered = s.registered)
      (hhistory : t.history = s.history ++ .heard (dataMessage slot.id data startsNew) ::
        (delivered (DvcMux.assemble slot.reassembly data startsNew).1).map (.received slot.handler.1)) :
      Turn s t (some (dataMessage slot.id data startsNew))

variable {s t : Endpoint η ω}

theorem Turn.quiet (message : Option ClientMessage)
    (htarget : ∀ channelId, message.bind target = some channelId → s.mux.findSlot channelId = none)
    (hchannels : t.mux.channels = s.mux.channels)
    (hnext : t.mux.nextDynamicId = s.mux.nextDynamicId)
    (hpending : t.mux.pending = s.mux.pending)
    (hregistered : t.registered = s.registered)
    (hhistory : t.history = s.history ++ message.toList.map .heard) : Turn s t message := by
  refine .grows message [] [] htarget (by simp [slotsFrom, hchannels]) hnext (by simp) nodup_nil
    (le_of_eq hregistered.symm) (by simp [Endpoint.tags, hchannels, hpending])
    (by simp [hhistory, creations])

namespace Endpoint

theorem createdSince_of_append {before after : DvcMux (Nat × η)} (added : List (Nat × η))
    (h : after.channels = before.channels ++ slotsFrom before.nextDynamicId added) :
    createdSince before after = creations before.nextDynamicId added := by
  have hslots : after.slots = before.slots ++
      (slotsFrom before.nextDynamicId added).map fun slot => (slot.id, slot.handler) := by
    rw [slots, h, map_append, slots]
  rw [createdSince, hslots, drop_left]
  simp [slotsFrom, creations]

theorem createdSince_of_le {before after : DvcMux (Nat × η)}
    (h : after.channels.length ≤ before.channels.length) : createdSince before after = [] := by
  have hnone : after.slots.drop before.slots.length = [] := by
    rw [drop_eq_nil_iff, slots, slots, length_map, length_map]
    exact h
  rw [createdSince, hnone, map_nil]

theorem map_handler_slotsFrom (next : Nat) (added : List (Nat × η)) :
    (slotsFrom next added).map (fun slot => slot.handler.1) = added.map Prod.fst := by
  rw [slotsFrom, map_map]
  show (added.zipIdx next).map (Prod.fst ∘ Prod.fst) = _
  rw [← map_map, zipIdx_map_fst]

variable (handlers : DvcHandlers η ω)

theorem turn_register {handler : η} (h : step handlers s (.register handler) = some t) :
    Turn s t none := by
  cases h
  have hcoming : ∀ tag ∈ [s.registered], s.registered ≤ tag ∧ tag < s.registered + 1 := by
    intro tag htag
    rw [mem_singleton.mp htag]
    exact ⟨le_refl _, lt_succ_self _⟩
  have hnone : ∀ channelId, (none : Option ClientMessage).bind target = some channelId →
      s.mux.findSlot channelId = none := fun _ h => by cases h
  unfold registerChannel
  split
  · refine .grows none [(s.registered, handler)] [s.registered] hnone rfl rfl hcoming
      (nodup_singleton _) (le_succ _) ?_ ?_
    · -- the new number stands before those that wait
      simp only [tags, openChannel, map_append, map_cons, map_nil, append_assoc, singleton_append]
      exact List.Perm.append_left _ (perm_append_singleton _ _).symm
    · exact (congrArg (s.history ++ ·) (createdSince_of_append [(s.registered, handler)] rfl)).trans
        (by simp)
  · refine .grows none [] [s.registered] hnone (by simp [slotsFrom]) rfl hcoming (nodup_singleton _)
      (le_succ _) ?_ ?_
    · simp [tags]
    · exact (congrArg (s.history ++ ·) (createdSince_of_append [] (by simp [slotsFrom]))).trans
        (by simp)

def after (s : Endpoint η ω) (result : DvcMux (Nat × η) × ω × List Event) : Endpoint η ω :=
  { s with
    mux := result.1, world := result.2.1, history := result.2.2 ++ createdSince s.mux result.1 }

theorem history_after (s : Endpoint η ω) {result : DvcMux (Nat × η) × ω × List Event}
    (h : result.1.channels.length ≤ s.mux.channels.length) :
    (s.after result).history = result.2.2 := by
  rw [after, createdSince_of_le h, append_nil]

theorem turn_handleIncomingData (s : Endpoint η ω) (buffer : Bytes) {channelId : Nat}
    {data : Bytes} (startsNew : Option Nat)
    (hdata : data.length ≤ maxDvcMessageSize) :
    Turn s
      (s.after
         (({ s.mux with svcIncoming := buffer } : DvcMux (Nat × η)).handleIncomingData
            (logged handlers)
            (s.world, s.history ++ [.heard (dataMessage channelId data startsNew)]) channelId data
            startsNew).2) (some (dataMessage channelId data startsNew)) := by
  have htarget : target (dataMessage channelId data startsNew) = some channelId := by
    cases startsNew <;> rfl
  unfold handleIncomingData
  cases hslot : s.mux.findSlot channelId with
  | none =>
    rw [show ({ s.mux with svcIncoming := buffer } : DvcMux (Nat × η)).findSlot channelId =
      none from hslot]
    refine .quiet _ (fun id hid => ?_) rfl rfl rfl rfl ?_
    · cases hid.symm.trans htarget
      exact hslot
    · exact s.history_after (le_refl _)
  | some slot =>
    have hid : slot.id = channelId := by simpa using find?_some hslot
    subst hid
    rw [show ({ s.mux with svcIncoming := buffer } : DvcMux (Nat × η)).findSlot slot.id =
      some slot from hslot]
    have hlength : (setReassembly slot.id (assemble slot.reassembly data startsNew).2
        s.mux.channels).length ≤ s.mux.channels.length := by
      rw [← length_map (f := fun slot => (slot.id, slot.handler)), map_setReassembly, length_map]
    dsimp only
    split
    · next e he =>
      refine .takes slot data startsNew hslot hdata rfl rfl rfl rfl ((s.history_after hlength).trans ?_)
      rw [he]
      rfl
    · next he =>
      refine .takes slot data startsNew hslot hdata rfl rfl rfl rfl ((s.history_after hlength).trans ?_)
      rw [he]
      rfl
    · next complete he =>
      refine .takes slot data startsNew hslot hdata rfl rfl rfl rfl ((s.history_after hlength).trans ?_)
      rw [he]
      exact append_assoc _ _ _

theorem turn_onMessage (s : Endpoint η ω) (buffer : Bytes) {message : ClientMessage}
    (hdata : message.carried.length ≤ maxDvcMessageSize) :
    Turn s
      (s.after
         (({ s.mux with svcIncoming := buffer } : DvcMux (Nat × η)).onMessage (logged handlers)
            (s.world, s.history ++ [.heard message]) message).2) (some message) := by
  have hcloses : ∀ channelId, closes message = some channelId → Turn s (s.after (({ s.mux with
          svcIncoming := buffer
          channels := s.mux.channels.filter fun slot => slot.id ≠ channelId } : DvcMux (Nat × η)),
        s.world, s.history ++ [.heard message])) (some message) := by
    intro channelId h
    exact .closes message channelId h rfl rfl rfl rfl (s.history_after (length_filter_le _ _))
  cases message with
  | capabilityResponse version =>
    rw [onMessage]
    rw [openAll_snd]
    refine .grows _ s.mux.pending [] (fun _ h => by cases h) rfl rfl (by simp) nodup_nil
      (le_refl _) ?_ ?_
    · simp only [tags, after, map_append, append_nil, map_nil]
      rw [← slotsFrom, map_handler_slotsFrom]
    · rw [after, createdSince_of_append s.mux.pending rfl]
      rfl
  | createResponse channelId creationStatus =>
    simp only [onMessage]
    split
    · next hfailed => exact hcloses channelId (by simp [closes, hfailed])
    · next hok =>
      rw [not_not] at hok
      subst hok
      cases hslot : s.mux.findSlot channelId with
      | none =>
        rw [show ({ s.mux with svcIncoming := buffer } : DvcMux (Nat × η)).findSlot channelId =
          none from hslot]
        refine .quiet _ (fun id hid => ?_) rfl rfl rfl rfl ?_
        · cases hid
          exact hslot
        · exact s.history_after (le_refl _)
      | some slot =>
        have hid : slot.id = channelId := by simpa using find?_some hslot
        subst hid
        rw [show ({ s.mux with svcIncoming := buffer } : DvcMux (Nat × η)).findSlot slot.id =
          some slot from hslot]
        refine .opens slot (mem_of_find?_eq_some hslot) rfl rfl rfl rfl ?_
        exact (s.history_after (le_refl _)).trans (append_assoc _ _ _)
  | data channelId data => exact turn_handleIncomingData handlers s buffer none hdata
  | dataFirst channelId totalLength data =>
    exact turn_handleIncomingData handlers s buffer (some totalLength) hdata
  | close channelId => exact hcloses channelId rfl
  | other => exact .quiet _ (fun _ h => by cases h) rfl rfl rfl rfl (s.history_after (le_refl _))

theorem turn_of_step {handlers : DvcHandlers η ω} {action : Action η}
    (h : step handlers s action = some t) : Turn s t (s.message action) := by
  cases action with
  | register handler => exact turn_register handlers h
  | channelData payload =>
    cases h
    have hdata := @length_carried_incomingMessage _ s.mux payload
    show Turn s (s.after (s.mux.onChannelData (logged handlers)
      (s.world, s.history ++ (s.mux.incomingMessage payload).toList.map .heard) payload).2)
      (s.mux.incomingMessage payload)
    unfold onChannelData
    unfold incomingMessage at hdata ⊢
    generalize reassemble s.mux.svcIncoming payload maxDvcMessageSize "dvc.svc_incoming" = incoming
      at hdata ⊢
    obtain ⟨result, buffer⟩ := incoming
    match result with
    | .error _ => exact .quiet _ (fun _ h => by cases h) rfl rfl rfl rfl (s.history_after (le_refl _))
    | .ok none => exact .quiet _ (fun _ h => by cases h) rfl rfl rfl rfl (s.history_after (le_refl _))
    | .ok (some whole) =>
      dsimp only at hdata ⊢
      cases hdecode : decodeClientMessage whole with
      | error e => exact .quiet _ (fun _ h => by cases h) rfl rfl rfl rfl (s.history_after (le_refl _))
      | ok message =>
        rw [hdecode] at hdata
        exact turn_onMessage handlers s buffer (hdata rfl)

end Endpoint

/-! ## Reading creations off the history

`f` folds the history for one handler; it passes over the channels created for others. -/

variable {added : List (Nat × η)}
section Creations
variable {σ : Type} {f : σ → Event → σ} {handler : Nat}
section
variable (hothers : ∀ state tag channelId, tag ≠ handler → f state (.created tag channelId) = state)
include hothers

theorem foldl_creations_of_notMem (h : handler ∉ added.map Prod.fst) (next : Nat) (state : σ) :
    (creations next added).foldl f state = state := by
  induction added generalizing next with
  | nil => rfl
  | cons entry rest ih =>
    rw [map_cons, mem_cons, not_or] at h
    show (creations (next + 1) rest).foldl f (f state (.created entry.1 next)) = state
    rw [hothers _ _ _ (Ne.symm h.1), ih h.2]

theorem foldl_creations_of_mem
    (hnodup : (added.map Prod.fst).Nodup)
    {next : Nat} {slot : ChannelSlot (Nat × η)}
    (hslot : slot ∈ slotsFrom next added)
    (htag : slot.handler.1 = handler)
    (state : σ) : (creations next added).foldl f state = f state (.created handler slot.id) := by
  induction added generalizing next with
  | nil => cases hslot
  | cons entry rest ih =>
    rw [map_cons, nodup_cons] at hnodup
    show (creations (next + 1) rest).foldl f (f state (.created entry.1 next)) = _
    rcases mem_cons.mp hslot with rfl | hrest
    · cases htag
      exact foldl_creations_of_notMem hothers hnodup.1 _ _
    · have hother : handler ∈ rest.map Prod.fst := by
        rw [← htag, ← Endpoint.map_handler_slotsFrom (next + 1)]
        exact mem_map.mpr ⟨slot, hrest, rfl⟩
      have hne : entry.1 ≠ handler := fun heq => hnodup.1 (heq ▸ hother)
      rw [hothers _ _ _ hne, ih hnodup.2 hrest]

end
end Creations

theorem map_id_slotsFrom (next : Nat) (added : List (Nat × η)) :
    (slotsFrom next added).map ChannelSlot.id = range' next added.length := by
  rw [slotsFrom, map_map]
  exact zipIdx_map_snd next added

theorem map_id_setReassembly (channelId : Nat) (reassembly : Option (Nat × Bytes))
    (channels : List (ChannelSlot (Nat × η))) :
    (setReassembly channelId reassembly channels).map ChannelSlot.id =
      channels.map ChannelSlot.id := by
  have h := congrArg (map Prod.fst) (map_setReassembly channelId reassembly channels)
  rwa [map_map, map_map] at h

theorem map_handler_setReassembly (channelId : Nat) (reassembly : Option (Nat × Bytes))
    (channels : List (ChannelSlot (Nat × η))) :
    (setReassembly channelId reassembly channels).map (fun slot => slot.handler.1) =
      channels.map fun slot => slot.handler.1 := by
  have h := congrArg (map fun slot => slot.2.1) (map_setReassembly channelId reassembly channels)
  rwa [map_map, map_map] at h

variable {reassembly : Option (Nat × Bytes)} {channels : List (ChannelSlot (Nat × η))}
  {slot : ChannelSlot (Nat × η)}

theorem exists_of_mem_setReassembly (h : slot ∈ setReassembly channelId reassembly channels) :
    ∃ old ∈ channels, old.id = slot.id ∧ old.handler = slot.handler := by
  have hmem : (slot.id, slot.handler) ∈ channels.map fun slot => (slot.id, slot.handler) := by
    rw [← map_setReassembly channelId reassembly]
    exact mem_map.mpr ⟨slot, h, rfl⟩
  obtain ⟨old, hold, heq⟩ := mem_map.mp hmem
  exact ⟨old, hold, (Prod.mk.inj heq).1, (Prod.mk.inj heq).2⟩

theorem mem_setReassembly
    (hnodup : (channels.map ChannelSlot.id).Nodup)
    (h : slot ∈ setReassembly channelId reassembly channels) :
    (slot ∈ channels ∧ slot.id ≠ channelId) ∨
    ∃ old ∈ channels, old.id = channelId ∧ slot = { old with reassembly := reassembly } := by
  induction channels with
  | nil => cases h
  | cons first rest ih =>
    rw [map_cons, nodup_cons] at hnodup
    unfold setReassembly at h
    split at h
    · next hid =>
      rcases mem_cons.mp h with rfl | hrest
      · exact .inr ⟨first, mem_cons_self, hid, rfl⟩
      · refine .inl ⟨mem_cons_of_mem _ hrest, fun heq => hnodup.1 ?_⟩
        rw [hid, ← heq]
        exact mem_map.mpr ⟨slot, hrest, rfl⟩
    · next hid =>
      rcases mem_cons.mp h with rfl | hrest
      · exact .inl ⟨mem_cons_self, hid⟩
      · rcases ih hnodup.2 hrest with ⟨hmem, hne⟩ | ⟨old, hmem, hold⟩
        · exact .inl ⟨mem_cons_of_mem _ hmem, hne⟩
        · exact .inr ⟨old, mem_cons_of_mem _ hmem, hold⟩

theorem mem_setReassembly_self
    (hnodup : (channels.map ChannelSlot.id).Nodup)
    (h : slot ∈ channels) :
    ({ slot with reassembly := reassembly } : ChannelSlot (Nat × η)) ∈
      setReassembly slot.id reassembly channels := by
  induction channels with
  | nil => cases h
  | cons first rest ih =>
    rw [map_cons, nodup_cons] at hnodup
    unfold setReassembly
    rcases mem_cons.mp h with rfl | hrest
    · rw [if_pos rfl]
      exact mem_cons_self
    · have hne : first.id ≠ slot.id := fun heq => hnodup.1 (heq ▸ mem_map.mpr ⟨slot, hrest, rfl⟩)
      rw [if_neg hne]
      exact mem_cons_of_mem _ (ih hnodup.2 hrest)

theorem dataMessage_inj {channelId' : Nat} {data data' : Bytes}
    {startsNew startsNew' : Option Nat}
    (h : dataMessage channelId data startsNew = dataMessage channelId' data' startsNew') :
    channelId = channelId' ∧ data = data' ∧ startsNew = startsNew' := by
  cases startsNew <;> cases startsNew' <;> cases h <;> exact ⟨rfl, rfl, rfl⟩

structure Numbering (s : Endpoint η ω) : Prop where
  ids : (s.mux.channels.map ChannelSlot.id).Nodup
  below : ∀ channelId ∈ s.mux.channels.map ChannelSlot.id, channelId < s.mux.nextDynamicId
  tags : s.tags.Nodup
  registered : ∀ tag ∈ s.tags, tag < s.registered

theorem numbering_start (channelId userChannelId : UInt16) (world : ω) :
    Numbering (.start channelId userChannelId world : Endpoint η ω) where
  ids := nodup_nil
  below := fun _ h => by cases h
  tags := nodup_nil
  registered := fun _ h => by cases h

theorem Numbering.of_sublist
    (h : Numbering s)
    (hids : (t.mux.channels.map ChannelSlot.id).Sublist (s.mux.channels.map ChannelSlot.id))
    (htags : (t.mux.channels.map fun slot => slot.handler.1).Sublist
        (s.mux.channels.map fun slot => slot.handler.1))
    (hnext : t.mux.nextDynamicId = s.mux.nextDynamicId)
    (hpending : t.mux.pending = s.mux.pending)
    (hregistered : t.registered = s.registered) : Numbering t := by
  have hall : t.tags.Sublist s.tags := by
    unfold Endpoint.tags
    rw [hpending]
    exact htags.append_right _
  exact
    { ids := h.ids.sublist hids
      below := fun channelId hid => hnext ▸ h.below channelId (hids.subset hid)
      tags := h.tags.sublist hall
      registered := fun tag htag => hregistered ▸ h.registered tag (hall.subset htag) }

theorem Numbering.turn {message : Option ClientMessage}
    (h : Numbering s)
    (hturn : Turn s t message) : Numbering t := by
  cases hturn with
  | grows _ added coming _ hchannels hnext hcoming hdistinct hregistered htags _ =>
    have hids : t.mux.channels.map ChannelSlot.id =
        s.mux.channels.map ChannelSlot.id ++ range' s.mux.nextDynamicId added.length := by
      rw [hchannels, map_append, map_id_slotsFrom]
    refine ⟨?_, ?_, ?_, ?_⟩
    · rw [hids, nodup_append]
      refine ⟨h.ids, nodup_range', fun a ha b hb => ?_⟩
      exact Nat.ne_of_lt (Nat.lt_of_lt_of_le (h.below a ha) (mem_range'_1.mp hb).1)
    · intro channelId hid
      rw [hids, mem_append] at hid
      rw [hnext]
      rcases hid with hold | hnew
      · exact lt_of_lt_of_le (h.below channelId hold) (le_add_right _ _)
      · exact (mem_range'_1.mp hnew).2
    · rw [htags.nodup_iff, nodup_append]
      refine ⟨h.tags, hdistinct, fun a ha b hb => ?_⟩
      exact Nat.ne_of_lt (Nat.lt_of_lt_of_le (h.registered a ha) (hcoming b hb).1)
    · intro tag htag
      rcases mem_append.mp (htags.mem_iff.mp htag) with hold | hnew
      · exact lt_of_lt_of_le (h.registered tag hold) hregistered
      · exact (hcoming tag hnew).2
  | closes _ channelId _ hchannels hnext hpending hregistered _ =>
    exact h.of_sublist (hchannels ▸ (filter_sublist).map _) (hchannels ▸ (filter_sublist).map _)
      hnext hpending hregistered
  | opens slot _ hchannels hnext hpending hregistered _ =>
    exact h.of_sublist (hchannels ▸ List.Sublist.refl _) (hchannels ▸ List.Sublist.refl _) hnext
      hpending hregistered
  | takes slot data startsNew _ _ hchannels hnext hpending hregistered _ =>
    refine h.of_sublist ?_ ?_ hnext hpending hregistered
    · rw [hchannels, map_id_setReassembly]
    · rw [hchannels, map_handler_setReassembly]

variable {s t : Endpoint η ω}
section
variable (h : Numbering s)
include h

theorem Numbering.eq_of_id {a b : ChannelSlot (Nat × η)}
    (ha : a ∈ s.mux.channels)
    (hb : b ∈ s.mux.channels)
    (hid : a.id = b.id) : a = b :=
  inj_on_of_nodup_map h.ids ha hb hid

theorem Numbering.eq_of_tag {a b : ChannelSlot (Nat × η)}
    (ha : a ∈ s.mux.channels)
    (hb : b ∈ s.mux.channels)
    (htag : a.handler.1 = b.handler.1) : a = b :=
  inj_on_of_nodup_map (f := fun slot : ChannelSlot (Nat × η) => slot.handler.1)
    (h.tags.sublist (sublist_append_left _ _)) ha hb htag

section
variable (hslot : slot ∈ s.mux.channels)
include hslot

theorem findSlot_of_mem : s.mux.findSlot slot.id = some slot := by
  cases hfound : s.mux.findSlot slot.id with
  | none => exact absurd (decide_eq_true rfl) (find?_eq_none.mp hfound slot hslot)
  | some found =>
    have hid : found.id = slot.id := by simpa using find?_some hfound
    rw [h.eq_of_id (mem_of_find?_eq_some hfound) hslot hid]

theorem Numbering.history_of_response (hturn : Turn s t (some (.createResponse slot.id 0))) :
    t.history = s.history ++ [.heard (.createResponse slot.id 0), .opened slot.handler.1] := by
  generalize hmessage : some (ClientMessage.createResponse slot.id 0) = message at hturn
  cases hturn with
  | grows _ _ _ htarget =>
    subst hmessage
    cases (findSlot_of_mem h hslot).symm.trans (htarget slot.id rfl)
  | closes message _ hcloses =>
    cases hmessage
    simp [closes] at hcloses
  | opens called hcalled _ _ _ _ hhistory =>
    injection hmessage with hmessage
    injection hmessage with hid
    rw [hhistory, h.eq_of_id hcalled hslot hid.symm]
  | takes called data startsNew =>
    injection hmessage with hmessage
    cases startsNew <;> cases hmessage

theorem Numbering.history_of_data {data : Bytes} {startsNew : Option Nat}
    (hturn : Turn s t (some (dataMessage slot.id data startsNew))) :
    t.mux.channels =
      setReassembly slot.id (assemble slot.reassembly data startsNew).2 s.mux.channels ∧
    data.length ≤ maxDvcMessageSize ∧
    t.history =
      s.history ++ .heard (dataMessage slot.id data startsNew) ::
        (delivered (assemble slot.reassembly data startsNew).1).map (.received slot.handler.1) := by
  generalize hmessage : some (dataMessage slot.id data startsNew) = message at hturn
  cases hturn with
  | grows _ _ _ htarget =>
    subst hmessage
    have hnone := htarget slot.id (by cases startsNew <;> rfl)
    cases (findSlot_of_mem h hslot).symm.trans hnone
  | closes message _ hcloses =>
    cases hmessage
    cases startsNew <;> cases hcloses
  | opens called =>
    injection hmessage with hmessage
    cases startsNew <;> cases hmessage
  | takes called data' startsNew' hcalled hdata hchannels _ _ _ hhistory =>
    injection hmessage with hmessage
    obtain ⟨hid, rfl, rfl⟩ := dataMessage_inj hmessage
    cases h.eq_of_id (mem_of_find?_eq_some hcalled) hslot hid.symm
    exact ⟨hchannels, hdata, hhistory⟩

end
end

def Waits (s : Endpoint η ω) (tag : Nat) : Prop :=
  tag ∈ s.mux.pending.map Prod.fst ∨ s.registered ≤ tag

theorem Numbering.not_waits (h : Numbering s) (hslot : slot ∈ s.mux.channels) :
    ¬ Waits s slot.handler.1 := by
  have hmem : slot.handler.1 ∈ s.mux.channels.map fun slot => slot.handler.1 :=
    mem_map.mpr ⟨slot, hslot, rfl⟩
  rintro (hpending | hlate)
  · exact (nodup_append.mp h.tags).2.2 _ hmem _ hpending rfl
  · exact not_lt.mpr hlate (h.registered _ (mem_append_left _ hmem))

variable {tag : Nat}

theorem waits_of_perm {coming : List Nat}
    (hcoming : ∀ tag ∈ coming, s.registered ≤ tag ∧ tag < t.registered)
    (htags : t.tags.Perm (s.tags ++ coming))
    (htag : tag ∈ t.tags)
    (hold : tag ∉ s.mux.channels.map fun slot => slot.handler.1) : Waits s tag := by
  rcases mem_append.mp (htags.mem_iff.mp htag) with hmem | hnew
  · exact .inl ((mem_append.mp hmem).resolve_left hold)
  · exact .inr (hcoming tag hnew).1

theorem Numbering.waits_of_added
    (ht : Numbering t)
    {coming : List Nat}
    (hchannels : t.mux.channels = s.mux.channels ++ slotsFrom s.mux.nextDynamicId added)
    (hcoming : ∀ tag ∈ coming, s.registered ≤ tag ∧ tag < t.registered)
    (htags : t.tags.Perm (s.tags ++ coming))
    (htag : tag ∈ added.map Prod.fst) : Waits s tag := by
  have hall : t.mux.channels.map (fun slot => slot.handler.1) =
      s.mux.channels.map (fun slot => slot.handler.1) ++ added.map Prod.fst := by
    rw [hchannels, map_append, Endpoint.map_handler_slotsFrom]
  have hnodup := (nodup_append.mp ht.tags).1
  rw [hall, nodup_append] at hnodup
  refine waits_of_perm hcoming htags (mem_append_left _ ?_) fun hold => hnodup.2.2 tag hold tag htag rfl
  rw [hall]
  exact mem_append_right _ htag

theorem Numbering.nodup_added
    (ht : Numbering t)
    (hchannels : t.mux.channels = s.mux.channels ++ slotsFrom s.mux.nextDynamicId added) :
    (added.map Prod.fst).Nodup := by
  have hall := (nodup_append.mp ht.tags).1
  rw [hchannels, map_append, Endpoint.map_handler_slotsFrom] at hall
  exact (nodup_append.mp hall).2.1

theorem Waits.of_turn {message : Option ClientMessage}
    (ht : Numbering t)
    (hturn : Turn s t message)
    (h : Waits t tag) : Waits s tag := by
  cases hturn with
  | grows _ added coming _ hchannels _ hcoming _ hregistered htags _ =>
    rcases h with hpending | hlate
    · refine waits_of_perm hcoming htags (mem_append_right _ hpending) fun hold => ?_
      refine (nodup_append.mp ht.tags).2.2 tag ?_ tag hpending rfl
      rw [hchannels, map_append]
      exact mem_append_left _ hold
    · exact .inr (le_trans hregistered hlate)
  | closes _ _ _ _ _ hpending hregistered _ => rwa [Waits, hpending, hregistered] at h
  | opens _ _ _ _ hpending hregistered _ => rwa [Waits, hpending, hregistered] at h
  | takes _ _ _ _ _ _ _ hpending hregistered _ => rwa [Waits, hpending, hregistered] at h

end Kmsrdp.Guarantees.HandlerHistory
