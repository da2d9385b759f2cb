import Kmsrdp.Library.Execution
import Kmsrdp.Client.DynamicChannels
import Kmsrdp.Source.Server.DynamicChannels

/-!
# Delivery on dynamic channels

`Delivered`: on every dynamic channel the client has got the first of the messages produced for it,
and all of them once no frame of the channel is on its way.
-/
namespace Kmsrdp.Guarantees.DynamicDelivery
open Library.ByteString Library.Reassembly Library.Execution Source.Dvc Source.Transport List
  Connection DvcMux
  Source.Server.DynamicChannels Client.DynamicChannels

/-- The fragments of one dynamic channel by where they are, and the messages produced for it. -/
structure Lanes where
  (written latency queued task resizing : List (Fragment UInt8))
  produced : List Bytes

namespace Lanes

def bulk (l : Lanes) : List (Fragment UInt8) := l.queued ++ (l.task ++ l.resizing)

/-- The written fragments and those on their way are the produced messages, and there is only
one order in which the latter can be written. -/
structure Orderly (l : Lanes) : Prop where
  whole : l.written ++ (l.latency ++ l.bulk) = l.produced.flatMap (split maxDataSize)
  oneLane : l.latency = [] ∨ l.bulk = []
  oneSender : l.task = [] ∨ l.resizing = []

variable {l : Lanes} (first rest : List (Fragment UInt8))
section
variable (h : l.Orderly)
include h

theorem Orderly.of_bulk {queued task resizing : List (Fragment UInt8)}
    (hbulk : queued ++ (task ++ resizing) = l.bulk)
    (hsender : task = [] ∨ resizing = []) : Orderly { l with queued, task, resizing } where
  whole := by
    show l.written ++ (l.latency ++ (queued ++ (task ++ resizing))) = _
    rw [hbulk]
    exact h.whole
  oneLane := by
    show l.latency = [] ∨ queued ++ (task ++ resizing) = []
    rw [hbulk]
    exact h.oneLane
  oneSender := hsender

theorem Orderly.pushBulk (htask : l.task = first ++ rest) :
    Orderly { l with queued := l.queued ++ first, task := rest } := by
  refine h.of_bulk (by simp [bulk, htask]) (h.oneSender.imp_left fun hnone => ?_)
  exact (append_eq_nil_iff.mp (htask ▸ hnone)).2

theorem Orderly.pushResize (hresizing : l.resizing = first ++ rest) :
    Orderly { l with queued := l.queued ++ first, resizing := rest } := by
  rcases h.oneSender with htask | hnone
  · exact h.of_bulk (by simp [bulk, hresizing, htask]) (.inl htask)
  · obtain ⟨hfirst, hrest⟩ := append_eq_nil_iff.mp (hresizing ▸ hnone)
    exact h.of_bulk (by simp [bulk, hresizing, hfirst]) (.inr hrest)

theorem Orderly.reply {messages : List Bytes} (hturn : messages = [] ∨ l.bulk = []) :
    Orderly
      { l with
        latency := l.latency ++ messages.flatMap (split maxDataSize)
        produced := l.produced ++ messages } := by
  rcases hturn with rfl | hbulk
  · simpa using h
  · refine ⟨?_, .inr hbulk, h.oneSender⟩
    have hwhole := h.whole
    rw [hbulk, append_nil] at hwhole
    show l.written ++ (l.latency ++ _ ++ l.bulk) = _
    rw [hbulk, append_nil, ← append_assoc, hwhole, flatMap_append]

theorem Orderly.of_bulk_append {messages : List Bytes}
    (hturn : messages = [] ∨ l.latency = [])
    {task resizing : List (Fragment UInt8)}
    (hnew : task ++ resizing = l.task ++ l.resizing ++ messages.flatMap (split maxDataSize))
    (hsender : task = [] ∨ resizing = []) :
    Orderly { l with task, resizing, produced := l.produced ++ messages } := by
  have hbulk : l.queued ++ (task ++ resizing) = l.bulk ++ messages.flatMap (split maxDataSize) := by
    simp [hnew, bulk]
  refine ⟨?_, ?_, hsender⟩
  · show l.written ++ (l.latency ++ (l.queued ++ (task ++ resizing))) = _
    rw [hbulk, ← append_assoc l.latency, ← append_assoc l.written, h.whole, flatMap_append]
  · show l.latency = [] ∨ l.queued ++ (task ++ resizing) = []
    rw [hbulk]
    rcases hturn with rfl | hlatency
    · simpa using h.oneLane
    · exact .inl hlatency

theorem Orderly.writeLatency (hlatency : l.latency = first ++ rest) :
    Orderly { l with written := l.written ++ first, latency := rest } where
  whole := by
    have hwhole := h.whole
    rw [hlatency, append_assoc] at hwhole
    show l.written ++ first ++ (rest ++ l.bulk) = _
    rw [append_assoc, hwhole]
  oneLane := h.oneLane.imp_left fun hnone => (append_eq_nil_iff.mp (hlatency ▸ hnone)).2
  oneSender := h.oneSender

theorem Orderly.writeBulk (hqueued : l.queued = first ++ rest) :
    Orderly { l with written := l.written ++ first, queued := rest } := by
  have hbulk : l.bulk = first ++ (rest ++ (l.task ++ l.resizing)) := by simp [bulk, hqueued]
  rcases h.oneLane with hlatency | hnone
  · refine ⟨?_, .inl hlatency, h.oneSender⟩
    have hwhole := h.whole
    rw [hlatency, hbulk, nil_append] at hwhole
    show l.written ++ first ++ (l.latency ++ (rest ++ (l.task ++ l.resizing))) = _
    rw [hlatency, nil_append, append_assoc, hwhole]
  · obtain ⟨hfirst, hrest⟩ := append_eq_nil_iff.mp (hbulk ▸ hnone)
    refine ⟨?_, .inr hrest, h.oneSender⟩
    have hwhole := h.whole
    rw [hbulk, hfirst, nil_append] at hwhole
    show l.written ++ first ++ (l.latency ++ (rest ++ (l.task ++ l.resizing))) = _
    rw [hfirst, append_nil, hwhole]

theorem Orderly.collected :
    (collect none l.written).1 <+: l.produced ∧
    (l.latency = [] → l.bulk = [] → collect none l.written = (l.produced, none)) := by
  have hall := collect_flatMap_split (show 0 < maxDataSize by decide) l.produced
  rw [← h.whole] at hall
  constructor
  · have hstarts := collect_prefix none l.written (l.latency ++ l.bulk)
    rwa [hall] at hstarts
  · intro hlatency hbulk
    rwa [hlatency, hbulk, append_nil, append_nil] at hall

end
end Lanes
variable (rest : List Bytes)
section Session
variable {ω : Type} (behaviour : Behaviour ω)

def messagesFor (dynamicId : Nat) (messages : List (Nat × Bytes)) : List Bytes :=
  messages.filterMap fun message => if message.1 = dynamicId then some message.2 else none

def lanes (channelId : Nat) (s : Session ω) (dynamicId : Nat) : Lanes :=
  let reads := List.filterMap (fragmentFor channelId dynamicId)
  { written := reads (s.connection.socketOn (.static channelId))
    latency := reads (s.connection.waitingOn (.static channelId) .latency ++ s.loop.replies)
    queued := reads (s.connection.waitingOn (.static channelId) .bulk)
    task := reads (s.bulkSend.rest.filterMap (Connection.sentOn (.static channelId)))
    resizing := reads s.loop.resizeFrames
    produced := messagesFor dynamicId s.produced }

def clientHas (channelId : Nat) (s : Session ω) (dynamicId : Nat) : List Bytes × InProgress UInt8 :=
  received channelId dynamicId (s.connection.socketOn (.static channelId))

/-- No frame with data for the dynamic channel is on its way. -/
def Quiet (channelId : Nat) (s : Session ω) (dynamicId : Nat) : Prop :=
  (lanes channelId s dynamicId).latency = [] ∧ (lanes channelId s dynamicId).bulk = []

/-- On every dynamic channel the client has the first of the messages produced for it, and all
of them and nothing else when the channel is quiet. -/
def Delivered (channelId : Nat) (s : Session ω) : Prop :=
  ∀ dynamicId, (clientHas channelId s dynamicId).1 <+: messagesFor dynamicId s.produced ∧
    (Quiet channelId s dynamicId →
      clientHas channelId s dynamicId = (messagesFor dynamicId s.produced, none))

def newMessages (s : Session ω) : Action ω → List (Nat × Bytes)
  | .clientData payload =>
    match (s.mux.onChannelData behaviour.handlers s.world payload).1 with
    | .ok response => Session.messagesOf response
    | .error _ => []
  | .pump outcome _ _ =>
    match s.applyGfxEncodeOutcome behaviour outcome with
    | some (_, messages, _) => messages
    | none => []
  | .resize (some payloads) _ =>
    match s.buildGfxFrames behaviour payloads with
    | some built => payloads.map fun payload => (built.1, payload)
    | none => []
  | _ => []

def givenUp (s : Session ω) : Action ω → List Bytes
  | .dropReply => s.loop.replies.take 1
  | .abandonResize => s.loop.resizeFrames
  | _ => []

def ofOthers (s : Session ω) (dynamicId : Nat) : Action ω → List (Fragment UInt8)
  | .clientData _ => (lanes s.mux.channelId.toNat s dynamicId).bulk
  | .pump _ _ _ => (lanes s.mux.channelId.toNat s dynamicId).latency
  | .resize _ _ =>
    (lanes s.mux.channelId.toNat s dynamicId).latency ++ (lanes s.mux.channelId.toNat s dynamicId).task
  | _ => []

/-- A message is produced when everything the other senders have for its channel is written,
its length fits 32 bits, and frames that are given up carry no data. -/
def InTurn (s : Session ω) (action : Action ω) : Prop :=
  (∀ message ∈ newMessages behaviour s action,
    message.2.length < 2 ^ 32 ∧ ofOthers s message.1 action = []) ∧
    ∀ bytes ∈ givenUp s action,
      (Kmsrdp.Source.Pdu.wholeMessage s.mux.channelId.toNat bytes).bind dataFragment = none

instance (s : Session ω) : DecidablePred (InTurn behaviour s) :=
  fun _ => inferInstanceAs (Decidable (_ ∧ _))

open Session

@[simp] theorem replies_replyPhase : (replyPhase rest).replies = rest := by
  unfold replyPhase
  split
  · next h => rw [h]; rfl
  · rfl

@[simp] theorem resizeFrames_replyPhase : (replyPhase rest).resizeFrames = [] := by
  unfold replyPhase
  split <;> rfl

@[simp] theorem resizeFrames_resizePhase : (resizePhase rest).resizeFrames = rest := by
  unfold resizePhase
  split
  · next h => rw [h]; rfl
  · rfl

@[simp] theorem replies_resizePhase : (resizePhase rest).replies = [] := by
  unfold resizePhase
  split <;> rfl

theorem messagesFor_append (dynamicId : Nat) (front back : List (Nat × Bytes)) :
    messagesFor dynamicId (front ++ back) =
      messagesFor dynamicId front ++ messagesFor dynamicId back :=
  filterMap_append

theorem messagesFor_map (dynamicId channelId : Nat) (payloads : List Bytes) :
    messagesFor dynamicId (payloads.map fun payload => (channelId, payload)) =
      if channelId = dynamicId then payloads else [] := by
  by_cases hsame : channelId = dynamicId <;> simp [messagesFor, filterMap_map, hsame]

variable {messages : List (Nat × Bytes)}

theorem messagesFor_turn (free : Nat → Prop)
    (h : ∀ message ∈ messages, free message.1)
    (dynamicId : Nat) : messagesFor dynamicId messages = [] ∨ free dynamicId := by
  by_cases hsome : ∃ message ∈ messages, message.1 = dynamicId
  · obtain ⟨message, hmem, rfl⟩ := hsome
    exact .inr (h message hmem)
  · refine .inl (filterMap_eq_nil_iff.mpr fun message hmem => if_neg fun hid => ?_)
    exact hsome ⟨message, hmem, hid⟩

theorem reads_encodePayloads (mux : DvcMux Handler) {channelId : Nat} {payloads : List Bytes}
    (hid : payloads ≠ [] → channelId < 2 ^ 32)
    (hlength : ∀ payload ∈ payloads, payload.length < 2 ^ 32)
    (dynamicId : Nat) :
    (mux.encodePayloads channelId payloads).filterMap (fragmentFor mux.channelId.toNat dynamicId) =
      (messagesFor dynamicId (payloads.map fun payload => (channelId, payload))).flatMap
        (split maxDataSize) :=
    by
  rw [messagesFor_map]
  by_cases hnone : payloads = []
  · subst hnone
    simp [encodePayloads]
  · have := filterMap_readsFor_encodePayloads mux dynamicId (hid hnone) hlength
    rw [readsFor] at this
    rw [this]
    split <;> rfl

theorem length_encodeCreateRequest_le (channelId : Nat) (handler : Handler) :
    (encodeCreateRequest channelId handler.channelName).length ≤ 39 := by
  have hid := length_writeVariable_le channelId
  have hname : handler.channelName.toUTF8.data.toList.length ≤ 33 := by cases handler <;> decide
  simp only [encodeCreateRequest, length_cons, length_append, length_nil]
  omega

theorem reads_creates (mux : DvcMux Handler) {requests : List (Nat × String)}
    (hnamed : ∀ request ∈ requests, ∃ handler : Handler, request.2 = handler.channelName)
    (dynamicId : Nat) :
    ((Response.creates requests).frames mux).filterMap (fragmentFor mux.channelId.toNat dynamicId) =
      [] := by
  induction requests with
  | nil => rfl
  | cons request rest ih =>
    obtain ⟨handler, hname⟩ := hnamed request mem_cons_self
    have hfirst := filterMap_readsFor_wrap mux dynamicId
      (encodeCreateRequest_ne_nil request.1 handler.channelName)
      (Nat.le_trans (length_encodeCreateRequest_le request.1 handler) (by decide))
    rw [readsFor, dataFragment_encodeCreateRequest, ← hname] at hfirst
    have hrest := ih fun request hrequest => hnamed request (mem_cons_of_mem _ hrequest)
    rw [Response.frames] at hrest ⊢
    rw [flatMap_cons, filterMap_append, hrest, hfirst]
    rfl

/-- The invariant: the ids are small, the live slot is for other channels, and every dynamic
channel is in order. -/
structure Inv (channelId : UInt16) (s : Session ω) : Prop where
  id : s.mux.channelId = channelId
  numbered : s.mux.Numbered 4
  live : s.connection.LiveElsewhere (.static channelId.toNat)
  orderly : ∀ dynamicId, (lanes channelId.toNat s dynamicId).Orderly

variable {channelId : UInt16} {s : Session ω}

theorem delivered_of_inv (h : Inv channelId s) : Delivered channelId.toNat s := by
  intro dynamicId
  obtain ⟨hstarts, hall⟩ := (h.orderly dynamicId).collected
  exact ⟨hstarts, fun hquiet => hall hquiet.1 hquiet.2⟩

variable {behaviour}

theorem Inv.clientData
    (h : Inv channelId s)
    (hloop : s.loop = .selecting)
    (payload : Bytes)
    (hturn : InTurn behaviour s (.clientData payload)) :
    Inv channelId (s.onClientData behaviour payload) := by
  have hanswered := answered_onChannelData behaviour.handlers h.numbered s.world payload
  have hnew : newMessages behaviour s (.clientData payload) =
      match (s.mux.onChannelData behaviour.handlers s.world payload).1 with
      | .ok response => messagesOf response
      | .error _ => [] := rfl
  have hmessages := hturn.1
  rw [hnew] at hmessages
  unfold onClientData
  generalize hresult : s.mux.onChannelData behaviour.handlers s.world payload = result at *
  obtain ⟨outcome, mux, world⟩ := result
  cases outcome with
  | error e => exact ⟨hanswered.channelId.trans h.id, hanswered.numbered, h.live, h.orderly⟩
  | ok response =>
    refine ⟨hanswered.channelId.trans h.id, hanswered.numbered, h.live, fun dynamicId => ?_⟩
    have hid : mux.channelId = channelId := hanswered.channelId.trans h.id
    have hreads : (response.frames mux).filterMap (fragmentFor channelId.toNat dynamicId) =
        (messagesFor dynamicId (messagesOf response)).flatMap (split maxDataSize) := by
      rw [← hid]
      cases response with
      | creates requests => exact reads_creates mux (hanswered.named requests rfl) dynamicId
      | payloads replyId messages =>
        refine reads_encodePayloads mux (fun hne => ?_) (fun payload hpayload => ?_) dynamicId
        · obtain ⟨slot, hslot, rfl⟩ := hanswered.known replyId messages rfl hne
          have := h.numbered.below slot hslot
          have := h.numbered.room
          omega
        · exact (hmessages (replyId, payload) (mem_map_of_mem hpayload)).1
    have hfree : messagesFor dynamicId (messagesOf response) = [] ∨
        (lanes channelId.toNat s dynamicId).bulk = [] := by
      refine messagesFor_turn (fun id => (lanes channelId.toNat s id).bulk = []) ?_ dynamicId
      intro message hmessage
      exact h.id ▸ (hmessages message hmessage).2
    have hlanes : lanes channelId.toNat { s with
          mux := mux
          world := world
          loop := replyPhase (response.frames mux)
          produced := s.produced ++ messagesOf response } dynamicId =
        { lanes channelId.toNat s dynamicId with
          latency := (lanes channelId.toNat s dynamicId).latency ++
            (messagesFor dynamicId (messagesOf response)).flatMap (split maxDataSize)
          produced := (lanes channelId.toNat s dynamicId).produced ++
            messagesFor dynamicId (messagesOf response) } := by
      rw [← hreads]
      simp [lanes, hloop, messagesFor_append]
    rw [hlanes]
    exact (h.orderly dynamicId).reply hfree

/-- The frames are those of the messages, for a channel of the mux. -/
def Encoded (s : Session ω) (messages : List (Nat × Bytes)) (frames : List Bytes) : Prop :=
  ∃ id payloads, id < 2 ^ 32 ∧ messages = payloads.map (fun payload => (id, payload)) ∧
    frames = s.mux.encodePayloads id payloads

theorem Encoded.none (s : Session ω) : Encoded s [] [] := ⟨0, [], by decide, rfl, rfl⟩

theorem Encoded.reads {frames : List Bytes}
    (h : Encoded s messages frames)
    (hlength : ∀ message ∈ messages, message.2.length < 2 ^ 32)
    (dynamicId : Nat) :
    frames.filterMap (fragmentFor s.mux.channelId.toNat dynamicId) =
      (messagesFor dynamicId messages).flatMap (split maxDataSize) := by
  obtain ⟨id, payloads, hid, rfl, rfl⟩ := h
  exact reads_encodePayloads s.mux (fun _ => hid)
    (fun payload hpayload => hlength (id, payload) (mem_map_of_mem hpayload)) dynamicId

theorem encoded_of_buildGfxFrames
    (hnumbered : s.mux.Numbered 4)
    {payloads : List Bytes} {built : Nat × List Bytes}
    (h : s.buildGfxFrames behaviour payloads = some built) :
    Encoded s (payloads.map fun payload => (built.1, payload)) built.2 := by
  unfold buildGfxFrames channelIdForName at h
  rw [Option.map_map, Option.map_eq_some_iff] at h
  obtain ⟨slot, hslot, rfl⟩ := h
  have hbelow := hnumbered.below slot (mem_of_find?_eq_some hslot)
  have hroom := hnumbered.room
  exact ⟨slot.id, payloads, by omega, rfl, rfl⟩

theorem encoded_of_applyGfxEncodeOutcome
    (hnumbered : s.mux.Numbered 4)
    {outcome : GfxEncodeOutcome} {gfxHandled : Bool} {frames : List Bytes}
    (h : s.applyGfxEncodeOutcome behaviour outcome = some (gfxHandled, messages, frames)) :
    Encoded s messages frames := by
  cases outcome with
  | fallback => cases h; exact .none s
  | softSkip => cases h; exact .none s
  | send payloads =>
    simp only [applyGfxEncodeOutcome, Option.map_eq_some_iff] at h
    obtain ⟨built, hbuilt, h⟩ := h
    cases h
    exact encoded_of_buildGfxFrames hnumbered hbuilt
  | disable teardown =>
    simp only [applyGfxEncodeOutcome] at h
    split at h
    · cases h; exact .none s
    · split at h
      · cases h; exact .none s
      · next built hbuilt =>
        cases h
        exact encoded_of_buildGfxFrames hnumbered hbuilt

theorem sentOn_queueFrames (s : Session ω) (gfxHandled : Bool)
    (gfxFrames bitmapFrames : List Bytes) :
    (s.queueFrames gfxHandled gfxFrames bitmapFrames).rest.filterMap (sentOn s.key) = gfxFrames :=
    by
  have hgfx : (gfxFrames.map fun bytes => (s.key, bytes)).filterMap (sentOn s.key) = gfxFrames := by
    simp [filterMap_map, Function.comp_def, sentOn]
  have hbitmap : (bitmapFrames.map fun bytes => (ChannelKey.io, bytes)).filterMap (sentOn s.key) =
      [] := by
    simp [sentOn, key]
  have hrest : ∀ frames : List (ChannelKey × Bytes),
      (if frames = [] then BulkSend.none else .running frames).rest = frames := by
    intro frames
    split
    · next hnone => rw [hnone]; rfl
    · rfl
  rw [queueFrames, hrest]
  cases gfxHandled with
  | true => exact hgfx
  | false => exact filterMap_append.trans (by rw [hgfx, hbitmap, append_nil])

section
variable (h : Inv channelId s)
include h

theorem Inv.pump
    (hloop : s.loop = .selecting)
    (hbulk : s.bulkSend = .none)
    (outcome : GfxEncodeOutcome) (world : ω) (bitmapFrames : List Bytes)
    (hturn : InTurn behaviour s (.pump outcome world bitmapFrames)) :
    Inv channelId (s.pump behaviour outcome world bitmapFrames) := by
  have hmessages := hturn.1
  simp only [newMessages] at hmessages
  unfold Session.pump
  split
  · refine ⟨h.id, h.numbered, h.live, fun dynamicId => ?_⟩
    have hlanes : lanes channelId.toNat { s with world := world, loop := .ended } dynamicId =
        lanes channelId.toNat s dynamicId := by simp [lanes, hloop]
    exact hlanes ▸ h.orderly dynamicId
  · next gfxHandled messages gfxFrames happly =>
    simp only [happly] at hmessages
    refine ⟨h.id, h.numbered, h.live, fun dynamicId => ?_⟩
    have hreads := (encoded_of_applyGfxEncodeOutcome h.numbered happly).reads
      (fun message hmessage => (hmessages message hmessage).1) dynamicId
    rw [h.id] at hreads
    have hkey : s.key = .static channelId.toNat := by rw [key, h.id]
    have hsent := sentOn_queueFrames s gfxHandled gfxFrames bitmapFrames
    rw [hkey] at hsent
    have hfree := messagesFor_turn (fun id => (lanes channelId.toNat s id).latency = [])
      (fun message hmessage => h.id ▸ (hmessages message hmessage).2) dynamicId
    have hlanes : lanes channelId.toNat { s with
          world := world
          bulkSend := s.queueFrames gfxHandled gfxFrames bitmapFrames
          produced := s.produced ++ messages } dynamicId =
        { lanes channelId.toNat s dynamicId with
          task := (messagesFor dynamicId messages).flatMap (split maxDataSize)
          resizing := []
          produced := (lanes channelId.toNat s dynamicId).produced ++
            messagesFor dynamicId messages } := by
      rw [← hreads]
      simp [lanes, hloop, hsent, messagesFor_append]
    rw [hlanes]
    refine (h.orderly dynamicId).of_bulk_append hfree ?_ (.inr rfl)
    simp [lanes, hloop, hbulk, BulkSend.rest]

theorem Inv.resize
    (hloop : s.loop = .selecting)
    (payloads : Option (List Bytes)) (world : ω)
    (hturn : InTurn behaviour s (.resize payloads world)) :
    Inv channelId (s.resize behaviour payloads world) := by
  have hmessages := hturn.1
  unfold Session.resize
  split
  · exact ⟨h.id, h.numbered, h.live, h.orderly⟩
  · next payloads =>
    simp only [newMessages] at hmessages
    split
    · exact ⟨h.id, h.numbered, h.live, h.orderly⟩
    · next built hbuilt =>
      simp only [hbuilt] at hmessages
      refine ⟨h.id, h.numbered, h.live, fun dynamicId => ?_⟩
      generalize hnew : payloads.map (fun payload => (built.1, payload)) = messages at hmessages ⊢
      have hencoded := encoded_of_buildGfxFrames h.numbered hbuilt
      rw [hnew] at hencoded
      have hreads := hencoded.reads (fun message hmessage => (hmessages message hmessage).1) dynamicId
      rw [h.id] at hreads
      have hfree := messagesFor_turn (fun id => (lanes channelId.toNat s id).latency ++
          (lanes channelId.toNat s id).task = [])
        (fun message hmessage => h.id ▸ (hmessages message hmessage).2) dynamicId
      have hlanes : lanes channelId.toNat { s with
            world := world
            loop := resizePhase built.2
            produced := s.produced ++ messages } dynamicId =
          { lanes channelId.toNat s dynamicId with
            resizing := (messagesFor dynamicId messages).flatMap (split maxDataSize)
            produced := (lanes channelId.toNat s dynamicId).produced ++
              messagesFor dynamicId messages } := by
        rw [← hreads]
        simp [lanes, hloop, messagesFor_append]
      rw [hlanes]
      have hresizing : (lanes channelId.toNat s dynamicId).resizing = [] := by simp [lanes, hloop]
      refine (h.orderly dynamicId).of_bulk_append
        (hfree.imp_right fun hnone => (append_eq_nil_iff.mp hnone).1) ?_ ?_
      · rw [hresizing, append_nil]
      · rcases hfree with hnone | hnone
        · exact .inr (by rw [hnone]; rfl)
        · exact .inl (append_eq_nil_iff.mp hnone).2

theorem Inv.of_lanes {s' : Session ω}
    (hmux : s'.mux = s.mux)
    (hlive : s'.connection.LiveElsewhere (.static channelId.toNat))
    (hlanes : ∀ dynamicId, lanes channelId.toNat s' dynamicId = lanes channelId.toNat s dynamicId) :
    Inv channelId s' :=
  ⟨hmux ▸ h.id, hmux ▸ h.numbered, hlive, fun dynamicId => hlanes dynamicId ▸ h.orderly dynamicId⟩

theorem key_eq : s.key = .static channelId.toNat := by rw [key, h.id]

end

theorem lanes_accept_other {frame : Frame Bytes}
    (hother : frame.channel ≠ .static channelId.toNat)
    (dynamicId : Nat) :
    lanes channelId.toNat { s with connection := s.connection.accept frame } dynamicId =
      lanes channelId.toNat s dynamicId := by
  simp [lanes, socketOn_accept, waitingOn_accept, Frame.On, hother]

variable {bytes : Bytes} {rest : List Bytes}

theorem Inv.pushReply (h : Inv channelId s) (hloop : s.loop = .replying (bytes :: rest)) :
    Inv channelId
      { s with
        connection := s.connection.accept ⟨s.key, .latency, bytes⟩
        loop := replyPhase rest } := by
  refine h.of_lanes rfl (h.live.accept ⟨s.key, .latency, bytes⟩) fun dynamicId => ?_
  simp [lanes, hloop, key_eq h, socketOn_accept, waitingOn_accept, Frame.On]

theorem fragmentFor_eq_none {channel : Nat}
    (h : (Kmsrdp.Source.Pdu.wholeMessage channel bytes).bind dataFragment = none)
    (dynamicId : Nat) : fragmentFor channel dynamicId bytes = none := by
  rw [fragmentFor, h]

theorem Inv.dropReply
    (h : Inv channelId s)
    (hloop : s.loop = .replying (bytes :: rest))
    (hturn : InTurn behaviour s .dropReply) : Inv channelId { s with loop := replyPhase rest } := by
  refine h.of_lanes rfl h.live fun dynamicId => ?_
  have hnone := fragmentFor_eq_none (hturn.2 bytes (by simp [givenUp, hloop])) dynamicId
  rw [h.id] at hnone
  simp [lanes, hloop, hnone]

theorem Inv.pushBulk
    (h : Inv channelId s)
    {channel : ChannelKey} {rest : List (ChannelKey × Bytes)}
    (hbulk : s.bulkSend = .running ((channel, bytes) :: rest)) :
    Inv channelId
      { s with
        connection := s.connection.accept ⟨channel, .bulk, bytes⟩
        bulkSend := .running rest } := by
  refine ⟨h.id, h.numbered, h.live.accept ⟨channel, .bulk, bytes⟩, fun dynamicId => ?_⟩
  -- a bitmap frame brings nothing to the lane
  have hfirst := (h.orderly dynamicId).pushBulk
    (([(channel, bytes)].filterMap (sentOn (.static channelId.toNat))).filterMap
      (fragmentFor channelId.toNat dynamicId))
    ((rest.filterMap (sentOn (.static channelId.toNat))).filterMap
      (fragmentFor channelId.toNat dynamicId))
    (by rw [← filterMap_append, ← filterMap_append]; simp [lanes, hbulk, BulkSend.rest])
  by_cases hchannel : channel = .static channelId.toNat <;>
    simpa [lanes, hchannel, BulkSend.rest, sentOn, socketOn_accept, waitingOn_accept, Frame.On]
      using hfirst

theorem Inv.pushResize (h : Inv channelId s) (hloop : s.loop = .resizing (bytes :: rest)) :
    Inv channelId
      { s with
        connection := s.connection.accept ⟨s.key, .bulk, bytes⟩
        loop := resizePhase rest } := by
  refine ⟨h.id, h.numbered, h.live.accept ⟨s.key, .bulk, bytes⟩, fun dynamicId => ?_⟩
  have hfirst :=
    (h.orderly dynamicId).pushResize ([bytes].filterMap (fragmentFor channelId.toNat dynamicId))
    (rest.filterMap (fragmentFor channelId.toNat dynamicId))
    (by rw [← filterMap_append]; simp [lanes, hloop])
  simpa [lanes, hloop, key_eq h, socketOn_accept, waitingOn_accept, Frame.On] using hfirst

theorem Inv.abandonResize
    (h : Inv channelId s)
    (hloop : s.loop = .resizing rest)
    (hturn : InTurn behaviour s .abandonResize) : Inv channelId { s with loop := .selecting } := by
  refine h.of_lanes rfl h.live fun dynamicId => ?_
  have hnone : rest.filterMap (fragmentFor channelId.toNat dynamicId) = [] := by
    refine filterMap_eq_nil_iff.mpr fun bytes hbytes => ?_
    have hdata := hturn.2 bytes (by simpa [givenUp, hloop] using hbytes)
    exact fragmentFor_eq_none (h.id ▸ hdata) dynamicId
  simp [lanes, hloop, hnone]

theorem Inv.writer
    (h : Inv channelId s)
    {connection : Connection Bytes}
    (houtcome : s.connection.WriterOutcome connection) :
    Inv channelId { s with connection := connection } := by
  refine ⟨h.id, h.numbered, h.live.of_outcome houtcome, fun dynamicId => ?_⟩
  cases channel_of_outcome h.live houtcome with
  | same hsocket hwaiting =>
    have hlanes : lanes channelId.toNat { s with connection := connection } dynamicId =
        lanes channelId.toNat s dynamicId := by simp [lanes, hsocket, hwaiting]
    exact hlanes ▸ h.orderly dynamicId
  | wrote priority bytes hsocket hfirst hother =>
    cases priority with
    | latency =>
      have hwrite := (h.orderly dynamicId).writeLatency
        ([bytes].filterMap (fragmentFor channelId.toNat dynamicId))
        ((connection.waitingOn (.static channelId.toNat) .latency ++ s.loop.replies).filterMap
          (fragmentFor channelId.toNat dynamicId))
        (by rw [← filterMap_append]; simp [lanes, hfirst])
      simpa [lanes, hsocket, hother .bulk (by decide)] using hwrite
    | bulk =>
      have hwrite :=
        (h.orderly dynamicId).writeBulk ([bytes].filterMap (fragmentFor channelId.toNat dynamicId))
        ((connection.waitingOn (.static channelId.toNat) .bulk).filterMap
          (fragmentFor channelId.toNat dynamicId))
        (by rw [← filterMap_append]; simp [lanes, hfirst])
      simpa [lanes, hsocket, hother .latency (by decide)] using hwrite

theorem Inv.otherSend (h : Inv channelId s) {frame : Frame Bytes} (hother : frame.channel ≠ s.key) :
    Inv channelId { s with connection := (s.connection.send frame).2 } := by
  unfold send
  split
  · rw [key_eq h] at hother
    exact h.of_lanes rfl (h.live.accept frame) (lanes_accept_other hother)
  · exact h

theorem Inv.otherLive
    (h : Inv channelId s)
    {frames : List (Frame Bytes)}
    (hother : ¬ ∃ frame ∈ frames, frame.channel = s.key) :
    Inv channelId { s with connection := s.connection.sendLive frames } := by
  refine h.of_lanes rfl (h.live.sendLive fun frame hframe hchannel => ?_) fun dynamicId => rfl
  exact hother ⟨frame, hframe, hchannel.trans (key_eq h).symm⟩

theorem inv_step {s' : Session ω} {action : Action ω}
    (h : Inv channelId s)
    (hturn : InTurn behaviour s action)
    (hstep : s.step behaviour action = some s') : Inv channelId s' := by
  cases action <;> simp only [step] at hstep
  case clientData payload =>
    split at hstep
    · next hloop =>
      cases hstep
      exact h.clientData hloop payload hturn
    · cases hstep
  case pushReply =>
    split at hstep
    · next hloop =>
      obtain ⟨connection, hsend, rfl⟩ := Option.map_eq_some_iff.mp hstep
      rw [sendAll_eq_some hsend]
      exact h.pushReply hloop
    · cases hstep
  case dropReply =>
    split at hstep
    · next hloop =>
      split at hstep
      · cases hstep
      · cases hstep
        exact h.dropReply hloop hturn
    · cases hstep
  case pump outcome world bitmapFrames =>
    split at hstep
    · next hloop hbulk =>
      cases hstep
      exact h.pump hloop hbulk outcome world bitmapFrames hturn
    · cases hstep
  case pushBulk =>
    split at hstep
    · cases hstep
    · next hbulk _ =>
      obtain ⟨connection, hsend, rfl⟩ := Option.map_eq_some_iff.mp hstep
      rw [sendAll_eq_some hsend]
      exact h.pushBulk hbulk
    · cases hstep
  case failBulk =>
    split at hstep
    · cases hstep
    · next hbulk _ =>
      split at hstep
      · cases hstep
      · cases hstep
        exact h.of_lanes rfl h.live fun dynamicId => by simp [lanes, hbulk, BulkSend.rest]
    · cases hstep
  case joinBulk =>
    split at hstep
    · next hloop hbulk =>
      cases hstep
      exact h.of_lanes rfl h.live fun dynamicId => by simp [lanes, hbulk, BulkSend.rest]
    · next hloop hbulk =>
      cases hstep
      exact h.of_lanes rfl h.live fun dynamicId => by simp [lanes, hloop]
    · cases hstep
  case resize payloads world =>
    split at hstep
    · next hloop =>
      cases hstep
      exact h.resize hloop payloads world hturn
    · cases hstep
  case pushResize =>
    split at hstep
    · next hloop =>
      obtain ⟨connection, hsend, rfl⟩ := Option.map_eq_some_iff.mp hstep
      rw [sendAll_eq_some hsend]
      exact h.pushResize hloop
    · cases hstep
  case abandonResize =>
    split at hstep
    · next hloop =>
      split at hstep
      · cases hstep
      · cases hstep
        exact h.abandonResize hloop hturn
    · cases hstep
  case otherSend frame =>
    obtain ⟨hother, ⟨⟩⟩ := Option.ite_none_left_eq_some.mp hstep
    exact h.otherSend hother
  case otherLive frames =>
    obtain ⟨hother, ⟨⟩⟩ := Option.ite_none_left_eq_some.mp hstep
    exact h.otherLive hother
  case writer move =>
    obtain ⟨connection, hmove, rfl⟩ := Option.map_eq_some_iff.mp hstep
    exact h.writer (writerStep_outcome hmove)
  case finish =>
    split at hstep
    · next hloop =>
      cases hstep
      exact h.of_lanes rfl h.live fun dynamicId => by simp [lanes, hloop]
    · cases hstep

section
variable (behaviour : Behaviour ω)

theorem mux_start (channelId userChannelId : UInt16) (echo audioInput gfx : Bool) (world : ω) :
    (start behaviour channelId userChannelId echo audioInput gfx world).mux =
      { new channelId userChannelId with pending := registered echo audioInput gfx } :=
  foldl_registerChannel behaviour.handlers rfl _

theorem connection_start (channelId userChannelId : UInt16) (echo audioInput gfx : Bool)
    (world : ω) :
    ∃ bytes,
      (start behaviour channelId userChannelId echo audioInput gfx world).connection =
        new.accept ⟨.static channelId.toNat, .latency, bytes⟩ ∧
      ∀ dynamicId, fragmentFor channelId.toNat dynamicId bytes = none := by
  obtain ⟨bytes, hwrap, hwhole⟩ := Kmsrdp.Source.Pdu.wrapIndication_single
    (UInt16.toNat_lt userChannelId) (UInt16.toNat_lt channelId)
    (show encodeCapabilityRequest ≠ [] by decide) (by decide)
  refine ⟨bytes, ?_, fragmentFor_eq_none ?_⟩
  · have hinitial : (new channelId userChannelId : DvcMux Handler).initial = [bytes] := hwrap
    rw [start]
    simp only [hinitial]
    rfl
  · rw [hwhole]
    exact (by decide : dataFragment encodeCapabilityRequest = none)

theorem inv_start (channelId userChannelId : UInt16) (echo audioInput gfx : Bool) (world : ω) :
    Inv channelId (start behaviour channelId userChannelId echo audioInput gfx world) := by
  have hmux := mux_start behaviour channelId userChannelId echo audioInput gfx world
  obtain ⟨bytes, hconnection, hnone⟩ :=
    connection_start behaviour channelId userChannelId echo audioInput gfx world
  refine ⟨by rw [hmux]; rfl, ?_, ?_, fun dynamicId => ?_⟩
  · rw [hmux]
    have hlength : ∀ echo audioInput gfx, (registered echo audioInput gfx).length ≤ 3 := by
      decide
    refine ⟨fun slot hslot => absurd hslot not_mem_nil, ?_⟩
    exact Nat.add_le_add_left (hlength echo audioInput gfx) 1
  · rw [hconnection]
    exact (Connection.LiveElsewhere.new _).accept _
  · have hlanes : lanes channelId.toNat
        (start behaviour channelId userChannelId echo audioInput gfx world) dynamicId =
        ⟨[], [], [], [], [], []⟩ := by
      unfold lanes
      rw [hconnection]
      simp [socketOn_accept, waitingOn_accept, Frame.On, hnone, start, BulkSend.rest, messagesFor]
    rw [hlanes]
    exact ⟨rfl, .inl rfl, .inl rfl⟩

end

/-- In every run in which messages are produced in turn, on every dynamic channel the client has
the first of the messages produced for it, and all of them once none is on its way. -/
theorem delivered_always_of_inTurn (behaviour : Behaviour ω) (channelId userChannelId : UInt16)
    (echo audioInput gfx : Bool) (world : ω) (schedule : List (Action ω))
    (h : Careful (Session.step behaviour) (InTurn behaviour)
        (Session.start behaviour channelId userChannelId echo audioInput gfx world) schedule) :
    Always (Session.step behaviour) (Delivered channelId.toNat)
      (Session.start behaviour channelId userChannelId echo audioInput gfx world) schedule :=
  always_of_careful (Inv channelId) (fun _ => delivered_of_inv) (fun _ _ _ => inv_step) schedule
    (inv_start behaviour channelId userChannelId echo audioInput gfx world) h

end Session
open Source Source.Pdu

def clientSays (pdu : Bytes) : Action Rdpegfx.Inner :=
  .clientData (channelChunk pdu.length (channelFlagFirst ||| channelFlagLast) pdu)

def writerMoves (n : Nat) : List (Action Rdpegfx.Inner) := List.replicate n (.writer .next)

def capsAdvertise : Bytes :=
  Rdpegfx.gfxPdu Rdpegfx.cmdCapsAdvertise
    (u16Le 1 ++ Rdpegfx.RawCapabilitySet.encodeBody ⟨Rdpegfx.capVersion107, u32Le 0⟩)

def desktop : Rdpegfx.Inner := Rdpegfx.Inner.new 64 48

def encodedFrame : Rdpegfx.GfxFrameResult × Rdpegfx.Inner :=
  (desktop.onData capsAdvertise).2.encodeFrame 64 48 (some ⟨List.replicate 1600 7, 20⟩) none

def gfxStart : Session Rdpegfx.Inner := Session.start gfxAlone 1005 1003 false false true desktop

def streaming : List (Action Rdpegfx.Inner) :=
  [clientSays (0x50 :: 0 :: u16Le 2), .pushReply, clientSays (0x10 :: 1 :: u32Le 0),
    clientSays (encodeData 1 capsAdvertise)] ++ List.replicate 4 .pushReply ++ writerMoves 40 ++
    [.pump (.ofResult encodedFrame.1) encodedFrame.2 []] ++ List.replicate 4 .pushBulk ++
    [.joinBulk, .writer (.recv .bulk)]

/-- The run without further messages from the client ends with everything delivered. -/
theorem delivered_streaming :
    (exec (Session.step gfxAlone) gfxStart (streaming ++ writerMoves 27)).any
      (fun t => (clientHas 1005 t 1).1.length = 7 && (lanes 1005 t 1).bulk = []) =
      true ∧
    Always (Session.step gfxAlone) (Delivered 1005) gfxStart (streaming ++ writerMoves 27) :=
  ⟨by decide +kernel, delivered_always_of_inTurn gfxAlone 1005 1003 false false true desktop
    (streaming ++ writerMoves 27) (by decide +kernel)⟩

def renegotiating : List (Action Rdpegfx.Inner) :=
  streaming ++ writerMoves 13 ++ [clientSays (encodeData 1 capsAdvertise)] ++
    List.replicate 5 .pushReply ++ writerMoves 44

/-- Everything is written, and the client has a message that was never produced. -/
theorem reply_corrupts_gfx_message :
    ∃ t,
      exec (Session.step gfxAlone) gfxStart renegotiating = some t ∧
      Quiet 1005 t 1 ∧
      (∃ message ∈ (clientHas 1005 t 1).1, message ∉ messagesFor 1 t.produced) ∧
      ¬ Delivered 1005 t := by
  have hrun : (exec (Session.step gfxAlone) gfxStart renegotiating).any (fun t =>
      decide ((lanes 1005 t 1).latency = [] ∧ (lanes 1005 t 1).bulk = []) &&
        (clientHas 1005 t 1).1.any fun message => message ∉ messagesFor 1 t.produced) = true := by
    decide +kernel
  obtain ⟨t, ht, hbad⟩ := (Option.any_eq_true _ _).mp hrun
  rw [Bool.and_eq_true, decide_eq_true_iff, any_eq_true] at hbad
  obtain ⟨hquiet, message, hmem, hnew⟩ := hbad
  have hnew : message ∉ messagesFor 1 t.produced := of_decide_eq_true hnew
  refine ⟨t, ht, hquiet, ⟨message, hmem, hnew⟩, fun hdelivered => hnew ?_⟩
  exact (hdelivered 1).1.subset hmem

end Kmsrdp.Guarantees.DynamicDelivery
