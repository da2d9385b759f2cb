import Kmsrdp.Guarantees.HandlerHistory

/-!
# The life cycle of a handler

`lifeOf` reads the life of one handler off the history; a call that does not fit its phase is a
fault. A handler is called only between the creation and the end of its channel, and `on_open` only
after the client accepted it.
-/
namespace Kmsrdp.Guarantees.HandlerLifeCycle
open Library.ByteString Library.Execution Source.Dvc Guarantees.HandlerHistory List Endpoint
variable {η ω : Type}

inductive Phase where
  | registered
  | requested (channelId : Nat)
  | accepted (channelId : Nat)
  | opened (channelId : Nat)
  | ended
  deriving DecidableEq

/-- What a handler should never see. -/
inductive Fault where
  | openedUnaccepted
  | openedAgain
  | receivedUnopened
  | calledOutside
  deriving DecidableEq

structure Life where
  phase : Phase
  faults : List Fault

def Phase.hear (message : ClientMessage) : Phase → Phase
  | .requested channelId =>
    if DvcMux.closes message = some channelId then .ended
    else if message = .createResponse channelId 0 then .accepted channelId
    else .requested channelId
  | .accepted channelId =>
    if DvcMux.closes message = some channelId then .ended else .accepted channelId
  | .opened channelId => if DvcMux.closes message = some channelId then .ended else .opened channelId
  | .registered => .registered
  | .ended => .ended

def Life.openCall (life : Life) : Life :=
  match life.phase with
  | .accepted channelId => { life with phase := .opened channelId }
  | .requested channelId => ⟨.opened channelId, life.faults ++ [.openedUnaccepted]⟩
  | .opened channelId => ⟨.opened channelId, life.faults ++ [.openedAgain]⟩
  | phase => ⟨phase, life.faults ++ [.calledOutside]⟩

def Life.dataCall (life : Life) : Life :=
  match life.phase with
  | .opened _ => life
  | .requested _ => { life with faults := life.faults ++ [.receivedUnopened] }
  | .accepted _ => { life with faults := life.faults ++ [.receivedUnopened] }
  | _ => { life with faults := life.faults ++ [.calledOutside] }

def observe (handler : Nat) (life : Life) : Event → Life
  | .heard message => { life with phase := life.phase.hear message }
  | .created tag channelId =>
    if tag = handler then { life with phase := .requested channelId } else life
  | .opened tag => if tag = handler then life.openCall else life
  | .received tag _ => if tag = handler then life.dataCall else life

def lifeOf (handler : Nat) (history : List Event) : Life :=
  history.foldl (observe handler) ⟨.registered, []⟩

variable (handler : Nat)

theorem lifeOf_append (history more : List Event) :
    lifeOf handler (history ++ more) = more.foldl (observe handler) (lifeOf handler history) :=
  foldl_append

variable (history : List Event) (message : ClientMessage)

theorem lifeOf_heard :
    lifeOf handler (history ++ [.heard message]) =
      ⟨(lifeOf handler history).phase.hear message, (lifeOf handler history).faults⟩ :=
  lifeOf_append handler history [.heard message]

theorem faults_heard :
    (lifeOf handler (history ++ [.heard message])).faults = (lifeOf handler history).faults := by
  rw [lifeOf_heard]

variable {channelId : Nat}

theorem hear_of_target_ne {message : ClientMessage}
    (h : target message ≠ some channelId)
    {phase : Phase}
    (hphase : phase = .requested channelId ∨ phase = .opened channelId) :
    phase.hear message = phase := by
  have hcloses : DvcMux.closes message ≠ some channelId := fun hc => h (target_of_closes hc)
  have hresponse : message ≠ .createResponse channelId 0 := by
    rintro rfl
    exact h rfl
  rcases hphase with rfl | rfl
  · simp only [Phase.hear, if_neg hcloses, if_neg hresponse]
  · simp only [Phase.hear, if_neg hcloses]

theorem hear_dataMessage (channelId : Nat) (data : Bytes) (startsNew : Option Nat) (phase : Phase) :
    phase.hear (dataMessage channelId data startsNew) = phase := by
  cases startsNew <;> cases phase <;> simp [Phase.hear, dataMessage, DvcMux.closes]

variable {handler : Nat}

theorem observe_created_of_ne (life : Life) (tag channelId : Nat) (h : tag ≠ handler) :
    observe handler life (.created tag channelId) = life := if_neg h

theorem faults_foldl_creations (handler next : Nat) (added : List (Nat × η)) (life : Life) :
    ((creations next added).foldl (observe handler) life).faults = life.faults := by
  induction added generalizing next life with
  | nil => rfl
  | cons entry rest ih =>
    have hfirst : (observe handler life (.created entry.1 next)).faults = life.faults := by
      rw [observe]
      split <;> rfl
    exact (ih (next + 1) _).trans hfirst

variable {tag : Nat}

theorem foldl_received_of_ne (hne : tag ≠ handler) (messages : List Bytes) (life : Life) :
    (messages.map (.received tag)).foldl (observe handler) life = life := by
  induction messages generalizing life with
  | nil => rfl
  | cons message rest ih =>
    have hfirst : observe handler life (.received tag message) = life := if_neg hne
    rw [map_cons, foldl_cons, hfirst, ih]

theorem foldl_received_opened {life : Life}
    (hphase : life.phase = .opened channelId)
    (handler : Nat) (messages : List Bytes) :
    (messages.map (.received handler)).foldl (observe handler) life = life := by
  induction messages with
  | nil => rfl
  | cons message rest ih =>
    have hfirst : observe handler life (.received handler message) = life := by
      rw [observe, if_pos rfl, Life.dataCall, hphase]
    rw [map_cons, foldl_cons, hfirst, ih]

theorem foldl_received_requested {life : Life}
    (hphase : life.phase = .requested channelId)
    (handler : Nat) (messages : List Bytes) :
    (messages.map (.received handler)).foldl (observe handler) life =
      { life with faults := life.faults ++ messages.map fun _ => .receivedUnopened } := by
  induction messages generalizing life with
  | nil => simp
  | cons message rest ih =>
    have hfirst : observe handler life (.received handler message) =
        { life with faults := life.faults ++ [.receivedUnopened] } := by
      rw [observe, if_pos rfl, Life.dataCall, hphase]
    rw [map_cons, foldl_cons, hfirst, ih (by exact hphase)]
    simp

/-- Open channels were requested or opened; handlers without a channel have not been called. -/
structure Tracked (s : Endpoint η ω) : Prop where
  numbering : Numbering s
  waiting : ∀ tag, Waits s tag → (lifeOf tag s.history).phase = .registered
  live : ∀ slot ∈ s.mux.channels, (lifeOf slot.handler.1 s.history).phase = .requested slot.id ∨
    (lifeOf slot.handler.1 s.history).phase = .opened slot.id

theorem tracked_start (channelId userChannelId : UInt16) (world : ω) :
    Tracked (.start channelId userChannelId world : Endpoint η ω) where
  numbering := numbering_start channelId userChannelId world
  waiting := fun _ _ => rfl
  live := fun _ h => by cases h

variable {s t : Endpoint η ω}
variable {slot : ChannelSlot (Nat × η)}

theorem Tracked.lifeOf_heard_of_ne
    (h : Tracked s)
    (hslot : slot ∈ s.mux.channels)
    {message : ClientMessage}
    (htarget : target message ≠ some slot.id) :
    lifeOf slot.handler.1 (s.history ++ [.heard message]) = lifeOf slot.handler.1 s.history := by
  rw [lifeOf_heard, hear_of_target_ne htarget (h.live slot hslot)]

theorem lifeOf_dataMessage (channelId : Nat) (data : Bytes) (startsNew : Option Nat) :
    lifeOf handler (history ++ [.heard (dataMessage channelId data startsNew)]) =
      lifeOf handler history := by
  rw [lifeOf_heard, hear_dataMessage]

variable {message : Option ClientMessage}

theorem Tracked.lifeOf_untargeted (h : Tracked s) (hslot : slot ∈ s.mux.channels)
    (htarget : ∀ channelId, message.bind target = some channelId → s.mux.findSlot channelId = none) :
    lifeOf slot.handler.1 (s.history ++ message.toList.map .heard) =
      lifeOf slot.handler.1 s.history := by
  cases message with
  | none => exact congrArg _ (append_nil _)
  | some message =>
    refine h.lifeOf_heard_of_ne hslot fun hsame => ?_
    have hnone := find?_eq_none.mp (htarget slot.id hsame) slot hslot
    exact hnone (decide_eq_true rfl)

theorem Tracked.phase_of_waits
    (h : Tracked s)
    (htag : Waits s tag)
    (messages : List ClientMessage) :
    (lifeOf tag (s.history ++ messages.map .heard)).phase = .registered := by
  rw [lifeOf_append]
  have hstart := h.waiting tag htag
  generalize lifeOf tag s.history = life at hstart ⊢
  induction messages generalizing life with
  | nil => exact hstart
  | cons message rest ih => exact ih _ (show life.phase.hear message = _ by rw [hstart]; rfl)

theorem Tracked.lifeOf_opens (h : Tracked s) (hslot : slot ∈ s.mux.channels) :
    lifeOf slot.handler.1 (s.history ++ [.heard (.createResponse slot.id 0), .opened slot.handler.1]) =
      ⟨.opened slot.id, (lifeOf slot.handler.1 s.history).faults ++
        if (lifeOf slot.handler.1 s.history).phase = .requested slot.id then []
          else [.openedAgain]⟩ := by
  rw [lifeOf_append, foldl_cons, foldl_cons, foldl_nil]
  rcases h.live slot hslot with hphase | hphase
  · simp [observe, hphase, Phase.hear, DvcMux.closes, Life.openCall]
  · simp [observe, hphase, Phase.hear, DvcMux.closes, Life.openCall]

theorem Tracked.lifeOf_takes (h : Tracked s) (hslot : slot ∈ s.mux.channels) (data : Bytes)
    (startsNew : Option Nat) (messages : List Bytes) :
    lifeOf slot.handler.1 (s.history ++ .heard (dataMessage slot.id data startsNew) ::
        messages.map (.received slot.handler.1)) =
      ⟨(lifeOf slot.handler.1 s.history).phase, (lifeOf slot.handler.1 s.history).faults ++
        if (lifeOf slot.handler.1 s.history).phase = .opened slot.id then []
        else messages.map fun _ => .receivedUnopened⟩ := by
  rw [append_cons, lifeOf_append, lifeOf_dataMessage]
  rcases h.live slot hslot with hphase | hphase
  · rw [foldl_received_requested hphase, if_neg (by rw [hphase]; exact Phase.noConfusion)]
  · rw [foldl_received_opened hphase, if_pos hphase, append_nil]

theorem lifeOf_opens_of_ne (hne : tag ≠ handler) (history : List Event) (message : ClientMessage) :
    lifeOf handler (history ++ [.heard message, .opened tag]) =
      lifeOf handler (history ++ [.heard message]) := by
  rw [append_cons, lifeOf_append, foldl_cons, foldl_nil]
  exact if_neg hne

theorem lifeOf_takes_of_ne
    (hne : tag ≠ handler)
    (history : List Event) (channelId : Nat) (data : Bytes) (startsNew : Option Nat)
    (messages : List Bytes) :
    lifeOf handler
      (history ++ .heard (dataMessage channelId data startsNew) :: messages.map (.received tag)) =
      lifeOf handler history := by
  rw [append_cons, lifeOf_append, foldl_received_of_ne hne, lifeOf_dataMessage]

section
variable (hturn : Turn s t message)
include hturn

theorem Tracked.waiting_turn (h : Tracked s) (hw : Waits t tag) :
    (lifeOf tag t.history).phase = .registered := by
  have hnumbering := h.numbering.turn hturn
  have hbefore : Waits s tag := Waits.of_turn hnumbering hturn hw
  have hother : ∀ {slot}, slot ∈ s.mux.channels → slot.handler.1 ≠ tag := by
    rintro slot hslot rfl
    exact h.numbering.not_waits hslot hbefore
  cases hturn with
  | grows message added _ _ hchannels _ _ _ _ _ hhistory =>
    have hnot : tag ∉ added.map Prod.fst := by
      intro hadded
      rw [← map_handler_slotsFrom s.mux.nextDynamicId] at hadded
      obtain ⟨slot, hslot, heq⟩ := mem_map.mp hadded
      exact hnumbering.not_waits (hchannels ▸ mem_append_right _ hslot) (heq ▸ hw)
    rw [hhistory, lifeOf_append, foldl_creations_of_notMem observe_created_of_ne hnot]
    exact h.phase_of_waits hbefore message.toList
  | closes message _ _ _ _ _ _ hhistory => exact hhistory ▸ h.phase_of_waits hbefore [message]
  | opens slot hslot _ _ _ _ hhistory =>
    rw [hhistory, lifeOf_opens_of_ne (hother hslot)]
    exact h.phase_of_waits hbefore [_]
  | takes slot data startsNew hslot _ _ _ _ _ hhistory =>
    rw [hhistory, lifeOf_takes_of_ne (hother (mem_of_find?_eq_some hslot))]
    exact h.waiting tag hbefore

theorem Tracked.live_turn (h : Tracked s) (hslot : slot ∈ t.mux.channels) :
    (lifeOf slot.handler.1 t.history).phase = .requested slot.id ∨
    (lifeOf slot.handler.1 t.history).phase = .opened slot.id := by
  have hnumbering := h.numbering.turn hturn
  cases hturn with
  | grows message added coming htarget hchannels _ hcoming _ _ htags hhistory =>
    rw [hhistory, lifeOf_append]
    rw [hchannels, mem_append] at hslot
    rcases hslot with hold | hnew
    · have hnot : slot.handler.1 ∉ added.map Prod.fst := fun hadded =>
        h.numbering.not_waits hold (hnumbering.waits_of_added hchannels hcoming htags hadded)
      rw [foldl_creations_of_notMem observe_created_of_ne hnot, h.lifeOf_untargeted hold htarget]
      exact h.live slot hold
    · rw [foldl_creations_of_mem observe_created_of_ne (hnumbering.nodup_added hchannels) hnew rfl,
        observe, if_pos rfl]
      exact .inl rfl
  | closes message channelId hcloses hchannels _ _ _ hhistory =>
    rw [hchannels, mem_filter, decide_eq_true_eq] at hslot
    have htarget : target message ≠ some slot.id := by
      rw [target_of_closes hcloses]
      exact fun heq => hslot.2 (Option.some.inj heq).symm
    rw [hhistory, h.lifeOf_heard_of_ne hslot.1 htarget]
    exact h.live slot hslot.1
  | opens called hcalled hchannels _ _ _ hhistory =>
    rw [hchannels] at hslot
    rw [hhistory]
    by_cases hsame : slot = called
    · subst hsame
      exact .inr (by rw [h.lifeOf_opens hslot])
    · have hid : target (.createResponse called.id 0) ≠ some slot.id := fun heq =>
        hsame (h.numbering.eq_of_id hslot hcalled (Option.some.inj heq).symm)
      have hne : called.handler.1 ≠ slot.handler.1 := fun heq =>
        hsame (h.numbering.eq_of_tag hslot hcalled heq.symm)
      rw [lifeOf_opens_of_ne hne, h.lifeOf_heard_of_ne hslot hid]
      exact h.live slot hslot
  | takes called data startsNew hcalled _ hchannels _ _ _ hhistory =>
    rw [hchannels] at hslot
    obtain ⟨old, hold, hid, hhandler⟩ := exists_of_mem_setReassembly hslot
    rw [hhistory, ← hid, ← hhandler]
    by_cases hsame : old = called
    · subst hsame
      rw [h.lifeOf_takes hold]
      exact h.live old hold
    · have hne : called.handler.1 ≠ old.handler.1 := fun heq =>
        hsame (h.numbering.eq_of_tag hold (mem_of_find?_eq_some hcalled) heq.symm)
      rw [lifeOf_takes_of_ne hne]
      exact h.live old hold

theorem Tracked.turn (h : Tracked s) : Tracked t :=
  ⟨h.numbering.turn hturn, fun _ hw => h.waiting_turn hturn hw, fun _ hslot => h.live_turn hturn hslot⟩

end

/-- The message fits the life of the handler it reaches: a success response comes for a channel
that was requested, and data that completes a message for one that was opened. -/
def Orderly (s : Endpoint η ω) (message : Option ClientMessage) : Prop :=
  ∀ slot ∈ s.mux.channels,
    (message = some (.createResponse slot.id 0) →
      (lifeOf slot.handler.1 s.history).phase = .requested slot.id) ∧
    ∀ data startsNew, message = some (dataMessage slot.id data startsNew) →
      delivered (DvcMux.assemble slot.reassembly data startsNew).1 ≠ [] →
      (lifeOf slot.handler.1 s.history).phase = .opened slot.id

theorem Tracked.faults_turn (h : Tracked s) (hturn : Turn s t message) (handler : Nat) :
    ∃ new,
      (lifeOf handler t.history).faults = (lifeOf handler s.history).faults ++ new ∧
      (∀ fault ∈ new, fault = .openedAgain ∨ fault = .receivedUnopened) ∧
      (Orderly s message → new = []) := by
  have hnothing : ∀ {life : Life}, life.faults = (lifeOf handler s.history).faults →
      ∃ new, life.faults = (lifeOf handler s.history).faults ++ new ∧
        (∀ fault ∈ new, fault = Fault.openedAgain ∨ fault = .receivedUnopened) ∧
        (Orderly s message → new = []) := fun hsame =>
          ⟨[], by rw [hsame, append_nil], by simp, fun _ => rfl⟩
  cases hturn with
  | grows message added _ _ _ _ _ _ _ _ hhistory =>
    rw [hhistory, lifeOf_append]
    refine hnothing ((faults_foldl_creations handler _ added _).trans ?_)
    cases message with
    | none => exact congrArg (fun history => (lifeOf handler history).faults) (append_nil _)
    | some message => exact faults_heard handler s.history message
  | closes message _ _ _ _ _ _ hhistory =>
    rw [hhistory]
    exact hnothing (faults_heard handler s.history message)
  | opens slot hslot _ _ _ _ hhistory =>
    rw [hhistory]
    by_cases htag : slot.handler.1 = handler
    · subst htag
      rw [h.lifeOf_opens hslot]
      refine ⟨_, rfl, fun fault hfault => ?_, fun horderly => ?_⟩
      · split at hfault
        · cases hfault
        · exact .inl (mem_singleton.mp hfault)
      · exact if_pos ((horderly slot hslot).1 rfl)
    · rw [lifeOf_opens_of_ne htag]
      exact hnothing (faults_heard handler s.history _)
  | takes slot data startsNew hslot _ _ _ _ _ hhistory =>
    rw [hhistory]
    by_cases htag : slot.handler.1 = handler
    · subst htag
      rw [h.lifeOf_takes (mem_of_find?_eq_some hslot)]
      refine ⟨_, rfl, fun fault hfault => ?_, fun horderly => ?_⟩
      · split at hfault
        · cases hfault
        · obtain ⟨_, -, rfl⟩ := mem_map.mp hfault
          exact .inr rfl
      · split
        · rfl
        · next hphase =>
          rw [map_eq_nil_iff]
          by_contra hcomplete
          exact hphase ((horderly slot (mem_of_find?_eq_some hslot)).2 data startsNew rfl hcomplete)
    · exact hnothing (congrArg Life.faults (lifeOf_takes_of_ne htag ..))

theorem Tracked.faults_of_not_orderly
    (h : Tracked s)
    (hturn : Turn s t message)
    (hbad : ¬ Orderly s message) : ∃ handler, (lifeOf handler t.history).faults ≠ [] := by
  unfold Orderly at hbad
  push Not at hbad
  obtain ⟨slot, hslot, hbad⟩ := hbad
  refine ⟨slot.handler.1, ?_⟩
  by_cases hresponse : message = some (.createResponse slot.id 0) ∧
      (lifeOf slot.handler.1 s.history).phase ≠ .requested slot.id
  · obtain ⟨rfl, hphase⟩ := hresponse
    rw [h.numbering.history_of_response hslot hturn, h.lifeOf_opens hslot, if_neg hphase]
    simp
  · obtain ⟨data, startsNew, rfl, hcomplete, hphase⟩ := hbad fun hmessage => by
      by_contra hphase
      exact hresponse ⟨hmessage, hphase⟩
    obtain ⟨-, -, hhistory⟩ := h.numbering.history_of_data hslot hturn
    rw [hhistory, h.lifeOf_takes hslot, if_neg hphase]
    simpa using fun _ => hcomplete

/-- Whatever a client sends, handlers are called only between the creation and the end of their
channels, and opened only on a success response. They are opened once, and get data only after
that, exactly when every message of the client fits the life of the handler it reaches. -/
theorem handlers_life_cycle (handlers : DvcHandlers η ω) (channelId userChannelId : UInt16)
    (world : ω) (schedule : List (Action η)) :
    Always (Endpoint.step handlers)
      (fun s => ∀ handler, ∀ fault ∈ (lifeOf handler s.history).faults,
         fault = .openedAgain ∨ fault = .receivedUnopened) (.start channelId userChannelId world)
      schedule ∧
    (Always (Endpoint.step handlers) (fun s => ∀ handler, (lifeOf handler s.history).faults = [])
       (.start channelId userChannelId world) schedule ↔
       Careful (Endpoint.step handlers) (fun s action => Orderly s (s.message action))
         (.start channelId userChannelId world) schedule) := by
  constructor
  · refine always_of_invariant (fun s => Tracked s ∧
      ∀ handler, ∀ fault ∈ (lifeOf handler s.history).faults,
      fault = .openedAgain ∨ fault = .receivedUnopened) (fun _ h => h.2) ?_ schedule
      ⟨tracked_start _ _ _, fun _ _ hfault => by cases hfault⟩
    rintro s action t ⟨htracked, hfaults⟩ hstep
    have hturn := turn_of_step hstep
    refine ⟨htracked.turn hturn, fun handler fault hfault => ?_⟩
    obtain ⟨new, heq, hnew, -⟩ := htracked.faults_turn hturn handler
    rw [heq, mem_append] at hfault
    exact hfault.elim (hfaults handler fault) (hnew fault)
  · refine always_iff_careful (fun s => Tracked s ∧ ∀ handler, (lifeOf handler s.history).faults = [])
      (fun _ h => h.2) ?_ ?_ schedule ⟨tracked_start _ _ _, fun _ => rfl⟩
    · rintro s action t ⟨htracked, hfaults⟩ horderly hstep
      have hturn := turn_of_step hstep
      refine ⟨htracked.turn hturn, fun handler => ?_⟩
      obtain ⟨new, heq, -, hnone⟩ := htracked.faults_turn hturn handler
      rw [heq, hfaults, hnone horderly, append_nil]
    · rintro s action ⟨htracked, -⟩ hbad
      obtain ⟨t, hstep⟩ : ∃ t, step handlers s action = some t := by
        cases action <;> exact ⟨_, rfl⟩
      obtain ⟨handler, hfault⟩ := htracked.faults_of_not_orderly (turn_of_step hstep) hbad
      exact ⟨t, hstep, fun hgood => hfault (hgood handler)⟩

/-- Data for a channel the client has not accepted yet, and a second success response. -/
theorem life_cycle_broken :
    ((exec (Endpoint.step silent) (.start 1005 1002 ())
        [.register (), inOneChunk [0x50, 0, 2, 0], inOneChunk [0x30, 1, 7],
          inOneChunk [0x10, 1, 0, 0, 0, 0], inOneChunk [0x10, 1, 0, 0, 0, 0]]).map fun s =>
       (lifeOf 0 s.history).faults) =
      some [.receivedUnopened, .openedAgain] := by
  decide +kernel

end Kmsrdp.Guarantees.HandlerLifeCycle
