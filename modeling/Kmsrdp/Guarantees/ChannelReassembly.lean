import Kmsrdp.Guarantees.HandlerHistory

/-!
# Reassembly on dynamic channels against a reference

The reference sends the data messages of a channel through `Reassembly.feedWithin`: a first fragment
replaces the message in progress, and one that is too large leaves none.
-/
namespace Kmsrdp.Guarantees.ChannelReassembly
open Library.ByteString Library.Execution Library.Reassembly Source.Dvc Guarantees.HandlerHistory
  List DvcMux
  Endpoint Nat
variable {η ω : Type}

structure Reference where
  channel : Option Nat
  progress : InProgress UInt8
  delivered : List Bytes

def fragmentOf : ClientMessage → Option (Nat × Fragment UInt8)
  | .data channelId data => some (channelId, .more data)
  | .dataFirst channelId totalLength data => some (channelId, .first totalLength data)
  | _ => none

def Reference.take (r : Reference) (fragment : Fragment UInt8) : Reference :=
  let fed := feedWithin maxDvcMessageSize r.progress fragment
  { r with progress := fed.2, delivered := r.delivered ++ fed.1 }

def Reference.hear (r : Reference) (message : ClientMessage) : Reference :=
  match r.channel with
  | none => r
  | some channelId =>
    if DvcMux.closes message = some channelId then { r with channel := none, progress := none }
    else
      match fragmentOf message with
      | some (id, fragment) => if id = channelId then r.take fragment else r
      | none => r

def refer (handler : Nat) (r : Reference) : Event → Reference
  | .heard message => r.hear message
  | .created tag channelId =>
    if tag = handler then { r with channel := some channelId, progress := none } else r
  | _ => r

def referenceOf (handler : Nat) (history : List Event) : Reference :=
  history.foldl (refer handler) ⟨none, none, []⟩

def deliveredBy (handler : Nat) : Event → Option Bytes
  | .received tag data => if tag = handler then some data else none
  | _ => none

def deliveredTo (handler : Nat) (history : List Event) : List Bytes :=
  history.filterMap (deliveredBy handler)

/-- Every handler has got what the reference delivers, and every open channel has the message in
progress that the reference has. -/
structure Agrees (s : Endpoint η ω) : Prop where
  delivered : ∀ handler, deliveredTo handler s.history = (referenceOf handler s.history).delivered
  progress : ∀ slot ∈ s.mux.channels, slot.reassembly = (referenceOf slot.handler.1 s.history).progress

/-- A DataFirst PDU that comes while a message is in progress starts one that it does not complete
and that is not too large. -/
def RestartsInFull (s : Endpoint η ω) (message : Option ClientMessage) : Prop :=
  ∀ slot ∈ s.mux.channels, slot.reassembly ≠ none → ∀ totalLength data,
    message = some (.dataFirst slot.id totalLength data) →
      totalLength ≤ maxDvcMessageSize ∧ data.length < totalLength

def fragmentFrom (data : Bytes) : Option Nat → Fragment UInt8
  | none => .more data
  | some totalLength => .first totalLength data

theorem mod_of_le_max {n : Nat} (h : n ≤ maxDvcMessageSize) : n % 2 ^ 32 = n :=
  mod_eq_of_lt (lt_of_le_of_lt h (by decide))

theorem assemble_eq_feedWithin {reassembly : Option (Nat × Bytes)} {data : Bytes}
    {startsNew : Option Nat}
    (hdata : data.length ≤ maxDvcMessageSize)
    (hrestart : reassembly ≠ none →
        ∀ totalLength, startsNew = some totalLength →
          totalLength ≤ maxDvcMessageSize ∧ data.length < totalLength) :
    (delivered (assemble reassembly data startsNew).1, (assemble reassembly data startsNew).2) =
      feedWithin maxDvcMessageSize reassembly (fragmentFrom data startsNew) := by
  cases startsNew with
  | none =>
    cases reassembly with
    | none => rfl
    | some progress =>
      by_cases hlarge : maxDvcMessageSize < progress.2.length + data.length
      · rw [fragmentFrom, feedWithin_of_lt hlarge, assemble]
        simp only [if_pos hlarge]
        rfl
      · have hwide := mod_of_le_max (n := (progress.2 ++ data).length)
          (by rw [length_append]; exact not_lt.mp hlarge)
        rw [fragmentFrom, feedWithin_of_le (not_lt.mp hlarge), assemble]
        simp only [if_neg hlarge, hwide, feed, settle]
        split <;> rfl
  | some totalLength =>
    by_cases hlarge : maxDvcMessageSize < totalLength
    · have hidle : reassembly = none := by
        by_contra hbusy
        exact not_le.mpr hlarge (hrestart hbusy totalLength rfl).1
      rw [fragmentFrom, feedWithin_of_lt hlarge, assemble, hidle]
      simp only [if_pos hlarge]
      rfl
    · rw [fragmentFrom, feedWithin_of_le (not_lt.mp hlarge), assemble]
      simp only [if_neg hlarge, mod_of_le_max hdata, feed, settle]
      by_cases hcomplete : totalLength ≤ data.length
      · have hidle : reassembly = none := by
          by_contra hbusy
          exact not_lt.mpr hcomplete (hrestart hbusy totalLength rfl).2
        simp only [if_pos hcomplete, hidle]
        rfl
      · simp only [if_neg hcomplete]
        rfl

theorem assemble_keeps (progress : Nat × Bytes) {data : Bytes} {totalLength : Nat}
    (hdata : data.length ≤ maxDvcMessageSize)
    (hbad : ¬ (totalLength ≤ maxDvcMessageSize ∧ data.length < totalLength)) :
    (assemble (some progress) data (some totalLength)).2 = some progress ∧
    (feedWithin maxDvcMessageSize (some progress) (.first totalLength data)).2 = none := by
  by_cases hlarge : maxDvcMessageSize < totalLength
  · rw [feedWithin_of_lt hlarge, assemble]
    simp only [if_pos hlarge, and_self]
  · have hcomplete : totalLength ≤ data.length := by
      by_contra hopen
      exact hbad ⟨Nat.not_lt.mp hlarge, Nat.lt_of_not_le hopen⟩
    rw [feedWithin_of_le (not_lt.mp hlarge), assemble]
    simp only [if_neg hlarge, mod_of_le_max hdata, feed, settle, if_pos hcomplete, and_self]

variable (handler : Nat)

theorem referenceOf_append (history more : List Event) :
    referenceOf handler (history ++ more) =
      more.foldl (refer handler) (referenceOf handler history) :=
  foldl_append

theorem referenceOf_heard (history : List Event) (message : ClientMessage) :
    referenceOf handler (history ++ [.heard message]) =
      (referenceOf handler history).hear message :=
  referenceOf_append handler history [.heard message]

theorem deliveredTo_append (history more : List Event) :
    deliveredTo handler (history ++ more) =
      deliveredTo handler history ++ deliveredTo handler more :=
  filterMap_append

variable {r : Reference} {message : ClientMessage}

theorem hear_of_target_ne
    (h : ∀ channelId, r.channel = some channelId → target message ≠ some channelId) :
    r.hear message = r := by
  unfold Reference.hear
  split
  · rfl
  · next channelId hchannel =>
    have hne := h channelId hchannel
    rw [if_neg fun hcloses => hne (target_of_closes hcloses)]
    cases message with
    | data id data => exact if_neg fun heq : id = channelId => hne (congrArg some heq)
    | dataFirst id totalLength data => exact if_neg fun heq : id = channelId => hne (congrArg some heq)
    | _ => rfl

theorem hear_response (r : Reference) (channelId : Nat) :
    r.hear (.createResponse channelId 0) = r := by
  unfold Reference.hear
  split
  · rfl
  · simp [closes, fragmentOf]

variable {channelId : Nat}

theorem hear_data (hchannel : r.channel = some channelId) (data : Bytes) (startsNew : Option Nat) :
    r.hear (dataMessage channelId data startsNew) = r.take (fragmentFrom data startsNew) := by
  unfold Reference.hear
  cases startsNew <;> simp [hchannel, dataMessage, closes, fragmentOf, fragmentFrom]

theorem hear_close
    (hchannel : r.channel = some channelId)
    (hcloses : closes message = some channelId) :
    r.hear message = { r with channel := none, progress := none } := by
  unfold Reference.hear
  simp only [hchannel, hcloses, if_true]

theorem refer_created_of_ne {handler : Nat} (r : Reference) (tag channelId : Nat)
    (h : tag ≠ handler) : refer handler r (.created tag channelId) = r := if_neg h

theorem foldl_received (handler tag : Nat) (messages : List Bytes) (r : Reference) :
    (messages.map (.received tag)).foldl (refer handler) r = r := by
  induction messages with
  | nil => rfl
  | cons message rest ih => exact ih

theorem deliveredTo_received (messages : List Bytes) :
    deliveredTo handler (messages.map (.received handler)) = messages := by
  induction messages with
  | nil => rfl
  | cons message rest ih =>
    have hfirst : deliveredBy handler (.received handler message) = some message := if_pos rfl
    rw [map_cons, deliveredTo, filterMap_cons, hfirst]
    exact congrArg _ ih

theorem deliveredTo_received_of_ne {handler tag : Nat} (h : tag ≠ handler) (messages : List Bytes) :
    deliveredTo handler (messages.map (.received tag)) = [] := by
  rw [deliveredTo, filterMap_eq_nil_iff]
  intro event hevent
  obtain ⟨message, -, rfl⟩ := mem_map.mp hevent
  exact if_neg h

theorem deliveredTo_creations (handler next : Nat) (added : List (Nat × η)) :
    deliveredTo handler (creations next added) = [] := by
  rw [deliveredTo, filterMap_eq_nil_iff]
  intro event hevent
  obtain ⟨entry, -, rfl⟩ := mem_map.mp hevent
  rfl

theorem deliveredTo_heard (messages : List ClientMessage) :
    deliveredTo handler (messages.map .heard) = [] := by
  rw [deliveredTo, filterMap_eq_nil_iff]
  intro event hevent
  obtain ⟨message, -, rfl⟩ := mem_map.mp hevent
  rfl

/-- Besides agreement: the reference has the channel of a handler as the mux has it. -/
structure Followed (s : Endpoint η ω) : Prop where
  numbering : Numbering s
  agrees : Agrees s
  channel : ∀ slot ∈ s.mux.channels, (referenceOf slot.handler.1 s.history).channel = some slot.id
  known : ∀ handler channelId, (referenceOf handler s.history).channel = some channelId →
    ∃ slot ∈ s.mux.channels, slot.handler.1 = handler ∧ slot.id = channelId

theorem followed_start (channelId userChannelId : UInt16) (world : ω) :
    Followed (.start channelId userChannelId world : Endpoint η ω) where
  numbering := numbering_start channelId userChannelId world
  agrees := ⟨fun _ => rfl, fun _ h => by cases h⟩
  channel := fun _ h => by cases h
  known := fun _ _ h => by cases h

variable {s t : Endpoint η ω}
section
variable (h : Followed s)
include h

theorem Followed.referenceOf_untargeted {message : Option ClientMessage}
    (htarget : ∀ channelId, message.bind target = some channelId → s.mux.findSlot channelId = none)
    (handler : Nat) :
    referenceOf handler (s.history ++ message.toList.map .heard) =
      referenceOf handler s.history := by
  cases message with
  | none => exact congrArg _ (append_nil _)
  | some message =>
    refine (referenceOf_heard handler s.history message).trans
      (hear_of_target_ne fun channelId hchannel hsame => ?_)
    obtain ⟨slot, hslot, -, rfl⟩ := h.known handler channelId hchannel
    cases (findSlot_of_mem h.numbering hslot).symm.trans (htarget slot.id hsame)

section
variable (ht : Numbering t)
include ht

theorem Followed.of_quiet
    (hchannels : t.mux.channels = s.mux.channels)
    (hdelivered : ∀ handler, deliveredTo handler t.history = deliveredTo handler s.history)
    (hreference : ∀ handler, referenceOf handler t.history = referenceOf handler s.history) :
    Followed t where
  numbering := ht
  agrees :=
    { delivered := fun handler => by rw [hdelivered, hreference, h.agrees.delivered]
      progress := fun slot hslot => by
        rw [hreference]; exact h.agrees.progress slot (hchannels ▸ hslot) }
  channel := fun slot hslot => by rw [hreference]; exact h.channel slot (hchannels ▸ hslot)
  known := fun handler channelId hknown => by
    rw [hreference] at hknown
    rw [hchannels]
    exact h.known handler channelId hknown

theorem Followed.opens {slot : ChannelSlot (Nat × η)}
    (hchannels : t.mux.channels = s.mux.channels)
    (hhistory :
      t.history = s.history ++ [.heard (.createResponse slot.id 0), .opened slot.handler.1]) :
    Followed t := by
  refine h.of_quiet ht hchannels (fun handler => ?_) fun handler => ?_
  · rw [hhistory, deliveredTo_append]
    exact append_nil _
  · rw [hhistory, append_cons, referenceOf_append, referenceOf_heard, hear_response]
    rfl

theorem Followed.closes
    (hcloses : closes message = some channelId)
    (hchannels : t.mux.channels = s.mux.channels.filter fun slot => slot.id ≠ channelId)
    (hhistory : t.history = s.history ++ [.heard message]) : Followed t := by
  have hreference : ∀ handler, referenceOf handler t.history =
      (referenceOf handler s.history).hear message :=
    fun handler => hhistory ▸ referenceOf_heard handler s.history message
  have hkept : ∀ {handler}, (referenceOf handler s.history).channel ≠ some channelId →
      referenceOf handler t.history = referenceOf handler s.history := by
    intro handler hne
    refine (hreference handler).trans (hear_of_target_ne fun id hid hsame => hne ?_)
    rw [target_of_closes hcloses] at hsame
    rw [hid, hsame]
  have hended : ∀ {handler}, (referenceOf handler s.history).channel = some channelId →
      referenceOf handler t.history =
        { referenceOf handler s.history with channel := none, progress := none } :=
    fun hchannel => (hreference _).trans (hear_close hchannel hcloses)
  have hstays : ∀ slot ∈ t.mux.channels, slot ∈ s.mux.channels ∧
      referenceOf slot.handler.1 t.history = referenceOf slot.handler.1 s.history := by
    intro slot hslot
    rw [hchannels, mem_filter, decide_eq_true_eq] at hslot
    refine ⟨hslot.1, hkept ?_⟩
    rw [h.channel slot hslot.1]
    exact fun heq => hslot.2 (Option.some.inj heq)
  refine ⟨ht, ⟨fun handler => ?_, fun slot hslot => ?_⟩, fun slot hslot => ?_, fun handler id hid => ?_⟩
  · have hsame : (referenceOf handler t.history).delivered =
        (referenceOf handler s.history).delivered := by
      by_cases hchannel : (referenceOf handler s.history).channel = some channelId
      · rw [hended hchannel]
      · rw [hkept hchannel]
    rw [hsame, ← h.agrees.delivered, hhistory, deliveredTo_append]
    exact append_nil _
  · obtain ⟨hold, hsame⟩ := hstays slot hslot
    rw [hsame]
    exact h.agrees.progress slot hold
  · obtain ⟨hold, hsame⟩ := hstays slot hslot
    rw [hsame]
    exact h.channel slot hold
  · by_cases hchannel : (referenceOf handler s.history).channel = some channelId
    · rw [hended hchannel] at hid
      cases hid
    · rw [hkept hchannel] at hid
      obtain ⟨slot, hslot, htag, rfl⟩ := h.known handler id hid
      refine ⟨slot, ?_, htag, rfl⟩
      rw [hchannels, mem_filter, decide_eq_true_eq]
      exact ⟨hslot, fun heq => hchannel (heq ▸ hid)⟩

theorem Followed.grows {message : Option ClientMessage} {added : List (Nat × η)}
    {coming : List Nat}
    (htarget : ∀ channelId, message.bind target = some channelId → s.mux.findSlot channelId = none)
    (hchannels : t.mux.channels = s.mux.channels ++ slotsFrom s.mux.nextDynamicId added)
    (hcoming : ∀ tag ∈ coming, s.registered ≤ tag ∧ tag < t.registered)
    (htags : t.tags.Perm (s.tags ++ coming))
    (hhistory :
      t.history = s.history ++ message.toList.map .heard ++ creations s.mux.nextDynamicId added) :
    Followed t := by
  have hreference : ∀ handler, referenceOf handler t.history =
      (creations s.mux.nextDynamicId added).foldl (refer handler) (referenceOf handler s.history) := by
    intro handler
    rw [hhistory, referenceOf_append, h.referenceOf_untargeted htarget]
  have hkept : ∀ {handler}, handler ∉ added.map Prod.fst →
      referenceOf handler t.history = referenceOf handler s.history := fun hnot =>
    (hreference _).trans (foldl_creations_of_notMem refer_created_of_ne hnot _ _)
  have hcreated : ∀ {slot}, slot ∈ slotsFrom s.mux.nextDynamicId added →
      referenceOf slot.handler.1 t.history =
        { referenceOf slot.handler.1 s.history with channel := some slot.id, progress := none } :=
          fun hslot =>
    (hreference _).trans
    ((foldl_creations_of_mem refer_created_of_ne (ht.nodup_added hchannels) hslot rfl _).trans
        (if_pos rfl))
  have hnew : ∀ {handler}, handler ∈ added.map Prod.fst →
      ∃ slot ∈ slotsFrom s.mux.nextDynamicId added, slot.handler.1 = handler := by
    intro handler hadded
    rw [← map_handler_slotsFrom s.mux.nextDynamicId] at hadded
    exact mem_map.mp hadded
  have hold : ∀ {slot}, slot ∈ s.mux.channels → slot.handler.1 ∉ added.map Prod.fst :=
    fun hslot hadded =>
    h.numbering.not_waits hslot (ht.waits_of_added hchannels hcoming htags hadded)
  refine ⟨ht, ⟨fun handler => ?_, fun slot hslot => ?_⟩, fun slot hslot => ?_, fun handler id hid => ?_⟩
  · have hsame : (referenceOf handler t.history).delivered =
        (referenceOf handler s.history).delivered := by
      by_cases hadded : handler ∈ added.map Prod.fst
      · obtain ⟨slot, hslot, rfl⟩ := hnew hadded
        rw [hcreated hslot]
      · rw [hkept hadded]
    rw [hsame, ← h.agrees.delivered, hhistory, deliveredTo_append, deliveredTo_append,
      deliveredTo_heard, deliveredTo_creations, append_nil, append_nil]
  · rcases mem_append.mp (hchannels ▸ hslot) with hslot | hslot
    · rw [hkept (hold hslot)]
      exact h.agrees.progress slot hslot
    · rw [hcreated hslot]
      obtain ⟨entry, -, rfl⟩ := mem_map.mp hslot
      rfl
  · rcases mem_append.mp (hchannels ▸ hslot) with hslot | hslot
    · rw [hkept (hold hslot)]
      exact h.channel slot hslot
    · rw [hcreated hslot]
  · rw [hchannels]
    by_cases hadded : handler ∈ added.map Prod.fst
    · obtain ⟨slot, hslot, rfl⟩ := hnew hadded
      rw [hcreated hslot] at hid
      exact ⟨slot, mem_append_right _ hslot, rfl, Option.some.inj hid⟩
    · rw [hkept hadded] at hid
      obtain ⟨slot, hslot, htag⟩ := h.known handler id hid
      exact ⟨slot, mem_append_left _ hslot, htag⟩

end
end
section Data
variable {called : ChannelSlot (Nat × η)} {data : Bytes} {startsNew : Option Nat}

theorem Followed.referenceOf_takes (h : Followed s) (hcalled : called ∈ s.mux.channels)
    (hhistory : t.history = s.history ++ .heard (dataMessage called.id data startsNew) ::
      (delivered (assemble called.reassembly data startsNew).1).map (.received called.handler.1))
    (handler : Nat) :
    referenceOf handler t.history =
      if handler = called.handler.1
        then (referenceOf handler s.history).take (fragmentFrom data startsNew)
      else referenceOf handler s.history := by
  rw [hhistory, append_cons, referenceOf_append, foldl_received, referenceOf_heard]
  split
  · next heq =>
    subst heq
    exact hear_data (h.channel called hcalled) data startsNew
  · next hne =>
    refine hear_of_target_ne fun channelId hchannel hsame => hne ?_
    obtain ⟨slot, hslot, htag, rfl⟩ := h.known handler channelId hchannel
    have hid : slot.id = called.id := by
      cases startsNew <;> exact (Option.some.inj hsame).symm
    rw [← htag, h.numbering.eq_of_id hslot hcalled hid]

theorem Followed.takes
    (h : Followed s)
    (ht : Numbering t)
    (hcalled : called ∈ s.mux.channels)
    (hdata : data.length ≤ maxDvcMessageSize)
    (hchannels : t.mux.channels =
        setReassembly called.id (assemble called.reassembly data startsNew).2 s.mux.channels)
    (hhistory : t.history =
        s.history ++ .heard (dataMessage called.id data startsNew) ::
          (delivered (assemble called.reassembly data startsNew).1).map
            (.received called.handler.1))
    (hrestart : called.reassembly ≠ none →
        ∀ totalLength, startsNew = some totalLength →
          totalLength ≤ maxDvcMessageSize ∧ data.length < totalLength) : Followed t := by
  have hreference := h.referenceOf_takes hcalled hhistory
  have hfed := assemble_eq_feedWithin hdata hrestart
  rw [h.agrees.progress called hcalled] at hfed
  have hown : referenceOf called.handler.1 t.history =
      (referenceOf called.handler.1 s.history).take (fragmentFrom data startsNew) :=
    (hreference _).trans (if_pos rfl)
  have hothers : ∀ {handler}, handler ≠ called.handler.1 →
      referenceOf handler t.history = referenceOf handler s.history := fun hne =>
    (hreference _).trans (if_neg hne)
  have hchannel : ∀ handler, (referenceOf handler t.history).channel =
      (referenceOf handler s.history).channel := by
    intro handler
    rw [hreference]
    split <;> rfl
  refine ⟨ht, ⟨fun handler => ?_, fun slot hslot => ?_⟩, fun slot hslot => ?_, fun handler id hid => ?_⟩
  · by_cases hsame : handler = called.handler.1
    · subst hsame
      rw [hown, hhistory, append_cons, deliveredTo_append, deliveredTo_append, deliveredTo_received,
        h.agrees.delivered, Reference.take, ← hfed, ← h.agrees.progress called hcalled]
      exact congrArg (· ++ _) (append_nil _)
    · rw [hothers hsame, ← h.agrees.delivered, hhistory, append_cons, deliveredTo_append,
        deliveredTo_append, deliveredTo_received_of_ne (Ne.symm hsame), append_nil]
      exact append_nil _
  · rw [hchannels] at hslot
    rcases mem_setReassembly h.numbering.ids hslot with ⟨hold, hne⟩ | ⟨old, hold, hid, rfl⟩
    · have htag : slot.handler.1 ≠ called.handler.1 := fun heq =>
        hne (congrArg ChannelSlot.id (h.numbering.eq_of_tag hold hcalled heq))
      rw [hothers htag]
      exact h.agrees.progress slot hold
    · cases h.numbering.eq_of_id hold hcalled hid
      rw [hown, Reference.take, ← hfed, ← h.agrees.progress called hcalled]
  · rw [hchannels] at hslot
    obtain ⟨old, hold, hid, hhandler⟩ := exists_of_mem_setReassembly hslot
    rw [hchannel, ← hhandler, ← hid]
    exact h.channel old hold
  · rw [hchannel] at hid
    obtain ⟨slot, hslot, htag, rfl⟩ := h.known handler id hid
    have hmem : slot.handler.1 ∈ t.mux.channels.map fun slot => slot.handler.1 := by
      rw [hchannels, map_handler_setReassembly]
      exact mem_map.mpr ⟨slot, hslot, rfl⟩
    obtain ⟨kept, hkept, heq⟩ := mem_map.mp hmem
    refine ⟨kept, hkept, heq.trans htag, ?_⟩
    obtain ⟨old, hold, hid', hhandler⟩ := exists_of_mem_setReassembly (hchannels ▸ hkept)
    rw [← hid', h.numbering.eq_of_tag hold hslot (by rw [hhandler]; exact heq)]

end Data

theorem Followed.turn {message : Option ClientMessage}
    (h : Followed s)
    (hturn : Turn s t message)
    (hrestart : RestartsInFull s message) : Followed t := by
  have ht := h.numbering.turn hturn
  cases hturn with
  | grows _ added coming htarget hchannels _ hcoming _ _ htags hhistory =>
    exact h.grows ht htarget hchannels hcoming htags hhistory
  | closes message channelId hcloses hchannels _ _ _ hhistory =>
    exact h.closes ht hcloses hchannels hhistory
  | opens slot _ hchannels _ _ _ hhistory => exact h.opens ht hchannels hhistory
  | takes slot data startsNew hslot hdata hchannels _ _ _ hhistory =>
    have hmem := mem_of_find?_eq_some hslot
    refine h.takes ht hmem hdata hchannels hhistory fun hbusy totalLength hstarts => ?_
    exact hrestart slot hmem hbusy totalLength data (by rw [hstarts]; rfl)

theorem Followed.not_agrees {message : Option ClientMessage}
    (h : Followed s)
    (hturn : Turn s t message)
    (hbad : ¬ RestartsInFull s message) : ¬ Agrees t := by
  unfold RestartsInFull at hbad
  push Not at hbad
  obtain ⟨slot, hslot, hbusy, totalLength, data, rfl, hcomplete⟩ := hbad
  obtain ⟨progress, hprogress⟩ := Option.ne_none_iff_exists'.mp hbusy
  have hdataTurn : Turn s t (some (dataMessage slot.id data (some totalLength))) := hturn
  obtain ⟨hchannels, hdata, hhistory⟩ := h.numbering.history_of_data hslot hdataTurn
  obtain ⟨hkeeps, hgone⟩ :=
    assemble_keeps progress hdata fun hfull => not_lt.mpr (hcomplete hfull.1) hfull.2
  intro hagrees
  have hstale := hagrees.progress _ (hchannels ▸ mem_setReassembly_self h.numbering.ids hslot)
  rw [h.referenceOf_takes hslot hhistory, if_pos rfl, hprogress] at hstale
  have hreference : (referenceOf slot.handler.1 s.history).progress = some progress :=
    (h.agrees.progress slot hslot).symm.trans hprogress
  rw [Reference.take, hreference] at hstale
  cases hkeeps.symm.trans (hstale.trans hgone)

/-- Along any sequence of actions, the handlers get the messages of the reference and the channels
have its messages in progress exactly when no DataFirst PDU inside an unfinished message is
complete at once or too large. -/
theorem channel_reassembly_reference (handlers : DvcHandlers η ω)
    (channelId userChannelId : UInt16) (world : ω) (schedule : List (Action η)) :
    Always (Endpoint.step handlers) Agrees (.start channelId userChannelId world) schedule ↔
      Careful (Endpoint.step handlers) (fun s action => RestartsInFull s (s.message action))
        (.start channelId userChannelId world) schedule := by
  refine always_iff_careful Followed (fun _ h => h.agrees) (fun s action t h hrestart hstep => ?_)
    (fun s action h hbad => ?_) schedule (followed_start channelId userChannelId world)
  · exact h.turn (turn_of_step hstep) hrestart
  · obtain ⟨t, hstep⟩ : ∃ t, step handlers s action = some t := by
      cases action <;> exact ⟨_, rfl⟩
    exact ⟨t, hstep, h.not_agrees (turn_of_step hstep) hbad⟩

/-- Three of ten bytes, a complete message of two bytes, and a message of one byte: the last one is
taken for the rest of the first. -/
theorem stale_message_continued :
    ((exec (Endpoint.step silent) (.start 1005 1002 ())
        [.register (), inOneChunk [0x50, 0, 2, 0], inOneChunk [0x10, 1, 0, 0, 0, 0],
          inOneChunk [0x20, 1, 10, 97, 98, 99], inOneChunk [0x20, 1, 2, 120, 121],
          inOneChunk [0x30, 1, 122]]).map fun s =>
       (deliveredTo 0 s.history, (referenceOf 0 s.history).delivered)) =
      some ([[120, 121]], [[120, 121], [122]]) := by
  decide +kernel

end Kmsrdp.Guarantees.ChannelReassembly
