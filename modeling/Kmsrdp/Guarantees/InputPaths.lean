import Mathlib.Data.Set.List
import Kmsrdp.Client.InputEvents

/-!
# Slow-path input against fast-path input

`decode_slowpath_input` matches on the event codes of the fast path: it takes a synchronize event
for a key press and a key event for a Unicode event, and stops at the first Unicode or mouse event
(`misread`).
-/
namespace Kmsrdp.Guarantees.InputPaths
open Library.ByteString Source.Pdu Source.Connector Source.Server.SlowPath List SendData
  Source.Server.SteadyState Source.Server.SharedInput Client.InputEvents

def keyPress (code : UInt8) : InputEvent := .scancode false false false code

def readable : InputEvent → Bool
  | .scancode .. | .sync .. => true
  | .unicode .. | .mouse .. => false

def mistaken : InputEvent → InputEvent
  | .sync toggles => keyPress toggles.byte
  | .scancode release _ _ code => .unicode release (UInt16.ofNat code.toNat)
  | .unicode release code => .unicode release code
  | .mouse pointerFlags x y => .mouse pointerFlags x y

def misread (events : List InputEvent) : List InputEvent := (events.takeWhile readable).map mistaken

theorem release_bit (release wasDown extended extended1 : Bool) :
    slowKeyboardFlags release wasDown extended extended1 < 65536 ∧
    unicodeFlags (slowKeyboardFlags release wasDown extended extended1) =
      fastKeyboardFlags release false false := by
  revert release wasDown extended extended1
  decide

variable {event : InputEvent}

theorem reads_slowPathEvent (stamp : Stamp) (h : readable event = true) :
    Reads decodeSlowpathEvent (slowPathEvent (stamp, event)) (some (mistaken event).fastPath) := by
  refine (reads_readU32Le stamp.eventTime.toNat_lt).bind ?_
  cases event with
  | unicode release code => cases h
  | mouse pointerFlags x y => cases h
  | sync toggles =>
    have htoggles : toggles.byte.toNat < 65536 := Nat.lt_trans toggles.byte.toNat_lt (by decide)
    have hsplit : u32Le toggles.byte.toNat = u16Le toggles.byte.toNat ++
        u16Le (toggles.byte.toNat / 65536) := by
      simp only [u32Le, u16Le, cons_append, nil_append, Nat.div_div_eq_div_mul]
    refine (reads_readU16Le (by decide : inputEventSync < 65536)).bind ?_
    show Reads (decodeSlowpathBody 0) (u16Le 0 ++ u32Le toggles.byte.toNat) _
    rw [hsplit]
    refine (reads_readU16Le (by decide)).bind ((reads_readU16Le htoggles).bind ?_)
    have hpad : toggles.byte.toNat / 65536 < 65536 := by omega
    have hread := (reads_readU16Le hpad).return fun _ =>
      some (FastPathInputEvent.scancode (scancodeFlags 0) (UInt8.ofNat toggles.byte.toNat))
    rw [UInt8.ofNat_toNat] at hread ⊢
    exact hread
  | scancode release extended extended1 code =>
    obtain ⟨hflags, hrelease⟩ := release_bit release stamp.wasDown extended extended1
    have hcode : code.toNat < 65536 := Nat.lt_trans code.toNat_lt (by decide)
    refine (reads_readU16Le (by decide : inputEventScancode < 65536)).bind ?_
    refine (reads_readU16Le hflags).bind ((reads_readU16Le hcode).bind ?_)
    rw [hrelease]
    exact (reads_readU16Le (by decide : 0 < 65536)).return fun _ =>
      some (FastPathInputEvent.unicode (fastKeyboardFlags release false false)
        (UInt16.ofNat code.toNat))

theorem decodeSlowpathEvent_of_unreadable (stamp : Stamp)
    (h : readable event = false)
    (rest : Bytes) :
    decodeSlowpathEvent (slowPathEvent (stamp, event) ++ rest) =
      .ok (none, event.slowPathData stamp.wasDown ++ rest) := by
  rw [decodeSlowpathEvent, slowPathEvent, append_assoc, append_assoc,
    bind_ok (reads_readU32Le stamp.eventTime.toNat_lt _)]
  cases event with
  | scancode release extended extended1 code => cases h
  | sync toggles => cases h
  | unicode release code => exact bind_ok (reads_readU16Le (by decide : inputEventUnicode < 65536) _)
  | mouse pointerFlags x y => exact bind_ok (reads_readU16Le (by decide : inputEventMouse < 65536) _)

open InputEvent

theorem decodeSlowpathEvents_eq (events : List (Stamp × InputEvent)) :
    ∃ left,
      decodeSlowpathEvents events.length (events.flatMap slowPathEvent) =
        .ok ((misread (events.map Prod.snd)).map fastPath, left) := by
  induction events with
  | nil => exact ⟨[], rfl⟩
  | cons event rest ih =>
    obtain ⟨stamp, event⟩ := event
    rw [length_cons, decodeSlowpathEvents, flatMap_cons, map_cons, misread, takeWhile_cons]
    cases hreadable : readable event with
    | false =>
      rw [bind_ok (decodeSlowpathEvent_of_unreadable stamp hreadable _)]
      exact ⟨_, rfl⟩
    | true =>
      obtain ⟨left, hrest⟩ := ih
      rw [bind_ok (reads_slowPathEvent stamp hreadable _)]
      exact ⟨left, bind_ok hrest⟩

theorem decodeSlowpathInput_slowPathBody {events : List (Stamp × InputEvent)}
    (h : events.length < 65536) :
    decodeSlowpathInput (slowPathBody events) =
      .ok ((misread (events.map Prod.snd)).map fastPath) := by
  obtain ⟨left, hevents⟩ := decodeSlowpathEvents_eq events
  rw [decodeSlowpathInput, decodeFrom, slowPathBody, bind_ok (readU16Le_of_lt h _),
    bind_ok (readU16Le_of_lt (by decide) _), hevents]
  rfl

def call (event : InputEvent) : Option HandlerCall := (dispatchInputEvent event.fastPath).map .input

theorem dispatchInputEvent_onWire (event : FastPathInputEvent) :
    dispatchInputEvent event.onWire = dispatchInputEvent event := by
  have hmask : ∀ flags mask : UInt8, 0x1F &&& mask = mask →
      (flags &&& 0x1F) &&& mask = flags &&& mask := by
    intro flags mask hmask
    rw [UInt8.and_assoc, hmask]
  cases event with
  | scancode flags code =>
    simp only [FastPathInputEvent.onWire, dispatchInputEvent, hmask flags keyRelease (by decide),
      hmask flags (keyExtended ||| keyExtended1) (by decide)]
  | mouse pointerFlags x y => rfl
  | sync flags => rfl
  | unicode flags code =>
    simp only [FastPathInputEvent.onWire, dispatchInputEvent, hmask flags keyRelease (by decide)]

variable (events : List InputEvent)

theorem inputCalls_fastPath : inputCalls (events.map fastPath) = events.filterMap call := by
  rw [inputCalls, filterMap_map]
  rfl

variable {events : List InputEvent}

theorem onFrame_fastPathUnit (s : Session) (channels : StaticChannels) (h : events.length ≤ 255) :
    s.onFrame channels (fastPathUnit events) =
      { s with calls := s.calls ++ events.filterMap call } := by
  rw [fastPathUnit, Session.onFrame, FastPathInput.decode_encode (by rwa [length_map])]
  dsimp only
  have hwire : inputCalls ((events.map fastPath).map FastPathInputEvent.onWire) =
      inputCalls (events.map fastPath) := by
    rw [inputCalls, filterMap_map, inputCalls]
    simp only [Function.comp_def, dispatchInputEvent_onWire]
  rw [Session.serve, requestCalls, hwire, inputCalls_fastPath]
  rfl

theorem onFrame_slowPathUnit (s : Session) (channels : StaticChannels) (sender : Sender)
    {events : List (Stamp × InputEvent)}
    (h : events.length ≤ 255) :
    s.onFrame channels (slowPathUnit sender events) =
      { s with calls := s.calls ++ (misread (events.map Prod.snd)).filterMap call } := by
  have hbody := length_slowPathBody events
  have hpdu : DataPdu.decode (slowPathPdu sender events).encode = .ok (slowPathPdu sender events) :=
    DataPdu.decode_encode sender.pduSource.toNat_lt sender.shareId.toNat_lt
      (by show (slowPathBody events).length + 18 < 65536; omega)
  have hlength : (slowPathPdu sender events).encode.length < 0x8000 := by
    show (writeDataControlHeader _ _ _ ++
        (ShareDataHeader.write _ _ ++ slowPathBody events)).length < 0x8000
    simp only [writeDataControlHeader, ShareDataHeader.write, length_append, length_u16Le, u32Le,
      length_cons, length_nil, hbody]
    omega
  have hreads : Reads decodeRequestFromCursor _ (mk sender.userChannelId.toNat ioChannelId
      (slowPathPdu sender events).encode true) :=
    reads_encode _ sender.userChannelId.toNat_lt (by decide : ioChannelId < 65536) hlength rfl
  have hrequest := frameRequest_of_reads channels hreads []
  rw [append_nil] at hrequest
  have hinput : ioRequest (slowPathPdu sender events).encode =
      some (.input ((misread (events.map Prod.snd)).map fastPath)) := by
    rw [ioRequest, hpdu]
    show ((decodeSlowpathInput (slowPathBody events)).toOption.map Request.input) = _
    rw [decodeSlowpathInput_slowPathBody (by omega)]
    rfl
  rw [requestOf, if_pos rfl, hinput] at hrequest
  rw [slowPathUnit, Session.onFrame, encodeRequest, hrequest]
  show s.serve _ = _
  rw [Session.serve, requestCalls, inputCalls_fastPath]
  rfl

def effective : InputEvent → Bool
  | .sync _ => false
  | .unicode release _ => !release
  | .scancode .. | .mouse .. => true

/-- The events that something else can be mistaken for. -/
def Plain (event : InputEvent) : Prop :=
  (∃ code, event = keyPress code) ∨ ∃ code, event = .unicode false code

theorem call_eq_none_iff (event : InputEvent) : call event = none ↔ effective event = false := by
  cases event with
  | scancode release extended extended1 code => simp [call, effective, fastPath, dispatchInputEvent]
  | unicode release code =>
    cases release <;> simp [call, effective, fastPath, dispatchInputEvent] <;> decide
  | mouse pointerFlags x y => simp [call, effective, fastPath, dispatchInputEvent]
  | sync toggles => simp [call, effective, fastPath, dispatchInputEvent]

theorem eq_keyPress_of_call {code : UInt8} (h : call event = call (keyPress code)) :
    event = keyPress code := by
  cases event with
  | scancode release extended extended1 other =>
    cases release <;> cases extended <;> cases extended1 <;> cases h
    rfl
  | unicode release other => cases release <;> cases h
  | mouse pointerFlags x y => cases h
  | sync toggles => cases h

theorem eq_unicode_of_call {code : UInt16} (h : call event = call (.unicode false code)) :
    event = .unicode false code := by
  cases event with
  | scancode release extended extended1 other =>
    cases release <;> cases extended <;> cases extended1 <;> cases h
  | unicode release other =>
    cases release <;> cases h
    rfl
  | mouse pointerFlags x y => cases h
  | sync toggles => cases h

theorem eq_of_call {plain : InputEvent} (hplain : Plain plain) (h : call event = call plain) :
    event = plain := by
  rcases hplain with ⟨code, rfl⟩ | ⟨code, rfl⟩
  · exact eq_keyPress_of_call h
  · exact eq_unicode_of_call h

theorem filterMap_call_filter :
    (events.filter effective).filterMap call = events.filterMap call := by
  induction events with
  | nil => rfl
  | cons event rest ih =>
    cases heffective : effective event with
    | false =>
      rw [filter_cons_of_neg (by simp [heffective]),
        filterMap_cons_none ((call_eq_none_iff event).mpr heffective), ih]
    | true => rw [filter_cons_of_pos heffective, filterMap_cons, filterMap_cons, ih]

theorem eq_of_filterMap_call {plain : List InputEvent}
    (heffective : ∀ e ∈ events, effective e = true)
    (hplain : ∀ e ∈ plain, Plain e ∧ effective e = true)
    (h : events.filterMap call = plain.filterMap call) : events = plain := by
  have hsome : ∀ {e}, effective e = true → ∃ c, call e = some c := fun {e} he =>
    Option.ne_none_iff_exists'.mp fun hnone => by rw [(call_eq_none_iff e).mp hnone] at he; cases he
  induction events generalizing plain with
  | nil =>
    cases plain with
    | nil => rfl
    | cons p plain =>
      obtain ⟨c, hc⟩ := hsome (hplain p mem_cons_self).2
      rw [filterMap_cons_some hc] at h
      cases h
  | cons e events ih =>
    obtain ⟨c, hc⟩ := hsome (heffective e mem_cons_self)
    rw [filterMap_cons_some hc] at h
    cases plain with
    | nil => cases h
    | cons p plain =>
      obtain ⟨hp, hpeffective⟩ := hplain p mem_cons_self
      obtain ⟨d, hd⟩ := hsome hpeffective
      rw [filterMap_cons_some hd] at h
      obtain ⟨hhead, htail⟩ := cons.inj h
      rw [eq_of_call hp (hc.trans (hhead ▸ hd.symm)),
        ih (fun x hx => heffective x (mem_cons_of_mem _ hx))
          (fun x hx => hplain x (mem_cons_of_mem _ hx)) htail]

theorem plain_of_effective_mistaken
    (hreadable : readable event = true)
    (h : effective (mistaken event) = true) : Plain (mistaken event) := by
  cases event with
  | sync toggles => exact .inl ⟨_, rfl⟩
  | scancode release extended extended1 code =>
    cases release with
    | false => exact .inr ⟨_, rfl⟩
    | true => cases h
  | unicode release code => cases hreadable
  | mouse pointerFlags x y => cases hreadable

theorem readable_of_mem_takeWhile (h : event ∈ events.takeWhile readable) : readable event = true :=
  all_eq_true.mp all_takeWhile event h

theorem plain_of_mem_misread (h : event ∈ (misread events).filter effective) :
    Plain event ∧ effective event = true := by
  obtain ⟨hmem, heffective⟩ := mem_filter.mp h
  obtain ⟨original, horiginal, rfl⟩ := mem_map.mp hmem
  exact ⟨plain_of_effective_mistaken (readable_of_mem_takeWhile horiginal) heffective, heffective⟩

theorem filterMap_call_misread_iff :
    (misread events).filterMap call = events.filterMap call ↔
      misread events = events.filter effective := by
  constructor
  · intro h
    have hfilter : events.filter effective = (misread events).filter effective := by
      refine eq_of_filterMap_call (fun e he => (mem_filter.mp he).2)
        (fun e he => plain_of_mem_misread he) ?_
      rw [filterMap_call_filter, filterMap_call_filter, h]
    rw [hfilter, eq_comm, filter_eq_self]
    -- a key release would be read as a Unicode release, but it has an effect of its own
    intro m hm
    obtain ⟨original, horiginal, rfl⟩ := mem_map.mp hm
    have hreadable := readable_of_mem_takeWhile horiginal
    cases original with
    | sync toggles => rfl
    | scancode release extended extended1 code =>
      have hmem :=
        mem_filter.mpr ⟨(takeWhile_sublist _).mem horiginal, (rfl : effective (.scancode release
        extended extended1 code) = true)⟩
      rw [hfilter] at hmem
      rcases (plain_of_mem_misread hmem).1 with ⟨other, hother⟩ | ⟨other, hother⟩
      · cases hother
        rfl
      · cases hother
    | unicode release code => cases hreadable
    | mouse pointerFlags x y => cases hreadable
  · intro h
    rw [h, filterMap_call_filter]

def SyncOrPress (event : InputEvent) : Prop :=
  (∃ toggles, event = .sync toggles) ∨ ∃ code, event = keyPress code

/-- The lists on which the misreading does not show. -/
def Coincides (events : List InputEvent) : Prop :=
  ∃ (syncs : List ToggleFlags) (middle back : List InputEvent),
    events = syncs.map .sync ++ (middle ++ back) ∧
    (∀ event ∈ middle, SyncOrPress event) ∧
    middle.filter effective = syncs.map (fun toggles => keyPress toggles.byte) ∧
    (∀ event ∈ back.head?, ∃ release code, event = .unicode release code) ∧
    back.filter effective = middle.map mistaken

theorem readable_of_syncOrPress (h : SyncOrPress event) : readable event = true := by
  rcases h with ⟨toggles, rfl⟩ | ⟨code, rfl⟩ <;> rfl

theorem filter_effective_syncs (syncs : List ToggleFlags) :
    (syncs.map sync).filter effective = [] := by
  rw [filter_eq_nil_iff]
  intro event hevent
  obtain ⟨toggles, -, rfl⟩ := mem_map.mp hevent
  exact Bool.false_ne_true

theorem misread_of_coincides (h : Coincides events) : misread events = events.filter effective := by
  obtain ⟨syncs, middle, back, rfl, hmiddle, hkeys, hback, hrest⟩ := h
  have hfront : ∀ event ∈ syncs.map sync ++ middle, readable event = true := by
    intro event hevent
    rcases mem_append.mp hevent with hsync | hmem
    · obtain ⟨toggles, -, rfl⟩ := mem_map.mp hsync
      rfl
    · exact readable_of_syncOrPress (hmiddle event hmem)
  have hstop : back.takeWhile readable = [] := by
    cases back with
    | nil => rfl
    | cons first back =>
      obtain ⟨release, code, rfl⟩ := hback first rfl
      rfl
  have hmisread : misread (syncs.map sync ++ (middle ++ back)) =
      (syncs.map sync ++ middle).map mistaken := by
    rw [misread, ← append_assoc, takeWhile_append_of_pos hfront, hstop, append_nil]
  rw [hmisread, map_append, filter_append, filter_append, filter_effective_syncs, hkeys, hrest,
    nil_append, map_map]
  rfl

theorem syncOrPress_of_misread
    (h : misread events = events.filter effective)
    (hevent : event ∈ events.takeWhile readable) : SyncOrPress event := by
  have hreadable := readable_of_mem_takeWhile hevent
  cases event with
  | sync toggles => exact .inl ⟨toggles, rfl⟩
  | scancode release extended extended1 code =>
    have hmem := mem_filter.mpr ⟨(takeWhile_sublist _).mem hevent,
      (rfl : effective (.scancode release extended extended1 code) = true)⟩
    rw [← h] at hmem
    obtain ⟨original, horiginal, heq⟩ := mem_map.mp hmem
    have hother := readable_of_mem_takeWhile horiginal
    cases original with
    | sync toggles => exact .inr ⟨toggles.byte, heq.symm⟩
    | scancode release extended extended1 code => cases heq
    | unicode release code => cases hother
    | mouse pointerFlags x y => cases hother
  | unicode release code => cases hreadable
  | mouse pointerFlags x y => cases hreadable

theorem exists_syncs {front keys : List InputEvent}
    (hfront : ∀ event ∈ front, SyncOrPress event)
    (hkeys : ∀ event ∈ keys, ∃ code, event = keyPress code)
    (h : front.map mistaken = keys) : ∃ syncs : List ToggleFlags, front = syncs.map .sync := by
  have hrange : front ∈ Set.range (map sync) := by
    rw [Set.range_list_map]
    intro event hevent
    rcases hfront event hevent with ⟨toggles, rfl⟩ | ⟨code, rfl⟩
    · exact ⟨toggles, rfl⟩
    · obtain ⟨other, hother⟩ := hkeys _ (h ▸ mem_map_of_mem hevent)
      cases hother
  obtain ⟨syncs, hsyncs⟩ := hrange
  exact ⟨syncs, hsyncs.symm⟩

theorem coincides_of_split {front back : List InputEvent}
    (hfront : ∀ event ∈ front, SyncOrPress event)
    (hback : ∀ event ∈ back.head?, ∃ release code, event = .unicode release code)
    (h : front.map mistaken = front.filter effective ++ back.filter effective) :
    Coincides (front ++ back) := by
  have hpressed : ∀ event ∈ front.filter effective, ∃ code, event = keyPress code := by
    intro event hevent
    obtain ⟨hmem, heffective⟩ := mem_filter.mp hevent
    rcases hfront event hmem with ⟨toggles, rfl⟩ | hpress
    · cases heffective
    · exact hpress
  generalize hkeys : front.filter effective = keys at h hpressed
  have htake : (front.take keys.length).map mistaken = keys := by rw [map_take, h, take_left]
  have hdrop : (front.drop keys.length).map mistaken = back.filter effective := by
    rw [map_drop, h, drop_left]
  obtain ⟨syncs, hsyncs⟩ :=
    exists_syncs (fun event hevent => hfront event (mem_of_mem_take hevent)) hpressed htake
  have hsplit := take_append_drop keys.length front
  rw [hsyncs] at hsplit htake
  refine ⟨syncs, front.drop keys.length, back, ?_, ?_, ?_, hback, hdrop.symm⟩
  · rw [← append_assoc, hsplit]
  · exact fun event hevent => hfront event (mem_of_mem_drop hevent)
  · rw [← hsplit, filter_append, filter_effective_syncs, nil_append] at hkeys
    rw [hkeys, ← htake, map_map]
    rfl

theorem coincides_of_misread (h : misread events = events.filter effective) : Coincides events := by
  have hsplit : events.takeWhile readable ++ events.dropWhile readable = events :=
    takeWhile_append_dropWhile
  have hread : (events.takeWhile readable).map mistaken =
      (events.takeWhile readable).filter effective ++ (events.dropWhile readable).filter effective := by
    rw [← filter_append, hsplit]
    exact h
  rw [← hsplit]
  refine coincides_of_split (fun _ => syncOrPress_of_misread h) ?_ hread
  intro event hevent
  have hstop := head?_dropWhile_not readable events
  rw [Option.mem_def.mp hevent] at hstop
  cases event with
  | unicode release code => exact ⟨release, code, rfl⟩
  | scancode release extended extended1 code => cases hstop
  | sync toggles => cases hstop
  | mouse pointerFlags x y =>
    -- a mouse event calls a handler, and nothing is mistaken for one
    have hmem : mouse pointerFlags x y ∈ events :=
      (dropWhile_sublist _).mem (mem_of_mem_head? hevent)
    have hmisread : mouse pointerFlags x y ∈ misread events := h ▸ mem_filter.mpr ⟨hmem, rfl⟩
    obtain ⟨original, horiginal, heq⟩ := mem_map.mp hmisread
    have hreadable := readable_of_mem_takeWhile horiginal
    cases original with
    | sync toggles => cases heq
    | scancode release extended extended1 code => cases heq
    | unicode release code => cases hreadable
    | mouse pointerFlags x y => cases hreadable

/-- A slow-path input PDU has the effect of the fast-path PDU with the same events exactly on the
lists on which the misreading does not show. A fast-path PDU has at most 255 events. -/
theorem slow_path_input_iff (channels : StaticChannels) (s : Session) (sender : Sender)
    (events : List (Stamp × InputEvent))
    (hcount : events.length ≤ 255) :
    s.onFrame channels (slowPathUnit sender events) =
      s.onFrame channels (fastPathUnit (events.map Prod.snd)) ↔
      Coincides (events.map Prod.snd) := by
  rw [onFrame_slowPathUnit s channels sender hcount,
    onFrame_fastPathUnit s channels (by rwa [length_map])]
  rw [Session.mk.injEq, append_cancel_left_eq]
  simp only [true_and]
  rw [filterMap_call_misread_iff]
  exact ⟨coincides_of_misread, misread_of_coincides⟩

def someSender : Sender := ⟨1002, 0x103EA, 1002, 1⟩

def letterA : List (Stamp × InputEvent) := [(⟨0, false⟩, keyPress 0x1E)]

theorem slow_path_input_iff_letterA :
    letterA.length ≤ 255 ∧
    (Session.onFrame ⟨true, []⟩ ⟨none, none, none, none⟩ (slowPathUnit someSender letterA) =
       Session.onFrame ⟨true, []⟩ ⟨none, none, none, none⟩ (fastPathUnit (letterA.map Prod.snd)) ↔
       Coincides (letterA.map Prod.snd)) :=
  ⟨by decide, slow_path_input_iff _ _ _ _ (by decide)⟩

/-- The slow path types the character U+001E instead. -/
theorem slow_path_types_another_character :
    Session.onFrame ⟨true, []⟩ ⟨none, none, none, none⟩ (slowPathUnit someSender letterA) =
      ⟨true, [.input (.keyboard (.unicodePressed 0x1E))]⟩ ∧
    Session.onFrame ⟨true, []⟩ ⟨none, none, none, none⟩ (fastPathUnit (letterA.map Prod.snd)) =
      ⟨true, [.input (.keyboard (.pressed 0x1E false))]⟩ := by
  constructor <;> rfl

end Kmsrdp.Guarantees.InputPaths
