import Kmsrdp.Library.Execution
import Kmsrdp.Library.Holders
import Kmsrdp.Source.Server.SharedInput

/-!
# What is down on the shared input device

A key or a button should be down exactly when some connected session holds it; a key of several
scancodes is held as long as one of them is.
-/
namespace Kmsrdp.Guarantees.InputHolds
open Library.Execution Library.Holders Source.Server.SharedInput List Function World AList
  ConnectionScopedInput

def keyTarget (held : Nat × UInt8 × Bool) : Option Nat :=
  linuxKeycodeFromRdpScancode held.2.1 held.2.2

def buttonTarget (held : Nat × HeldButton) : Option Nat := some (buttonCode held.2)

/-- What is down is what some session holds. -/
def Exact (w : World) : Prop :=
  (∀ keycode, keycode ∈ w.input.keys.down ↔ ∃ held ∈ w.clientKeys, keyTarget held = some keycode) ∧
  ∀ button, button ∈ w.input.buttons.down ↔
    ∃ held ∈ w.clientButtons, buttonTarget held = some button

def Releasable {η : Type} (target : η → Option Nat) (held : Finset η) (hold : η) : Prop :=
  hold ∈ held ∨ ∀ other ∈ held, target other ≠ target hold

def Countable {η : Type} (target : η → Option Nat) (held : Finset η) (hold : η) : Prop :=
  ∀ id ∈ target hold, (holders target held id).card < maxCount

/-- A release is of something the session holds, or that nobody holds; a button is pressed
only when the session does not hold it; and a press can still be counted. -/
def MatchedCall (w : World) (session : Nat) : Call → Prop
  | .keyboard (.pressed code extended) => Countable keyTarget w.clientKeys (session, code, extended)
  | .keyboard (.released code extended) =>
    Releasable keyTarget w.clientKeys (session, code, extended)
  | .keyboard (.unicodePressed _) => True
  | .mouse (.pressed button) =>
    (session, button) ∉ w.clientButtons ∧ Countable buttonTarget w.clientButtons (session, button)
  | .mouse (.released button) => Releasable buttonTarget w.clientButtons (session, button)
  | .mouse (.move _ _) | .mouse (.verticalScroll _) | .mouse (.horizontalScroll _) => True

def Matched (w : World) : Action → Prop
  | .event session event => ∀ call ∈ dispatchInputEvent event, MatchedCall w session call
  | .disconnect _ _ _ => True

section Counted
variable {η : Type} {target : η → Option Nat} {held : Finset η} {hs : Held}

structure Counted (target : η → Option Nat) (held : Finset η) (hs : Held) : Prop where
  counts : ∀ id, hs.counts.lookup id =
    if (holders target held id).card = 0 then none else some (holders target held id).card
  down : ∀ id, id ∈ hs.down ↔ 0 < (holders target held id).card

def pressFor (target : η → Option Nat) (hs : Held) (hold : η) : Held :=
  match target hold with
  | some id => injectHeld hs id true
  | none => hs

def releaseFor (target : η → Option Nat) (hs : Held) (hold : η) : Held :=
  match target hold with
  | some id => injectHeld hs id false
  | none => hs

section
variable (h : Counted target held hs)
include h

theorem Counted.of_card
    {held' : Finset η}
    (hcard : ∀ id, (holders target held' id).card = (holders target held id).card) :
    Counted target held' hs :=
  ⟨fun id => hcard id ▸ h.counts id, fun id => hcard id ▸ h.down id⟩

theorem Counted.getD_lookup (id : Nat) :
    (hs.counts.lookup id).getD 0 = (holders target held id).card := by
  rw [h.counts id]
  split
  · next hzero => exact hzero.symm
  · rfl

theorem Counted.set
    {held' : Finset η}
    (id count : Nat)
    {hs' : Held}
    (hother : ∀ id', id' ≠ id → (holders target held' id').card = (holders target held id').card)
    (hself : (holders target held' id).card = count)
    (hcounts : hs'.counts.lookup id = if count = 0 then none else some count)
    (hcounts_ne : ∀ id', id' ≠ id → hs'.counts.lookup id' = hs.counts.lookup id')
    (hdown : id ∈ hs'.down ↔ 0 < count)
    (hdown_ne : ∀ id', id' ≠ id → (id' ∈ hs'.down ↔ id' ∈ hs.down)) : Counted target held' hs' where
  counts id' := by
    by_cases hid : id' = id
    · rw [hid, hself, hcounts]
    · rw [hcounts_ne id' hid, hother id' hid, h.counts id']
  down id' := by
    by_cases hid : id' = id
    · rw [hid, hself, hdown]
    · rw [hdown_ne id' hid, hother id' hid, h.down id']

end
variable {hold : η}

theorem Counted.release_free
    (h : Counted target held hs)
    (hfree : ∀ other ∈ held, target other ≠ target hold) :
    Counted target held (releaseFor target hs hold) := by
  unfold releaseFor
  split
  · next id hid =>
    have hzero : (holders target held id).card = 0 := by
      rw [Finset.card_eq_zero, Finset.eq_empty_iff_forall_notMem]
      intro other hother
      obtain ⟨hmem, htarget⟩ := mem_holders.mp hother
      exact hfree other hmem (htarget.trans hid.symm)
    have hlookup : hs.counts.lookup id = none := by rw [h.counts id, if_pos hzero]
    simp only [injectHeld, hlookup, Bool.false_eq_true, if_false]
    refine h.set id 0 (fun _ _ => rfl) hzero ?_ (fun _ _ => rfl) ?_ ?_
    · rw [if_pos rfl, hlookup]
    · exact iff_of_false (Finset.notMem_erase _ _) (lt_irrefl 0)
    · exact fun id' hne => by rw [Finset.mem_erase, and_iff_right hne]
  · exact h

variable [DecidableEq η]
section
variable (h : Counted target held hs)
include h

theorem Counted.press (hnew : hold ∉ held) (hroom : Countable target held hold) :
    Counted target (insert hold held) (pressFor target hs hold) := by
  have hcard := card_holders_insert target hnew
  unfold pressFor
  split
  · next id hid =>
    have hcount : min ((hs.counts.lookup id).getD 0 + 1) maxCount =
        (holders target held id).card + 1 := by
      rw [h.getD_lookup id]
      exact min_eq_left (hroom id hid)
    unfold injectHeld
    rw [if_pos rfl, hcount]
    refine h.set id ((holders target held id).card + 1) ?_ ?_ ?_ ?_ ?_ ?_
    · intro id' hne
      rw [hcard id', hid, if_neg fun heq => hne (Option.some.inj heq).symm, Nat.add_zero]
    · rw [hcard id, if_pos hid]
    · rw [if_neg (Nat.succ_ne_zero _)]
      exact lookup_insert _
    · exact fun id' hne => lookup_insert_ne hne
    · refine iff_of_true ?_ (Nat.succ_pos _)
      dsimp only
      split
      · exact Finset.mem_insert_self _ _
      · next hmore => exact (h.down id).mpr (by omega)
    · intro id' hne
      dsimp only
      split
      · rw [Finset.mem_insert, or_iff_right hne]
      · rfl
  · next hnone =>
    refine h.of_card fun id => ?_
    rw [hcard id, hnone, if_neg (by simp), Nat.add_zero]

theorem Counted.release (hold_mem : hold ∈ held) :
    Counted target (held.erase hold) (releaseFor target hs hold) := by
  have hcard := card_holders_erase target hold_mem
  unfold releaseFor
  split
  · next id hid =>
    have hself := hcard id
    rw [if_pos hid] at hself
    have hother : ∀ id', id' ≠ id → (holders target (held.erase hold) id').card =
        (holders target held id').card := by
      intro id' hne
      rw [hcard id', hid, if_neg fun heq => hne (Option.some.inj heq).symm, Nat.add_zero]
    have hlookup : hs.counts.lookup id = some (holders target held id).card := by
      rw [h.counts id, if_neg (by omega)]
    simp only [injectHeld, hlookup, Bool.false_eq_true, if_false]
    split
    · refine h.set id ((holders target held id).card - 1) hother (by omega) ?_ ?_ ?_ ?_
      · rw [if_neg (by omega)]
        exact lookup_insert _
      · exact fun id' hne => lookup_insert_ne hne
      · exact iff_of_true ((h.down id).mpr (by omega)) (by omega)
      · exact fun _ _ => Iff.rfl
    · refine h.set id 0 hother (by omega) ?_ ?_ ?_ ?_
      · rw [if_pos rfl]
        exact lookup_erase _ _
      · exact fun id' hne => lookup_erase_ne hne
      · exact iff_of_false (Finset.notMem_erase _ _) (lt_irrefl 0)
      · exact fun id' hne => by rw [Finset.mem_erase, and_iff_right hne]
  · next hnone =>
    refine h.of_card fun id => ?_
    rw [hcard id, hnone, if_neg (by simp), Nat.add_zero]

theorem Counted.release_of_releasable (hrel : Releasable target held hold) :
    Counted target (held.erase hold) (releaseFor target hs hold) := by
  by_cases hmem : hold ∈ held
  · exact h.release hmem
  · rw [Finset.erase_eq_of_notMem hmem]
    exact h.release_free (hrel.resolve_left hmem)

end

theorem Counted.releaseAll (holds : List η) :
    ∀ {held : Finset η} {hs : Held}, Counted target held hs → holds.Nodup →
      (∀ hold ∈ holds, hold ∈ held) →
        Counted target (held \ holds.toFinset) (holds.foldl (releaseFor target) hs) := by
  induction holds with
  | nil =>
    intro held hs h _ _
    rwa [toFinset_nil, Finset.sdiff_empty]
  | cons hold holds ih =>
    intro held hs h hnodup hmem
    obtain ⟨hfirst, hrest⟩ := nodup_cons.mp hnodup
    have hstep := h.release (hmem hold mem_cons_self)
    have hleft : ∀ other ∈ holds, other ∈ held.erase hold := fun other hother =>
      Finset.mem_erase.mpr ⟨fun heq => hfirst (heq ▸ hother), hmem other (mem_cons_of_mem _ hother)⟩
    have hsets : held \ (hold :: holds).toFinset = held.erase hold \ holds.toFinset := by
      ext other
      simp only [toFinset_cons, Finset.mem_sdiff, Finset.mem_insert, Finset.mem_erase]
      tauto
    rw [hsets]
    exact ih hstep hrest hleft

end Counted

structure Inv (w : World) : Prop where
  keys : Counted keyTarget w.clientKeys w.input.keys
  buttons : Counted buttonTarget w.clientButtons w.input.buttons
  recordedKeys : ∀ session key, key ∈ (w.sessions session).pressedKeys ↔
    (session, key) ∈ w.clientKeys
  recordedButtons : ∀ session button,
    button ∈ (w.sessions session).pressedButtons ↔ (session, button) ∈ w.clientButtons

theorem counted_empty {η : Type} (target : η → Option Nat) : Counted target ∅ ⟨∅, ∅⟩ :=
  ⟨fun _ => rfl, fun _ => iff_of_false (Finset.notMem_empty _) (lt_irrefl 0)⟩

theorem inv_start : Inv start where
  keys := counted_empty _
  buttons := counted_empty _
  recordedKeys _ _ := iff_of_false (Finset.notMem_empty _) (Finset.notMem_empty _)
  recordedButtons _ _ := iff_of_false (Finset.notMem_empty _) (Finset.notMem_empty _)

theorem Counted.exact {η : Type} {target : η → Option Nat} {held : Finset η} {hs : Held}
    (h : Counted target held hs)
    (id : Nat) : id ∈ hs.down ↔ ∃ hold ∈ held, target hold = some id := by
  rw [h.down id, Finset.card_pos]
  exact ⟨fun ⟨hold, hmem⟩ => ⟨hold, mem_holders.mp hmem⟩,
    fun ⟨hold, hmem⟩ => ⟨hold, mem_holders.mpr hmem⟩⟩

variable {w : World}

theorem keys_key (input : Input) (session : Nat) (code : UInt8) (extended down : Bool) :
    (input.key code extended down).keys =
      if down then pressFor keyTarget input.keys (session, code, extended)
      else releaseFor keyTarget input.keys (session, code, extended) := by
  unfold Input.key pressFor releaseFor keyTarget
  cases linuxKeycodeFromRdpScancode code extended <;> cases down <;> rfl

theorem buttons_key (input : Input) (code : UInt8) (extended down : Bool) :
    (input.key code extended down).buttons = input.buttons := by
  unfold Input.key
  split <;> rfl

variable {κ : Type} {records : ConnectionScopedInput → Finset κ} {held : Finset (Nat × κ)}
    {session : Nat}
  {conn : ConnectionScopedInput}

theorem recorded_update
    {held' : Finset (Nat × κ)}
    (h : ∀ session key, key ∈ records (w.sessions session) ↔ (session, key) ∈ held)
    (hself : ∀ key, key ∈ records conn ↔ (session, key) ∈ held')
    (hother :
      ∀ session' key, session' ≠ session → ((session', key) ∈ held' ↔ (session', key) ∈ held))
    (session' : Nat) (key : κ) :
    key ∈ records (update w.sessions session conn session') ↔ (session', key) ∈ held' := by
  by_cases hs : session' = session
  · subst hs
    rw [update_self]
    exact hself key
  · rw [update_of_ne hs, hother session' key hs]
    exact h session' key

theorem recorded_insert [DecidableEq κ] (new : κ)
    (h : ∀ session key, key ∈ records (w.sessions session) ↔ (session, key) ∈ held)
    (hconn : records conn = insert new (records (w.sessions session)))
    (session' : Nat) (key : κ) :
    key ∈ records (update w.sessions session conn session') ↔
      (session', key) ∈ insert (session, new) held := by
  refine recorded_update h (fun key => ?_) (fun session' key hne => ?_) session' key
  · rw [hconn, Finset.mem_insert, Finset.mem_insert, h session key, Prod.mk.injEq,
      and_iff_right rfl]
  · rw [Finset.mem_insert, or_iff_right fun heq => hne (congrArg Prod.fst heq)]

theorem recorded_erase [DecidableEq κ] (old : κ)
    (h : ∀ session key, key ∈ records (w.sessions session) ↔ (session, key) ∈ held)
    (hconn : records conn = (records (w.sessions session)).erase old)
    (session' : Nat) (key : κ) :
    key ∈ records (update w.sessions session conn session') ↔
      (session', key) ∈ held.erase (session, old) := by
  refine recorded_update h (fun key => ?_) (fun session' key hne => ?_) session' key
  · rw [hconn, Finset.mem_erase, Finset.mem_erase, h session key, Ne, Ne, Prod.mk.injEq,
      and_iff_right rfl]
  · rw [Finset.mem_erase, and_iff_right fun heq => hne (congrArg Prod.fst heq)]

theorem recorded_same
    (h : ∀ session key, key ∈ records (w.sessions session) ↔ (session, key) ∈ held)
    (hconn : records conn = records (w.sessions session))
    (session' : Nat) (key : κ) :
    key ∈ records (update w.sessions session conn session') ↔ (session', key) ∈ held :=
  recorded_update h (fun key => by rw [hconn, h session key]) (fun _ _ _ => Iff.rfl) session' key

theorem inv_keyboard
    (hw : Inv w)
    (session : Nat) (event : KeyboardEvent)
    (hmatched : MatchedCall w session (.keyboard event)) :
    Inv (w.call session (.keyboard event)) := by
  cases event with
  | pressed code extended =>
    by_cases hheld : (code, extended) ∈ (w.sessions session).pressedKeys
    · -- a repeat: neither the record nor the device changes
      have hclient := (hw.recordedKeys session (code, extended)).mp hheld
      simp only [call, keyboard, if_pos hheld, update_eq_self,
        clientKeysAfter, Finset.insert_eq_of_mem hclient]
      exact hw
    · have hclient : (session, code, extended) ∉ w.clientKeys := fun h =>
        hheld ((hw.recordedKeys session (code, extended)).mpr h)
      simp only [call, keyboard, if_neg hheld, clientKeysAfter, Input.keyboard]
      refine ⟨?_, ?_, recorded_insert _ hw.recordedKeys rfl, recorded_same hw.recordedButtons rfl⟩
      · rw [keys_key w.input session, if_pos rfl]
        exact hw.keys.press hclient hmatched
      · rw [buttons_key]
        exact hw.buttons
  | released code extended =>
    simp only [call, keyboard, clientKeysAfter, Input.keyboard]
    refine ⟨?_, ?_, recorded_erase _ hw.recordedKeys rfl, recorded_same hw.recordedButtons rfl⟩
    · rw [keys_key w.input session, if_neg Bool.false_ne_true]
      exact hw.keys.release_of_releasable hmatched
    · rw [buttons_key]
      exact hw.buttons
  | unicodePressed code =>
    simp only [call, keyboard, update_eq_self, clientKeysAfter, Input.keyboard]
    exact hw

theorem inv_mouse
    (hw : Inv w)
    (session : Nat) (event : MouseEvent)
    (hmatched : MatchedCall w session (.mouse event)) : Inv (w.call session (.mouse event)) := by
  cases event with
  | pressed button =>
    exact ⟨hw.keys, hw.buttons.press hmatched.1 hmatched.2, recorded_same hw.recordedKeys rfl,
      recorded_insert _ hw.recordedButtons rfl⟩
  | released button =>
    exact ⟨hw.keys, hw.buttons.release_of_releasable hmatched, recorded_same hw.recordedKeys rfl,
      recorded_erase _ hw.recordedButtons rfl⟩
  | move x y =>
    exact ⟨hw.keys, hw.buttons, recorded_same hw.recordedKeys rfl,
      recorded_same hw.recordedButtons rfl⟩
  | verticalScroll value =>
    exact ⟨hw.keys, hw.buttons, recorded_same hw.recordedKeys rfl,
      recorded_same hw.recordedButtons rfl⟩
  | horizontalScroll value =>
    exact ⟨hw.keys, hw.buttons, recorded_same hw.recordedKeys rfl,
      recorded_same hw.recordedButtons rfl⟩

theorem foldl_released_keys (session : Nat) (keys : List (UInt8 × Bool)) (input : Input) :
    keys.foldl (fun input key => input.keyboard (.released key.1 key.2)) input =
      { input with
        keys := (keys.map (Prod.mk session)).foldl (releaseFor keyTarget) input.keys } := by
  induction keys generalizing input with
  | nil => rfl
  | cons key keys ih =>
    have hkey : input.keyboard (.released key.1 key.2) =
        { input with keys := releaseFor keyTarget input.keys (session, key) } := by
      have hkeys := (keys_key input session key.1 key.2 false).trans (if_neg Bool.false_ne_true)
      exact congrArg₂ Input.mk hkeys (buttons_key input key.1 key.2 false)
    rw [foldl_cons, ih, hkey]
    rfl

theorem foldl_released_buttons (session : Nat) (buttons : List HeldButton) (input : Input) :
    buttons.foldl (fun input button => input.mouse (.released button)) input =
      { input with
        buttons :=
          (buttons.map (Prod.mk session)).foldl (releaseFor buttonTarget) input.buttons } := by
  induction buttons generalizing input with
  | nil => rfl
  | cons button buttons ih =>
    rw [foldl_cons, ih]
    rfl

theorem counted_releaseSession [DecidableEq κ] {target : Nat × κ → Option Nat} {hs : Held}
    (h : Counted target held hs)
    {keys : List κ}
    (hnodup : keys.Nodup)
    (hkeys : ∀ key, key ∈ keys ↔ (session, key) ∈ held) :
    Counted target (held.filter fun hold => hold.1 ≠ session)
      ((keys.map (Prod.mk session)).foldl (releaseFor target) hs) := by
  have hmapped : (keys.map (Prod.mk session)).Nodup := hnodup.map (Prod.mk_right_injective session)
  have hmem : ∀ hold ∈ keys.map (Prod.mk session), hold ∈ held := by
    intro hold hhold
    obtain ⟨key, hkey, rfl⟩ := mem_map.mp hhold
    exact (hkeys key).mp hkey
  have hsets : held.filter (fun hold => hold.1 ≠ session) =
      held \ (keys.map (Prod.mk session)).toFinset := by
    ext ⟨session', key⟩
    simp only [Finset.mem_filter, Finset.mem_sdiff, mem_toFinset, mem_map, Prod.mk.injEq]
    constructor
    · rintro ⟨hheld, hne⟩
      exact ⟨hheld, fun ⟨_, _, heq, _⟩ => hne heq.symm⟩
    · rintro ⟨hheld, hnot⟩
      refine ⟨hheld, fun heq => hnot ⟨key, ?_, heq.symm, rfl⟩⟩
      exact (hkeys key).mpr (heq ▸ hheld)
  rw [hsets]
  exact Counted.releaseAll _ h hmapped hmem

theorem recorded_new [DecidableEq κ]
    (h : ∀ session key, key ∈ records (w.sessions session) ↔ (session, key) ∈ held)
    (hnew : records .new = ∅)
    (session' : Nat) (key : κ) :
    key ∈ records (update w.sessions session .new session') ↔
      (session', key) ∈ held.filter fun hold => hold.1 ≠ session := by
  refine recorded_update h (fun key => ?_) (fun session' key hne => ?_) session' key
  · rw [hnew]
    exact iff_of_false (Finset.notMem_empty _) fun hmem => (Finset.mem_filter.mp hmem).2 rfl
  · rw [Finset.mem_filter, and_iff_left hne]

theorem inv_disconnect
    (hw : Inv w)
    {keys : List (UInt8 × Bool)} {buttons : List HeldButton}
    (hkeys : keys.Nodup)
    (hkeySet : keys.toFinset = (w.sessions session).pressedKeys)
    (hbuttons : buttons.Nodup)
    (hbuttonSet : buttons.toFinset = (w.sessions session).pressedButtons) :
    Inv (w.disconnect session keys buttons) := by
  have hkeyMem : ∀ key, key ∈ keys ↔ (session, key) ∈ w.clientKeys := fun key => by
    rw [← hw.recordedKeys, ← hkeySet, mem_toFinset]
  have hbuttonMem : ∀ button, button ∈ buttons ↔ (session, button) ∈ w.clientButtons :=
    fun button => by
    rw [← hw.recordedButtons, ← hbuttonSet, mem_toFinset]
  unfold disconnect releaseAll
  rw [foldl_released_keys session, foldl_released_buttons session]
  exact ⟨counted_releaseSession hw.keys hkeys hkeyMem, counted_releaseSession hw.buttons hbuttons
    hbuttonMem, recorded_new hw.recordedKeys rfl, recorded_new hw.recordedButtons rfl⟩

theorem inv_step {t : World} {action : Action}
    (hw : Inv w)
    (hmatched : Matched w action)
    (h : step w action = some t) : Inv t := by
  cases action with
  | event session event =>
    unfold step at h
    dsimp only at h
    split at h
    · next call hcall =>
      cases h
      cases call with
      | keyboard event => exact inv_keyboard hw session event (hmatched _ hcall)
      | mouse event => exact inv_mouse hw session event (hmatched _ hcall)
    · cases h
      exact hw
  | disconnect session keys buttons =>
    unfold step at h
    dsimp only at h
    split at h
    · next hdrained =>
      cases h
      exact inv_disconnect hw hdrained.1 hdrained.2.1 hdrained.2.2.1 hdrained.2.2.2
    · cases h

/-- In every run of any number of sessions whose events all change a hold that can be counted,
what is down on the device is at all times what some connected session holds. -/
theorem exact_always_of_matched (schedule : List Action)
    (hmatched : Careful step Matched World.start schedule) :
    Always step Exact World.start schedule :=
  always_of_careful Inv (fun _ hw => ⟨hw.keys.exact, hw.buttons.exact⟩)
    (fun _ _ _ hw hok h => inv_step hw hok h) schedule inv_start hmatched

instance {η : Type} [DecidableEq η] (target : η → Option Nat) (held : Finset η) :
    DecidablePred (Releasable target held) := fun hold =>
  inferInstanceAs (Decidable (hold ∈ held ∨ ∀ other ∈ held, target other ≠ target hold))

instance {η : Type} (target : η → Option Nat) (held : Finset η) :
    DecidablePred (Countable target held) := fun hold =>
  inferInstanceAs (Decidable (∀ id ∈ target hold, _))

instance (w : World) (session : Nat) : DecidablePred (MatchedCall w session)
  | .keyboard (.pressed _ _) => inferInstanceAs (Decidable (Countable _ _ _))
  | .keyboard (.released _ _) => inferInstanceAs (Decidable (Releasable _ _ _))
  | .mouse (.pressed _) => inferInstanceAs (Decidable (_ ∧ _))
  | .mouse (.released _) => inferInstanceAs (Decidable (Releasable _ _ _))
  | .keyboard (.unicodePressed _) | .mouse (.move _ _) | .mouse (.verticalScroll _)
  | .mouse (.horizontalScroll _) => isTrue trivial

instance (w : World) : DecidablePred (Matched w)
  | .event _ event => inferInstanceAs (Decidable (∀ call ∈ dispatchInputEvent event, _))
  | .disconnect _ _ _ => isTrue trivial

def sharedRun : List Action :=
  [.event 1 (.scancode 0 0x1e), .event 2 (.scancode 0 0x1e), .event 1 (.scancode 0 0x1e),
    .event 2 (.mouse 0x9000 5 6), .event 1 (.scancode 1 0x1e), .event 1 (.mouse 0 7 8),
    .disconnect 2 [(0x1e, false)] [.left]]

theorem exact_sharedRun :
    Careful step Matched World.start sharedRun ∧ Always step Exact World.start sharedRun := by
  have hmatched : Careful step Matched start sharedRun := by decide +kernel
  exact ⟨hmatched, exact_always_of_matched sharedRun hmatched⟩

def foreignRelease : List Action := [.event 1 (.scancode 0 0x1e), .event 2 (.scancode 1 0x1e)]

def doublePress : List Action :=
  [.event 1 (.mouse 0x9000 5 6), .event 1 (.mouse 0x9000 5 6), .event 1 (.mouse 0x1000 5 6),
    .disconnect 1 [] []]

/-- The first leaves a held key up, the second a button down after its only session has ended. -/
theorem released_by_another_and_stuck :
    (∃ w,
       exec step World.start foreignRelease = some w ∧
       (1, 0x1e, false) ∈ w.clientKeys ∧
       linuxKeycodeFromRdpScancode 0x1e false = some 30 ∧
       30 ∉ w.input.keys.down ∧
       ¬ Exact w) ∧
    ∃ w,
      exec step World.start doublePress = some w ∧
      w.clientButtons = ∅ ∧
      buttonCode .left ∈ w.input.buttons.down ∧
      ¬ Exact w := by
  constructor
  · have hrun : (exec step start foreignRelease).any (fun w =>
        (1, 0x1e, false) ∈ w.clientKeys ∧ 30 ∉ w.input.keys.down) = true := by decide +kernel
    obtain ⟨w, hw, hfacts⟩ := (Option.any_eq_true _ _).mp hrun
    obtain ⟨hheld, hup⟩ := of_decide_eq_true hfacts
    exact ⟨w, hw, hheld, rfl, hup, fun hexact => hup ((hexact.1 30).mpr ⟨_, hheld, rfl⟩)⟩
  · have hrun : (exec step start doublePress).any (fun w =>
        w.clientButtons = ∅ ∧ buttonCode .left ∈ w.input.buttons.down) = true := by decide +kernel
    obtain ⟨w, hw, hfacts⟩ := (Option.any_eq_true _ _).mp hrun
    obtain ⟨hnone, hdown⟩ := of_decide_eq_true hfacts
    refine ⟨w, hw, hnone, hdown, fun hexact => ?_⟩
    obtain ⟨held, hmem, -⟩ := (hexact.2 _).mp hdown
    rw [hnone] at hmem
    exact Finset.notMem_empty _ hmem

end Kmsrdp.Guarantees.InputHolds
