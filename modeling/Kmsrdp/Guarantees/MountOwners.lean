import Kmsrdp.Library.PartialMap
import Kmsrdp.Source.Rdpdr.Registry

/-!
# The owner of a shared mount and its backend

The active backend of a mount should be the drive that its owner last announced under its name. An
owner that announces another drive under the same name changes its entry, but not the active
backend.
-/
namespace Kmsrdp.Guarantees.MountOwners
open Library.Execution Library.PartialMap Function
open Source.Rdpdr (ActiveBackend sanitizeDosName)
open Source.Rdpdr.Registry

/-- The owner is a member, and the active backend is the owner's bridge with the device id it last
announced under the name. -/
def OwnersCurrent (w : World) : Prop :=
  ∀ name m, w.slots name = some m → ∃ deviceId, m.members.lookup m.ownerConn = some deviceId ∧
    w.announced m.ownerConn name = some deviceId ∧ m.active = ⟨m.ownerConn, deviceId⟩

/-- An owner that announces its mount again does so with the device id that is active. -/
def RepeatsActive (w : World) : Action → Prop
  | .announce conn deviceId deviceType dosName =>
    ∀ c m, w.consumers conn = some c → c.stage = .ready → Serves c deviceType dosName →
      w.slots (sanitizeDosName dosName) = some m → m.ownerConn = conn → deviceId = m.active.deviceId
  | _ => True

def WellOwned (m : SharedMount) : Prop :=
  ∃ deviceId, m.members.lookup m.ownerConn = some deviceId ∧ m.active = ⟨m.ownerConn, deviceId⟩

theorem wellOwned_created (conn deviceId : Nat) : WellOwned (joinSlot none conn deviceId) :=
  ⟨deviceId, entryOf_joinSlot none conn deviceId conn |>.trans (if_pos rfl), rfl⟩

variable {m : SharedMount} {conn deviceId : Nat}

theorem WellOwned.entered
    (h : WellOwned m)
    (hrepeats : m.ownerConn = conn → deviceId = m.active.deviceId) :
    WellOwned (joinSlot (some m) conn deviceId) := by
  obtain ⟨current, hentry, hactive⟩ := h
  refine ⟨current, ?_, hactive⟩
  refine (entryOf_joinSlot (some m) conn deviceId m.ownerConn).trans ?_
  by_cases howner : m.ownerConn = conn
  · rw [if_pos howner, hrepeats howner, hactive]
  · rw [if_neg howner]
    exact hentry

variable {newOwner : Nat}

theorem WellOwned.left {after : SharedMount}
    (h : WellOwned m)
    (hleaves : leaveSlot (some m) conn newOwner = some (some after)) : WellOwned after := by
  rcases leaveSlot_cases hleaves with ⟨-, hafter⟩ | ⟨-, ⟨deviceId, hentry, hafter⟩ | ⟨howner, hafter⟩⟩
  · cases hafter
  · -- the owner leaves: the new one takes over with its own entry
    cases hafter
    exact ⟨deviceId, hentry, rfl⟩
  · cases hafter
    obtain ⟨deviceId, hentry, hactive⟩ := h
    exact ⟨deviceId, (lookup_erase_eq _ _ _).trans ((if_neg howner).trans hentry), hactive⟩

/-- The owner of a mount is one of its members. -/
def OwnersListed (w : World) : Prop :=
  ∀ name m, w.slots name = some m → (m.members.lookup m.ownerConn).isSome

theorem ownerListed_join (slot : Option SharedMount)
    (h : ∀ m, slot = some m → (m.members.lookup m.ownerConn).isSome)
    (conn deviceId : Nat) :
    ((joinSlot slot conn deviceId).members.lookup
       (joinSlot slot conn deviceId).ownerConn).isSome := by
  have hentry := entryOf_joinSlot slot conn deviceId (joinSlot slot conn deviceId).ownerConn
  rw [show (joinSlot slot conn deviceId).members.lookup _ = _ from hentry]
  split
  · rfl
  · next hother =>
    cases slot with
    | none => exact absurd rfl hother
    | some m => exact h m rfl

theorem ownerListed_leave {after : SharedMount}
    (h : (m.members.lookup m.ownerConn).isSome)
    (hleaves : leaveSlot (some m) conn newOwner = some (some after)) :
    (after.members.lookup after.ownerConn).isSome := by
  rcases leaveSlot_cases hleaves with ⟨-, hafter⟩ | ⟨-, ⟨deviceId, hentry, hafter⟩ | ⟨howner, hafter⟩⟩
  · cases hafter
  · cases hafter
    exact Option.isSome_of_eq_some hentry
  · cases hafter
    rw [lookup_erase_eq, if_neg howner]
    exact h

theorem ownersListed_step (w : World) (action : Action) (after : World)
    (h : OwnersListed w)
    (hstep : step w action = some after) : OwnersListed after := by
  cases change_of_step hstep with
  | connected haveSession => exact h
  | ignored conn deviceId deviceType dosName => exact h
  | entered conn deviceId deviceType dosName c m consumer ready serves slot =>
    refine entries_update (fun name' m' _ => h name' m') fun m' hm' => ?_
    cases hm'
    exact ownerListed_join _ (h _) conn deviceId
  | mounting conn deviceId deviceType dosName c consumer ready serves slot => exact h
  | mounted conn c name deviceId consumer stage =>
    refine entries_update (fun name' m' _ => h name' m') fun m' hm' => ?_
    cases hm'
    exact ownerListed_join _ (h _) conn deviceId
  | failed conn c name deviceId consumer stage => exact h
  | dropped conn c consumer ready => exact h
  | left conn deviceId newOwner c name slot consumer stage joined leaves =>
    refine entries_update (fun name' m' _ => h name' m') fun m' hm' => ?_
    rw [hm'] at leaves
    cases hold : w.slots name with
    | none =>
      rw [hold] at leaves
      cases leaves
    | some m =>
      rw [hold] at leaves
      exact ownerListed_leave (h name m hold) leaves

/-- Entries are what their connections last announced. A connection that is mounting has announced
the name, and has no entry under it: nobody else makes entries for it. -/
structure Inv (w : World) : Prop where
  owned : ∀ name m, w.slots name = some m → WellOwned m
  entries : ∀ conn name deviceId, w.entry conn name = some deviceId →
    w.announced conn name = some deviceId
  mounting : ∀ conn c name deviceId, w.consumers conn = some c → c.stage = .mounting name deviceId →
    w.announced conn name = some deviceId ∧ w.entry conn name = none

variable {w : World}

theorem inv_start : Inv .start where
  owned := fun name m h => by cases h
  entries := fun conn name deviceId h => by cases h
  mounting := fun conn c name deviceId h => by cases h

theorem Inv.ownersCurrent (h : Inv w) : OwnersCurrent w := by
  intro name m hslot
  obtain ⟨deviceId, hentry, hactive⟩ := h.owned name m hslot
  refine ⟨deviceId, hentry, h.entries m.ownerConn name deviceId ?_, hactive⟩
  rw [World.entry, hslot]
  exact hentry

theorem mounting_update {P : Nat → List Char → Nat → Prop} {consumers : Nat → Option Consumer}
    (h : ∀ conn c name deviceId, consumers conn = some c → c.stage = .mounting name deviceId →
        P conn name deviceId)
    {after : Consumer}
    (hafter : ∀ name deviceId, after.stage ≠ .mounting name deviceId) :
    ∀ conn' c name deviceId, update consumers conn (some after) conn' = some c →
      c.stage = .mounting name deviceId → conn' ≠ conn ∧ P conn' name deviceId := by
  intro conn' c name deviceId
  revert conn' c
  refine entries_update (fun conn' c hother hconsumer hstage => ?_) fun c hc hstage => ?_
  · exact ⟨hother, h conn' c name deviceId hconsumer hstage⟩
  · cases hc
    exact absurd hstage (hafter name deviceId)

theorem announced_note (w : World) (conn : Nat) (name : DosName) (deviceId other : Nat)
    (name' : DosName) :
    (w.noteAnnounced conn name deviceId).announced other name' =
      if other = conn ∧ name' = name then some deviceId else w.announced other name' := by
  unfold World.noteAnnounced
  dsimp only
  by_cases hconn : other = conn
  · subst hconn
    rw [update_self]
    by_cases hname : name' = name
    · rw [hname, update_self, if_pos ⟨rfl, rfl⟩]
    · rw [update_of_ne hname, if_neg fun h => hname h.2]
  · rw [update_of_ne hconn, if_neg fun h => hconn h.1]

variable {name : DosName}

theorem noteAnnounced_self (h : w.announced conn name = some deviceId) :
    w.noteAnnounced conn name deviceId = w := by
  unfold World.noteAnnounced
  rw [← h, update_eq_self, update_eq_self]

theorem Inv.join
    (h : Inv w)
    (conn : Nat) (c : Consumer)
    (hrepeats : ∀ m, w.slots name = some m → m.ownerConn = conn → deviceId = m.active.deviceId) :
    Inv ((w.noteAnnounced conn name deviceId).join conn c name deviceId) where
  owned := by
    refine entries_update (fun name' m' _ => h.owned name' m') fun m' hm' => ?_
    cases hm'
    show WellOwned (joinSlot (w.slots name) conn deviceId)
    cases hold : w.slots name with
    | none => exact wellOwned_created conn deviceId
    | some m => exact (h.owned name m hold).entered (hrepeats m hold)
  entries := by
    intro other name' deviceId' hentry
    rw [entry_join] at hentry
    refine (announced_note w conn name deviceId other name').trans ?_
    by_cases hsame : other = conn ∧ name' = name
    · rwa [if_pos hsame] at hentry ⊢
    · rw [if_neg hsame] at hentry ⊢
      exact h.entries other name' deviceId' hentry
  mounting := by
    intro other c' name' deviceId' hconsumer hstage
    obtain ⟨hother, hannounced, hnone⟩ := mounting_update h.mounting (fun _ _ hready => by cases hready)
      other c' name' deviceId' hconsumer hstage
    have hsame : ¬ (other = conn ∧ name' = name) := fun hsame => hother hsame.1
    refine ⟨(announced_note w conn name deviceId other name').trans
      ((if_neg hsame).trans hannounced), ?_⟩
    rw [entry_join, if_neg hsame]
    exact hnone

theorem Inv.noteMounting
    (h : Inv w)
    (conn : Nat) (c : Consumer)
    (hslot : w.slots name = none)
    (deviceId : Nat) :
    Inv ((w.noteAnnounced conn name deviceId).setStage conn c (.mounting name deviceId)) where
  owned := h.owned
  entries := by
    intro other name' deviceId' hentry
    have hsame : ¬ (other = conn ∧ name' = name) := by
      rintro ⟨-, rfl⟩
      have hnone : w.entry other name' = none := by rw [World.entry, hslot]; rfl
      exact Option.some_ne_none _ (hentry.symm.trans hnone)
    exact (announced_note w conn name deviceId other name').trans
      ((if_neg hsame).trans (h.entries other name' deviceId' hentry))
  mounting := by
    intro other c' name' deviceId' hconsumer hstage
    by_cases hother : other = conn
    · rw [hother] at hconsumer ⊢
      cases (update_self conn _ w.consumers).symm.trans hconsumer
      cases hstage
      refine ⟨(announced_note w conn name deviceId conn name).trans (if_pos ⟨rfl, rfl⟩), ?_⟩
      show entryOf (w.slots name) conn = none
      rw [hslot]
      rfl
    · obtain ⟨hannounced, hnone⟩ := h.mounting other c' name' deviceId'
        ((update_of_ne hother _ _).symm.trans hconsumer) hstage
      exact ⟨(announced_note w conn name deviceId other name').trans
        ((if_neg fun hsame => hother hsame.1).trans hannounced), hnone⟩

theorem Inv.setStage
    (h : Inv w)
    (conn : Nat) (c : Consumer) {stage : Stage}
    (hstage : ∀ name deviceId, stage ≠ .mounting name deviceId) :
    Inv (w.setStage conn c stage) where
  owned := h.owned
  entries := h.entries
  mounting := fun other c' name deviceId hconsumer hmounting =>
    (mounting_update h.mounting hstage other c' name deviceId hconsumer hmounting).2

theorem Inv.leave
    (h : Inv w)
    {c : Consumer}
    (hstage : c.stage = .dropping)
    {slot : Option SharedMount}
    (hleaves : leaveSlot (w.slots name) conn newOwner = some slot)
    (deviceId : Nat) : Inv (w.leave conn c deviceId name slot) where
  owned := by
    refine entries_update (fun name' m' _ => h.owned name' m') fun m' hm' => ?_
    rw [hm'] at hleaves
    cases hold : w.slots name with
    | none =>
      rw [hold] at hleaves
      cases hleaves
    | some m =>
      rw [hold] at hleaves
      exact (h.owned name m hold).left hleaves
  entries := by
    intro other name' deviceId' hentry
    rw [entry_leave hleaves] at hentry
    split at hentry
    · cases hentry
    · exact h.entries other name' deviceId' hentry
  mounting := by
    intro other c' name' deviceId' hconsumer hmounting
    obtain ⟨hother, hannounced, hnone⟩ := mounting_update h.mounting
      (fun _ _ hready => by rw [hstage] at hready; cases hready) other c' name' deviceId'
        hconsumer hmounting
    refine ⟨hannounced, ?_⟩
    rw [entry_leave hleaves, if_neg fun hsame => hother hsame.1]
    exact hnone

theorem inv_step (w : World) (action : Action) (after : World)
    (h : Inv w)
    (hrepeats : RepeatsActive w action)
    (hstep : step w action = some after) : Inv after := by
  cases change_of_step hstep with
  | connected haveSession =>
    refine ⟨h.owned, h.entries, fun conn c name deviceId hconsumer hstage => ?_⟩
    exact (mounting_update h.mounting (fun _ _ hready => by cases hready) conn c name deviceId
      hconsumer hstage).2
  | ignored conn deviceId deviceType dosName => exact h
  | entered conn deviceId deviceType dosName c m consumer ready serves slot =>
    refine h.join conn c fun m' hslot howner => ?_
    exact hrepeats c m' consumer ready serves hslot howner
  | mounting conn deviceId deviceType dosName c consumer ready serves slot =>
    exact h.noteMounting conn c slot deviceId
  | mounted conn c name deviceId consumer stage =>
    obtain ⟨hannounced, hnone⟩ := h.mounting conn c name deviceId consumer stage
    rw [← noteAnnounced_self hannounced]
    -- the owner of a mount made meanwhile is another connection, since this one has no entry
    refine h.join conn c fun m hslot howner => ?_
    obtain ⟨current, hentry, -⟩ := h.owned name m hslot
    rw [World.entry, hslot] at hnone
    rw [howner] at hentry
    cases hnone.symm.trans hentry
  | failed conn c name deviceId consumer stage =>
    exact h.setStage conn c fun _ _ hready => by cases hready
  | dropped conn c consumer ready => exact h.setStage conn c fun _ _ hdropping => by cases hdropping
  | left conn deviceId newOwner c name slot consumer stage joined leaves =>
    exact h.leave stage leaves deviceId

theorem other_drive_breaks (w : World) (action : Action) (_h : Inv w)
    (hother : ¬ RepeatsActive w action) :
    ∃ after, step w action = some after ∧ ¬ OwnersCurrent after := by
  cases action with
  | announce conn deviceId deviceType dosName =>
    simp only [RepeatsActive, not_forall] at hother
    obtain ⟨c, m, hconsumer, hready, hserves, hslot, howner, hne⟩ := hother
    have hstep : step w (.announce conn deviceId deviceType dosName) =
        some ((w.noteAnnounced conn (sanitizeDosName dosName) deviceId).join conn c
          (sanitizeDosName dosName) deviceId) := by
      rw [step, hconsumer, Option.bind_some, if_pos hready, World.onDeviceReady,
        if_neg (not_not_intro hserves.1), if_neg (by rw [hserves.2.1]; decide), if_neg hserves.2.2]
      dsimp only [World.noteAnnounced]
      rw [hslot]
    refine ⟨_, hstep, fun hcurrent => ?_⟩
    obtain ⟨current, -, hannounced, hactive⟩ := hcurrent (sanitizeDosName dosName)
      (joinSlot (w.slots (sanitizeDosName dosName)) conn deviceId) (update_self _ _ _)
    rw [hslot] at hannounced hactive
    have hnoted := (announced_note w conn (sanitizeDosName dosName) deviceId m.ownerConn
      (sanitizeDosName dosName)).symm.trans hannounced
    rw [if_pos ⟨howner, rfl⟩] at hnoted
    cases hnoted
    exact hne (congrArg ActiveBackend.deviceId hactive).symm
  | connect haveSession => exact absurd trivial hother
  | mounted conn ok => exact absurd trivial hother
  | drop conn => exact absurd trivial hother
  | leave conn deviceId newOwner => exact absurd trivial hother

/-- Along any run the owner of a mount is one of its members. Its backend is all along the owner's
current drive exactly when every announcement by the owner of a mount under its name repeats the
active device id. -/
theorem owners_current_iff (schedule : List Action) :
    Always step OwnersListed .start schedule ∧
    (Always step OwnersCurrent .start schedule ↔ Careful step RepeatsActive .start schedule) := by
  constructor
  · exact always_of_invariant OwnersListed (fun _ h => h) ownersListed_step schedule fun name m h =>
      by cases h
  · exact always_iff_careful Inv (fun _ h => h.ownersCurrent) inv_step other_drive_breaks
      schedule inv_start

def announcedTwice : List Action :=
  [.connect true, .announce 1 1 rdpdrDtypFilesystem ['C'], .mounted 1 true,
    .announce 1 2 rdpdrDtypFilesystem ['C']]

/-- The owner's entry is device 2 now, and requests still go to device 1. -/
theorem announcedTwice_stale :
    (exec step .start announcedTwice).map
      (fun w => (w.slots ['C']).map fun m => (m.members.lookup m.ownerConn, m.active)) =
      some (some (some 2, ⟨1, 1⟩)) ∧
    ¬ Always step OwnersCurrent .start announcedTwice := by
  refine ⟨by decide, fun h => ?_⟩
  obtain ⟨deviceId, hentry, -, hactive⟩ := h.last (t := _) rfl ['C'] _ rfl
  cases hactive
  exact absurd hentry (by decide)

end Kmsrdp.Guarantees.MountOwners
