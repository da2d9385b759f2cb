import Kmsrdp.Library.Execution
import Kmsrdp.Source.Rdpdr.Mount

/-!
# The registry of shared mounts

Model of `MountRegistry` (`kmsrdp/src/rdpdr_fuse/mount.rs`) and of `FuseDriveConsumer`
(`rdpdr_fuse/mod.rs`) for any number of connections and drive names.

Choices that depend on hash maps are named by the steps. The umount at the shutdown of the process
is left out. `announced` and `joins` record what was asked for.
-/
namespace Kmsrdp.Source.Rdpdr.Registry
open Function Option AList

abbrev DosName := List Char

def rdpdrDtypFilesystem : Nat := 8

structure SharedMount where
  ownerConn : Nat
  active : ActiveBackend
  members : Table Nat Nat

inductive Stage where
  | ready
  | mounting (name : DosName) (deviceId : Nat)
  | dropping
  deriving DecidableEq

structure Consumer where
  haveSession : Bool
  joined : Table Nat DosName
  stage : Stage

structure World where
  nextConn : Nat
  consumers : Nat → Option Consumer
  slots : DosName → Option SharedMount
  announced : Nat → DosName → Option Nat
  joins : Nat → List (Nat × DosName)

def World.start : World := ⟨1, fun _ => none, fun _ => none, fun _ _ => none, fun _ => []⟩

inductive Action where
  /-- `build_drive_consumer`, with whether there is an active session. -/
  | connect (haveSession : Bool)
  /-- `on_device_ready`, up to the end of the first lock in `join`. -/
  | announce (conn deviceId deviceType : Nat) (dosName : List Char)
  /-- The mount is made, or has failed, and `join` goes on. -/
  | mounted (conn : Nat) (ok : Bool)
  /-- The consumer begins to be dropped. -/
  | drop (conn : Nat)
  /-- A round of the loop over `joined` in `drop`. -/
  | leave (conn deviceId newOwner : Nat)

def joinSlot (slot : Option SharedMount) (conn deviceId : Nat) : SharedMount :=
  match slot with
  | some m => { m with members := m.members.insert conn deviceId }
  | none => ⟨conn, ⟨conn, deviceId⟩, AList.singleton conn deviceId⟩

def leaveSlot (slot : Option SharedMount) (conn newOwner : Nat) : Option (Option SharedMount) :=
  match slot with
  | none => some none
  | some m =>
    let members := m.members.erase conn
    if members.keys = [] then some none
    else if m.ownerConn = conn then
      (members.lookup newOwner).map fun deviceId => some ⟨newOwner, ⟨newOwner, deviceId⟩, members⟩
    else some (some { m with members := members })

namespace World

def connect (w : World) (haveSession : Bool) : World :=
  { w with
    nextConn := w.nextConn + 1
    consumers := Function.update w.consumers w.nextConn (some ⟨haveSession, ∅, .ready⟩) }

def setStage (w : World) (conn : Nat) (c : Consumer) (stage : Stage) : World :=
  { w with consumers := Function.update w.consumers conn (some { c with stage := stage }) }

def noteAnnounced (w : World) (conn : Nat) (name : DosName) (deviceId : Nat) : World :=
  { w with
    announced :=
      Function.update w.announced conn (Function.update (w.announced conn) name (some deviceId)) }

def join (w : World) (conn : Nat) (c : Consumer) (name : DosName) (deviceId : Nat) : World :=
  { w with
    slots := Function.update w.slots name (some (joinSlot (w.slots name) conn deviceId))
    consumers := Function.update w.consumers conn
      (some { c with joined := c.joined.insert deviceId name, stage := .ready })
    joins := Function.update w.joins conn ((deviceId, name) :: w.joins conn) }

def onDeviceReady (w : World) (conn : Nat) (c : Consumer) (deviceId deviceType : Nat)
    (dosName : List Char) : World :=
  if deviceType ≠ rdpdrDtypFilesystem then w
  else if c.haveSession = false then w
  else
    let name := sanitizeDosName dosName
    if name = [] then w
    else
      let w := w.noteAnnounced conn name deviceId
      match w.slots name with
      | some _ => w.join conn c name deviceId
      | none => w.setStage conn c (.mounting name deviceId)

def leave (w : World) (conn : Nat) (c : Consumer) (deviceId : Nat) (name : DosName)
    (slot : Option SharedMount) :
    World :=
  { w with
    slots := Function.update w.slots name slot
    consumers := Function.update w.consumers conn (some { c with joined := c.joined.erase deviceId }) }

end World

def step (w : World) : Action → Option World
  | .connect haveSession => some (w.connect haveSession)
  | .announce conn deviceId deviceType dosName =>
    (w.consumers conn).bind fun c =>
      if c.stage = .ready then some (w.onDeviceReady conn c deviceId deviceType dosName) else none
  | .mounted conn ok =>
    (w.consumers conn).bind fun c =>
      match c.stage with
      | .mounting name deviceId =>
        if ok then some (w.join conn c name deviceId) else some (w.setStage conn c .ready)
      | _ => none
  | .drop conn =>
    (w.consumers conn).bind fun c => if c.stage = .ready
      then some (w.setStage conn c .dropping) else none
  | .leave conn deviceId newOwner =>
    (w.consumers conn).bind fun c =>
      if c.stage = .dropping then
        (c.joined.lookup deviceId).bind fun name =>
          (leaveSlot (w.slots name) conn newOwner).map fun slot => w.leave conn c deviceId name slot
      else none

def Serves (c : Consumer) (deviceType : Nat) (dosName : List Char) : Prop :=
  deviceType = rdpdrDtypFilesystem ∧ c.haveSession = true ∧ sanitizeDosName dosName ≠ []

inductive Change (w : World) : Action → World → Prop
  | connected (haveSession : Bool) : Change w (.connect haveSession) (w.connect haveSession)
  | ignored (conn deviceId deviceType : Nat) (dosName : List Char) :
      Change w (.announce conn deviceId deviceType dosName) w
  | entered (conn deviceId deviceType : Nat) (dosName : List Char) (c : Consumer) (m : SharedMount)
      (consumer : w.consumers conn = some c) (ready : c.stage = .ready)
      (serves : Serves c deviceType dosName)
      (slot : w.slots (sanitizeDosName dosName) = some m) :
      Change w (.announce conn deviceId deviceType dosName)
        ((w.noteAnnounced conn (sanitizeDosName dosName) deviceId).join conn c
          (sanitizeDosName dosName) deviceId)
  | mounting (conn deviceId deviceType : Nat) (dosName : List Char) (c : Consumer)
      (consumer : w.consumers conn = some c) (ready : c.stage = .ready)
      (serves : Serves c deviceType dosName)
      (slot : w.slots (sanitizeDosName dosName) = none) :
      Change w (.announce conn deviceId deviceType dosName)
        ((w.noteAnnounced conn (sanitizeDosName dosName) deviceId).setStage conn c
          (.mounting (sanitizeDosName dosName) deviceId))
  | mounted (conn : Nat) (c : Consumer) (name : DosName) (deviceId : Nat)
      (consumer : w.consumers conn = some c) (stage : c.stage = .mounting name deviceId) :
      Change w (.mounted conn true) (w.join conn c name deviceId)
  | failed (conn : Nat) (c : Consumer) (name : DosName) (deviceId : Nat)
      (consumer : w.consumers conn = some c) (stage : c.stage = .mounting name deviceId) :
      Change w (.mounted conn false) (w.setStage conn c .ready)
  | dropped (conn : Nat) (c : Consumer) (consumer : w.consumers conn = some c)
      (ready : c.stage = .ready) :
      Change w (.drop conn) (w.setStage conn c .dropping)
  | left (conn deviceId newOwner : Nat) (c : Consumer) (name : DosName) (slot : Option SharedMount)
      (consumer : w.consumers conn = some c) (stage : c.stage = .dropping)
      (joined : c.joined.lookup deviceId = some name)
      (leaves : leaveSlot (w.slots name) conn newOwner = some slot) :
      Change w (.leave conn deviceId newOwner) (w.leave conn c deviceId name slot)

variable {w : World} {conn : Nat}

theorem change_announce {deviceId deviceType : Nat} {dosName : List Char} {c : Consumer}
    (hconsumer : w.consumers conn = some c)
    (hready : c.stage = .ready) :
    Change w (.announce conn deviceId deviceType dosName)
      (w.onDeviceReady conn c deviceId deviceType dosName) := by
  by_cases hserves : Serves c deviceType dosName
  · obtain ⟨htype, hsession, hname⟩ := hserves
    unfold World.onDeviceReady
    rw [if_neg (not_not_intro htype), if_neg (by rw [hsession]; decide), if_neg hname]
    dsimp only [World.noteAnnounced]
    cases hslot : w.slots (sanitizeDosName dosName) with
    | none =>
      exact .mounting conn deviceId deviceType dosName c hconsumer hready
        ⟨htype, hsession, hname⟩ hslot
    | some m =>
      exact .entered conn deviceId deviceType dosName c m hconsumer hready
        ⟨htype, hsession, hname⟩ hslot
  · have hsame : w.onDeviceReady conn c deviceId deviceType dosName = w := by
      unfold World.onDeviceReady
      split
      · rfl
      · next htype =>
        split
        · rfl
        · next hsession =>
          have hempty : sanitizeDosName dosName = [] := by
            by_contra hname
            exact hserves ⟨not_not.mp htype, by simpa using hsession, hname⟩
          exact if_pos hempty
    rw [hsame]
    exact .ignored conn deviceId deviceType dosName

/-- Every step makes one of the listed changes. -/
theorem change_of_step {after : World} {action : Action} (h : step w action = some after) :
    Change w action after := by
  cases action with
  | connect haveSession =>
    cases h
    exact .connected haveSession
  | announce conn deviceId deviceType dosName =>
    obtain ⟨c, hconsumer, h⟩ := bind_eq_some_iff.mp h
    by_cases hready : c.stage = .ready
    · rw [if_pos hready] at h
      cases h
      exact change_announce hconsumer hready
    · rw [if_neg hready] at h
      cases h
  | mounted conn ok =>
    obtain ⟨c, hconsumer, h⟩ := bind_eq_some_iff.mp h
    cases hstage : c.stage with
    | mounting name deviceId =>
      rw [hstage] at h
      cases ok with
      | true =>
        cases h
        exact .mounted conn c name deviceId hconsumer hstage
      | false =>
        cases h
        exact .failed conn c name deviceId hconsumer hstage
    | ready =>
      rw [hstage] at h
      cases h
    | dropping =>
      rw [hstage] at h
      cases h
  | drop conn =>
    obtain ⟨c, hconsumer, h⟩ := bind_eq_some_iff.mp h
    by_cases hready : c.stage = .ready
    · rw [if_pos hready] at h
      cases h
      exact .dropped conn c hconsumer hready
    · rw [if_neg hready] at h
      cases h
  | leave conn deviceId newOwner =>
    obtain ⟨c, hconsumer, h⟩ := bind_eq_some_iff.mp h
    by_cases hstage : c.stage = .dropping
    · rw [if_pos hstage] at h
      obtain ⟨name, hjoined, h⟩ := bind_eq_some_iff.mp h
      obtain ⟨slot, hleaves, rfl⟩ := map_eq_some_iff.mp h
      exact .left conn deviceId newOwner c name slot hconsumer hstage hjoined hleaves
    · rw [if_neg hstage] at h
      cases h

def entryOf (slot : Option SharedMount) (conn : Nat) : Option Nat :=
  slot.bind fun m => m.members.lookup conn

def World.entry (w : World) (conn : Nat) (name : DosName) : Option Nat :=
  entryOf (w.slots name) conn

theorem lookup_insert_eq (members : Table Nat Nat) (conn deviceId other : Nat) :
    (members.insert conn deviceId).lookup other =
      if other = conn then some deviceId else members.lookup other := by
  by_cases hsame : other = conn
  · rw [if_pos hsame, hsame, lookup_insert]
  · rw [if_neg hsame, lookup_insert_ne hsame]

theorem entryOf_joinSlot (slot : Option SharedMount) (conn deviceId other : Nat) :
    entryOf (some (joinSlot slot conn deviceId)) other =
      if other = conn then some deviceId else entryOf slot other := by
  cases slot with
  | none => exact lookup_insert_eq ∅ conn deviceId other
  | some m => exact lookup_insert_eq m.members conn deviceId other

theorem lookup_erase_eq (members : Table Nat Nat) (conn other : Nat) :
    (members.erase conn).lookup other = if other = conn then none else members.lookup other := by
  by_cases hsame : other = conn
  · rw [if_pos hsame, hsame, lookup_erase]
  · rw [if_neg hsame, lookup_erase_ne hsame]

theorem lookup_eq_none_of_keys_nil {members : Table Nat Nat} (h : members.keys = []) (conn : Nat) :
    members.lookup conn = none :=
  lookup_eq_none.mpr fun hmem => List.not_mem_nil (h ▸ mem_keys.mp hmem)

variable {newOwner : Nat}

theorem leaveSlot_cases {m : SharedMount} {after : Option SharedMount}
    (h : leaveSlot (some m) conn newOwner = some after) :
    (m.members.erase conn).keys = [] ∧ after = none ∨
    (m.members.erase conn).keys ≠ [] ∧
    ((∃ deviceId,
        (m.members.erase conn).lookup newOwner = some deviceId ∧
        after = some ⟨newOwner, ⟨newOwner, deviceId⟩, m.members.erase conn⟩) ∨
     m.ownerConn ≠ conn ∧ after = some { m with members := m.members.erase conn }) := by
  simp only [leaveSlot] at h
  split at h
  · next hkeys => exact .inl ⟨hkeys, (some.inj h).symm⟩
  · next hkeys =>
    refine .inr ⟨hkeys, ?_⟩
    split at h
    · obtain ⟨deviceId, hentry, hafter⟩ := map_eq_some_iff.mp h
      exact .inl ⟨deviceId, hentry, hafter.symm⟩
    · next howner => exact .inr ⟨howner, (some.inj h).symm⟩

variable {slot : Option SharedMount}

theorem entryOf_leaveSlot {after : Option SharedMount}
    (h : leaveSlot slot conn newOwner = some after)
    (other : Nat) : entryOf after other = if other = conn then none else entryOf slot other := by
  cases slot with
  | none =>
    cases h
    exact (ite_self none).symm
  | some m =>
    show _ = if other = conn then none else m.members.lookup other
    rw [← lookup_erase_eq]
    rcases leaveSlot_cases h with ⟨hkeys, rfl⟩ | ⟨-, ⟨deviceId, -, rfl⟩ | ⟨-, rfl⟩⟩
    · exact (lookup_eq_none_of_keys_nil hkeys other).symm
    · rfl
    · rfl

theorem exists_member_of_leaveSlot {m : SharedMount}
    (h : leaveSlot slot conn newOwner = some (some m)) :
    ∃ other, (entryOf (some m) other).isSome := by
  have hkeys : m.members.keys ≠ [] := by
    cases slot with
    | none => cases h
    | some before =>
      rcases leaveSlot_cases h with ⟨-, hm⟩ | ⟨hkeys, ⟨deviceId, -, hm⟩ | ⟨-, hm⟩⟩ <;> cases hm
      · exact hkeys
      · exact hkeys
  obtain ⟨other, hother⟩ := List.exists_mem_of_ne_nil _ hkeys
  exact ⟨other, lookup_isSome.mpr (mem_keys.mpr hother)⟩

theorem entry_join (w : World) (conn : Nat) (c : Consumer) (name : DosName) (deviceId other : Nat)
    (name' : DosName) :
    (w.join conn c name deviceId).entry other name' =
      if other = conn ∧ name' = name then some deviceId else w.entry other name' := by
  unfold World.entry World.join
  dsimp only
  by_cases hname : name' = name
  · rw [hname, update_self, entryOf_joinSlot]
    simp only [and_true]
  · rw [update_of_ne hname, if_neg fun h => hname h.2]

theorem entry_leave {name : DosName}
    (h : leaveSlot (w.slots name) conn newOwner = some slot)
    (c : Consumer) (deviceId other : Nat) (name' : DosName) :
    (w.leave conn c deviceId name slot).entry other name' =
      if other = conn ∧ name' = name then none else w.entry other name' := by
  unfold World.entry World.leave
  dsimp only
  by_cases hname : name' = name
  · rw [hname, update_self, entryOf_leaveSlot h]
    simp only [and_true]
  · rw [update_of_ne hname, if_neg fun h => hname h.2]

end Kmsrdp.Source.Rdpdr.Registry
