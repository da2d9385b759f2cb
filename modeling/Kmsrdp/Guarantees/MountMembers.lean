import Kmsrdp.Library.PartialMap
import Kmsrdp.Source.Rdpdr.Registry

/-!
# Members of shared mounts after a disconnect

A consumer remembers its names by device id and, when dropped, leaves the last one for each. A name
it joined and forgot, because its device id was announced again under another, keeps the connection
as a member for good, and with it the mount.
-/
namespace Kmsrdp.Guarantees.MountMembers
open Library.Execution Library.PartialMap Source.Rdpdr.Registry Function

def Dropped (w : World) (conn : Nat) : Prop :=
  ∃ c, w.consumers conn = some c ∧ c.stage = .dropping ∧ ∀ deviceId, c.joined.lookup deviceId = none

/-- Every name in the list of joins, newest first, is the newest one of some device id. -/
def NamesRemembered (joins : List (Nat × DosName)) : Prop :=
  ∀ deviceId name, (deviceId, name) ∈ joins → ∃ deviceId', joins.lookup deviceId' = some name

def noted (w : World) (conn deviceId : Nat) : Option DosName :=
  (w.consumers conn).bind fun c => c.joined.lookup deviceId

/-- Until it is dropped, a consumer has noted the newest name of every device id; while it is
dropped the notes go one by one. A connection is a member under the names it has joined, except
those it has left, which are the names of a note that is gone. -/
structure Inv (w : World) : Prop where
  occupied : ∀ name m, w.slots name = some m → ∃ conn, (w.entry conn name).isSome
  unused : ∀ conn, w.nextConn ≤ conn → w.consumers conn = none
  no_joins : ∀ conn, w.consumers conn = none → w.joins conn = []
  noted_eq : ∀ conn c, w.consumers conn = some c → c.stage ≠ .dropping →
    ∀ deviceId, c.joined.lookup deviceId = (w.joins conn).lookup deviceId
  noted_newest : ∀ conn deviceId name, noted w conn deviceId = some name →
    (w.joins conn).lookup deviceId = some name
  member_iff : ∀ conn name, (w.entry conn name).isSome ↔ (∃ deviceId, (deviceId, name) ∈ w.joins conn) ∧
    ∀ deviceId, (w.joins conn).lookup deviceId = some name → noted w conn deviceId = some name

variable {w : World}

theorem inv_start : Inv .start where
  occupied := fun name m h => by cases h
  unused := fun conn h => rfl
  no_joins := fun conn h => rfl
  noted_eq := fun conn c h => by cases h
  noted_newest := fun conn deviceId name h => by cases h
  member_iff := fun conn name => iff_of_false Bool.false_ne_true fun ⟨⟨_, hmem⟩, _⟩ =>
    List.not_mem_nil hmem

theorem noted_update (consumers : Nat → Option Consumer) (conn : Nat) (c : Consumer)
    (other deviceId : Nat) :
    (update consumers conn (some c) other).bind (fun c => c.joined.lookup deviceId) =
      if other = conn then c.joined.lookup deviceId
        else (consumers other).bind fun c => c.joined.lookup deviceId := by
  by_cases hsame : other = conn
  · rw [if_pos hsame, hsame, update_self]
    rfl
  · rw [if_neg hsame, update_of_ne hsame]

theorem lookup_cons_eq (deviceId : Nat) (name : DosName) (joins : List (Nat × DosName))
    (other : Nat) :
    ((deviceId, name) :: joins).lookup other =
      if other = deviceId then some name else joins.lookup other := by
  rw [List.lookup_cons]
  by_cases hsame : other = deviceId
  · rw [if_pos hsame, beq_iff_eq.mpr hsame]
  · rw [if_neg hsame, beq_eq_false_iff_ne.mpr hsame]

theorem lookup_insert_note (joined : Kmsrdp.Source.Rdpdr.Table Nat DosName) (deviceId : Nat)
    (name : DosName) (other : Nat) :
    (joined.insert deviceId name).lookup other =
      if other = deviceId then some name else joined.lookup other := by
  by_cases hsame : other = deviceId
  · rw [if_pos hsame, hsame, AList.lookup_insert]
  · rw [if_neg hsame, AList.lookup_insert_ne hsame]

variable {conn : Nat} {c : Consumer}

theorem noted_eq_of_consumer (h : w.consumers conn = some c) (deviceId : Nat) :
    noted w conn deviceId = c.joined.lookup deviceId := by
  rw [noted, h]
  rfl

theorem Inv.of_noted
    (h : Inv w)
    {after : World}
    (hslots : after.slots = w.slots)
    (hjoins : after.joins = w.joins)
    (hnoted : ∀ conn deviceId, noted after conn deviceId = noted w conn deviceId)
    (hunused : ∀ conn, after.nextConn ≤ conn → after.consumers conn = none)
    (hgone : ∀ conn, after.consumers conn = none → w.consumers conn = none)
    (hnotes : ∀ conn c, after.consumers conn = some c → c.stage ≠ .dropping → ∀ deviceId,
        c.joined.lookup deviceId = (w.joins conn).lookup deviceId) : Inv after where
  occupied := by
    simp only [World.entry, hslots]
    exact h.occupied
  unused := hunused
  no_joins := by
    rw [hjoins]
    exact fun conn hnone => h.no_joins conn (hgone conn hnone)
  noted_eq := by
    rw [hjoins]
    exact hnotes
  noted_newest := by
    simp only [hnoted, hjoins]
    exact h.noted_newest
  member_iff := by
    simp only [World.entry, hslots, hnoted, hjoins]
    exact h.member_iff

theorem Inv.noteAnnounced (h : Inv w) (conn : Nat) (name : DosName) (deviceId : Nat) :
    Inv (w.noteAnnounced conn name deviceId) :=
  h.of_noted rfl rfl (fun _ _ => rfl) h.unused (fun _ => id) h.noted_eq

theorem Inv.setStage
    (h : Inv w)
    (hconsumer : w.consumers conn = some c)
    (stage : Stage)
    (hstage : stage ≠ .dropping → c.stage ≠ .dropping) : Inv (w.setStage conn c stage) := by
  have hnoted : ∀ other deviceId, noted (w.setStage conn c stage) other deviceId =
      noted w other deviceId := by
    intro other deviceId
    refine (noted_update w.consumers conn _ other deviceId).trans ?_
    by_cases hsame : other = conn
    · rw [if_pos hsame, hsame, noted_eq_of_consumer hconsumer]
    · rw [if_neg hsame]
      rfl
  refine h.of_noted rfl rfl hnoted (unused_replace h.unused hconsumer _)
    (fun other hnone => (none_of_update hnone).2)
    (entries_update (fun other c' _ => h.noted_eq other c') fun c' hc' hnot => ?_)
  cases hc'
  exact h.noted_eq conn c hconsumer (hstage hnot)

theorem Inv.member_iff_joined
    (h : Inv w)
    (hconsumer : w.consumers conn = some c)
    (hstage : c.stage ≠ .dropping)
    (name : DosName) :
    (w.entry conn name).isSome ↔ ∃ deviceId, (deviceId, name) ∈ w.joins conn := by
  rw [h.member_iff]
  refine and_iff_left_of_imp fun _ deviceId hnewest => ?_
  rw [noted_eq_of_consumer hconsumer, h.noted_eq conn c hconsumer hstage]
  exact hnewest

theorem Inv.connect (h : Inv w) (haveSession : Bool) : Inv (w.connect haveSession) := by
  have hfresh := h.unused w.nextConn (Nat.le_refl _)
  have hnoted : ∀ other deviceId, noted (w.connect haveSession) other deviceId =
      noted w other deviceId := by
    intro other deviceId
    refine (noted_update w.consumers w.nextConn _ other deviceId).trans ?_
    by_cases hsame : other = w.nextConn
    · rw [if_pos hsame, noted, hsame, hfresh]
      rfl
    · rw [if_neg hsame]
      rfl
  refine h.of_noted rfl rfl hnoted (unused_take h.unused _)
    (fun other hnone => (none_of_update hnone).2)
    (entries_update (fun other c' _ => h.noted_eq other c') fun c' hc' _ deviceId => ?_)
  cases hc'
  rw [h.no_joins w.nextConn hfresh]
  rfl

theorem Inv.join
    (h : Inv w)
    (hconsumer : w.consumers conn = some c)
    (hstage : c.stage ≠ .dropping)
    (name : DosName) (deviceId : Nat) : Inv (w.join conn c name deviceId) := by
  have hnoted : ∀ other deviceId', noted (w.join conn c name deviceId) other deviceId' =
      if other = conn then (c.joined.insert deviceId name).lookup deviceId'
        else noted w other deviceId' :=
    noted_update w.consumers conn _
  have hjoins : ∀ other, (w.join conn c name deviceId).joins other =
      if other = conn then (deviceId, name) :: w.joins conn else w.joins other :=
    fun other => update_apply w.joins conn _ other
  have hnewest : ∀ deviceId', (c.joined.insert deviceId name).lookup deviceId' =
      ((deviceId, name) :: w.joins conn).lookup deviceId' := by
    intro deviceId'
    rw [lookup_insert_note, lookup_cons_eq, h.noted_eq conn c hconsumer hstage]
  refine ⟨?_, ?_, ?_, ?_, ?_, ?_⟩
  · intro name' m hslot
    by_cases hname : name' = name
    · exact ⟨conn, by rw [entry_join, if_pos ⟨rfl, hname⟩]; rfl⟩
    · obtain ⟨other, hother⟩ := h.occupied name' m ((update_of_ne hname _ _).symm.trans hslot)
      exact ⟨other, by rw [entry_join, if_neg fun hsame => hname hsame.2]; exact hother⟩
  · exact unused_replace h.unused hconsumer _
  · intro other hother
    obtain ⟨hne, hnone⟩ := none_of_update hother
    rw [hjoins, if_neg hne]
    exact h.no_joins other hnone
  · refine entries_update (fun other c' hother hc' hnot deviceId' => ?_) fun c' hc' _ deviceId' => ?_
    · rw [hjoins, if_neg hother]
      exact h.noted_eq other c' hc' hnot deviceId'
    · cases hc'
      rw [hjoins, if_pos rfl]
      exact hnewest deviceId'
  · intro other deviceId' name' hname'
    rw [hnoted] at hname'
    rw [hjoins]
    by_cases hsame : other = conn
    · rw [if_pos hsame] at hname' ⊢
      rw [← hnewest]
      exact hname'
    · rw [if_neg hsame] at hname' ⊢
      exact h.noted_newest other deviceId' name' hname'
  · intro other name'
    rw [entry_join]
    simp only [hnoted, hjoins]
    by_cases hsame : other = conn
    · simp only [if_pos hsame, hnewest, imp_self, implies_true, and_true]
      rw [hsame]
      by_cases hname : name' = name
      · rw [if_pos ⟨rfl, hname⟩]
        exact iff_of_true rfl ⟨deviceId, hname ▸ List.mem_cons_self⟩
      · rw [if_neg fun h => hname h.2, h.member_iff_joined hconsumer hstage]
        refine exists_congr fun deviceId' => ?_
        rw [List.mem_cons, Prod.mk.injEq, or_iff_right fun h => hname h.2]
    · simp only [if_neg hsame]
      rw [if_neg fun h => hsame h.1]
      exact h.member_iff other name'

theorem Inv.leave
    (h : Inv w)
    {deviceId newOwner : Nat} {name : DosName} {slot : Option SharedMount}
    (hconsumer : w.consumers conn = some c)
    (hstage : c.stage = .dropping)
    (hjoined : c.joined.lookup deviceId = some name)
    (hleaves : leaveSlot (w.slots name) conn newOwner = some slot) :
    Inv (w.leave conn c deviceId name slot) := by
  have hnoted : ∀ other deviceId', noted (w.leave conn c deviceId name slot) other deviceId' =
      if other = conn ∧ deviceId' = deviceId then none else noted w other deviceId' := by
    intro other deviceId'
    refine (noted_update w.consumers conn _ other deviceId').trans ?_
    by_cases hsame : other = conn
    · rw [if_pos hsame, hsame, noted_eq_of_consumer hconsumer]
      simp only [true_and]
      by_cases hdevice : deviceId' = deviceId
      · rw [if_pos hdevice, hdevice, AList.lookup_erase]
      · rw [if_neg hdevice, AList.lookup_erase_ne hdevice]
    · rw [if_neg hsame, if_neg fun h => hsame h.1]
      rfl
  have hnewest :=
    h.noted_newest conn deviceId name ((noted_eq_of_consumer hconsumer deviceId).trans hjoined)
  refine ⟨?_, ?_, ?_, ?_, ?_, ?_⟩
  · intro name' m hslot
    by_cases hname : name' = name
    · rw [hname] at hslot ⊢
      have hafter : slot = some m := (update_self name _ w.slots).symm.trans hslot
      rw [hafter] at hleaves
      obtain ⟨other, hother⟩ := exists_member_of_leaveSlot hleaves
      refine ⟨other, ?_⟩
      show (entryOf (update w.slots name slot name) other).isSome
      rw [update_self, hafter]
      exact hother
    · obtain ⟨other, hother⟩ := h.occupied name' m ((update_of_ne hname _ _).symm.trans hslot)
      exact ⟨other, by rw [entry_leave hleaves, if_neg fun hsame => hname hsame.2]; exact hother⟩
  · exact unused_replace h.unused hconsumer _
  · exact fun other hother => h.no_joins other (none_of_update hother).2
  · refine entries_update (fun other c' _ => h.noted_eq other c') fun c' hc' hnot => ?_
    cases hc'
    exact absurd hstage hnot
  · intro other deviceId' name' hname'
    rw [hnoted] at hname'
    split at hname'
    · cases hname'
    · exact h.noted_newest other deviceId' name' hname'
  · intro other name'
    rw [entry_leave hleaves]
    by_cases hleft : other = conn ∧ name' = name
    · -- the name just left: its device id has no note any more
      obtain ⟨rfl, rfl⟩ := hleft
      rw [if_pos ⟨rfl, rfl⟩]
      refine iff_of_false Bool.false_ne_true fun hmember => ?_
      have hkept := hmember.2 deviceId hnewest
      rw [hnoted, if_pos ⟨rfl, rfl⟩] at hkept
      cases hkept
    · rw [if_neg hleft, h.member_iff]
      refine and_congr_right fun _ => forall_congr' fun deviceId' => imp_congr_right fun hnewest' => ?_
      rw [hnoted, if_neg]
      rintro ⟨rfl, rfl⟩
      exact hleft ⟨rfl, Option.some.inj (hnewest'.symm.trans hnewest)⟩

theorem inv_step (w : World) (action : Action) (after : World)
    (h : Inv w)
    (hstep : step w action = some after) : Inv after := by
  cases change_of_step hstep with
  | connected haveSession => exact h.connect haveSession
  | ignored conn deviceId deviceType dosName => exact h
  | entered conn deviceId deviceType dosName c m consumer ready serves slot =>
    exact (h.noteAnnounced conn _ deviceId).join consumer (ready.trans_ne Stage.noConfusion) _ deviceId
  | mounting conn deviceId deviceType dosName c consumer ready serves slot =>
    exact (h.noteAnnounced conn _ deviceId).setStage consumer _ fun _ =>
      ready.trans_ne Stage.noConfusion
  | mounted conn c name deviceId consumer stage =>
    exact h.join consumer (stage.trans_ne Stage.noConfusion) name deviceId
  | failed conn c name deviceId consumer stage =>
    exact h.setStage consumer _ fun _ => stage.trans_ne Stage.noConfusion
  | dropped conn c consumer ready =>
    exact h.setStage consumer _ fun _ => ready.trans_ne Stage.noConfusion
  | left conn deviceId newOwner c name slot consumer stage joined leaves =>
    exact h.leave consumer stage joined leaves

/-- Until its consumer is dropped, a connection is a member under the names it has joined, whatever
others do. -/
theorem member_while_live (schedule : List Action) :
    Always step
      (fun w => ∀ conn c, w.consumers conn = some c → c.stage ≠ .dropping → ∀ name,
         (w.entry conn name).isSome ↔ ∃ deviceId, (deviceId, name) ∈ w.joins conn) .start
      schedule :=
  always_of_invariant Inv (fun _ h _ _ => h.member_iff_joined) inv_step schedule inv_start

/-- In every reachable state a mount exists exactly while it has members; and a connection whose
consumer has been dropped is no member of any mount exactly when every name it joined was still the
newest name of one of its device ids. -/
theorem gone_after_drop_iff (schedule : List Action) {w : World}
    (hrun : exec step .start schedule = some w) :
    (∀ name, (w.slots name).isSome ↔ ∃ conn, (w.entry conn name).isSome) ∧
    ∀ conn, Dropped w conn →
      ((∀ name, w.entry conn name = none) ↔ NamesRemembered (w.joins conn)) := by
  have h := exec_invariant Inv inv_step schedule inv_start hrun
  refine ⟨fun name => ⟨fun hsome => ?_, fun ⟨conn, hentry⟩ => ?_⟩, fun conn hdropped => ?_⟩
  · obtain ⟨m, hslot⟩ := Option.isSome_iff_exists.mp hsome
    exact h.occupied name m hslot
  · cases hslot : w.slots name with
    | none =>
      rw [World.entry, hslot] at hentry
      cases hentry
    | some m => rfl
  · obtain ⟨c, hconsumer, -, hempty⟩ := hdropped
    have hgone : ∀ deviceId, noted w conn deviceId = none := fun deviceId =>
      (noted_eq_of_consumer hconsumer deviceId).trans (hempty deviceId)
    constructor
    · intro hnone deviceId name hmem
      by_contra hforgotten
      have hmember := (h.member_iff conn name).mpr ⟨⟨deviceId, hmem⟩, fun deviceId' hnewest =>
        absurd ⟨deviceId', hnewest⟩ hforgotten⟩
      rw [hnone name] at hmember
      cases hmember
    · intro hremembered name
      rw [← Option.not_isSome_iff_eq_none, h.member_iff]
      rintro ⟨⟨deviceId, hmem⟩, hkept⟩
      obtain ⟨deviceId', hnewest⟩ := hremembered deviceId name hmem
      exact Option.some_ne_none _ ((hkept deviceId' hnewest).symm.trans (hgone deviceId'))

def sameDirectory : List Action :=
  [.connect true, .announce 1 1 rdpdrDtypFilesystem ['a', ':'], .mounted 1 true,
    .announce 1 2 rdpdrDtypFilesystem ['a', '_'], .drop 1, .leave 1 1 0, .leave 1 2 0]

theorem sameDirectory_gone :
    ∃ w, exec step .start sameDirectory = some w ∧ ∀ name, w.entry 1 name = none := by
  refine ⟨_, rfl, ((gone_after_drop_iff sameDirectory rfl).2 1 ⟨_, rfl, rfl, fun _ => rfl⟩).mpr ?_⟩
  intro deviceId name hmem
  refine ⟨1, ?_⟩
  rcases List.mem_cons.mp hmem with h | h
  · cases h
    rfl
  · cases List.mem_singleton.mp h
    rfl

def renamed : List Action :=
  [.connect true, .announce 1 1 rdpdrDtypFilesystem ['C'], .mounted 1 true,
    .announce 1 1 rdpdrDtypFilesystem ['D'], .mounted 1 true, .drop 1, .leave 1 1 0]

/-- Its consumer has been dropped, and the mount of `C` still has it as its only member. -/
theorem renamed_still_member :
    ∃ w,
      exec step .start renamed = some w ∧
      Dropped w 1 ∧
      w.entry 1 ['C'] = some 1 ∧
      w.entry 1 ['D'] = none :=
  ⟨_, rfl, ⟨_, rfl, rfl, fun _ => rfl⟩, rfl, rfl⟩

end Kmsrdp.Guarantees.MountMembers
