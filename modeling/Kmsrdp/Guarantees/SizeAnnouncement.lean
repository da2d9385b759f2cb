import Kmsrdp.Source.Server.SizeAnnouncement
import Kmsrdp.Guarantees.Authentication
import Kmsrdp.Guarantees.ResizeDelivery

/-!
# The announced desktop size

Once a session is not resizing and has drained its updates, the size last announced should be the
hub's. A new size comes as one `Resized`, which is lost when it is sent before the session
subscribes, falls into a lag, or arrives while another resize is in flight.
-/
namespace Kmsrdp.Guarantees.SizeAnnouncement
open Library.ByteString Library.Execution Source.Connector Source.Hub Source.Server List Option
open Source.Server.SlowPath (SlowPathSide StaticChannels)
open Source.Server.SizeAnnouncement Guarantees.ResizeDelivery

/-- The session is not resizing, and `next_update` would wait. -/
def SettledAt (hub : DisplayHub) : Stage → Prop
  | .steady side updates =>
    side.resizing = false ∧ hub.publishing = none ∧ updates.nextUpdate hub = none
  | _ => False

instance (hub : DisplayHub) : (stage : Stage) → Decidable (SettledAt hub stage)
  | .steady _ _ => inferInstanceAs (Decidable (_ ∧ _))
  | .connecting | .negotiating _ | .closed => isFalse not_false

def Settled (w : World) : Prop := SettledAt w.hub w.stage

instance (w : World) : Decidable (Settled w) :=
  inferInstanceAs (Decidable (SettledAt w.hub w.stage))

/-- A settled client has been told the hub's size. -/
def Announced (w : World) : Prop := Settled w → w.announced = some w.hub.size

def lost (hub : DisplayHub) (side : SlowPathSide) (updates : DisplayUpdates) : Nat :=
  if updates.initial then 0
  else if updates.Lagged hub then hub.sent.length - broadcastCapacity - updates.position
  else if side.resizing then 1
  else 0

/-- The last size among the lost updates is followed by another, or announced already. -/
def Superseded (w : World) (side : SlowPathSide) (updates : DisplayUpdates) : Prop :=
  w.hub.publishing = none →
    ∀ size ∈ lastResized ((w.hub.sent.drop updates.position).take (lost w.hub side updates)),
      (lastResized ((w.hub.sent.drop updates.position).drop (lost w.hub side updates))).isSome ∨
        w.announced = some size

instance (w : World) (side : SlowPathSide) (updates : DisplayUpdates) :
    Decidable (Superseded w side updates) :=
  inferInstanceAs (Decidable (_ → ∀ size ∈ lastResized _, _ ∨ _))

def CoveredAt (w : World) : Action → Stage → Prop
  | .enterSteadyState, .negotiating acceptor =>
    w.hub.publishing = none → acceptor.desktop = (w.hub.size.width, w.hub.size.height)
  | .nextUpdate, .steady side updates => Superseded w side updates
  | _, _ => True

instance (w : World) : (action : Action) → (stage : Stage) → Decidable (CoveredAt w action stage)
  | .enterSteadyState, .negotiating _ => inferInstanceAs (Decidable (_ → _))
  | .enterSteadyState, .connecting | .enterSteadyState, .steady _ _ | .enterSteadyState, .closed =>
    isTrue trivial
  | .nextUpdate, .steady side updates => inferInstanceAs (Decidable (Superseded w side updates))
  | .nextUpdate, .connecting | .nextUpdate, .negotiating _ | .nextUpdate, .closed => isTrue trivial
  | .capture _ _, _ | .publish, _ | .beginHandshake _, _ | .handshake _, _ | .approveClientInfo, _
  | .slowPath _, _ | .disconnect, _ => isTrue trivial

def Covered (w : World) (action : Action) : Prop := CoveredAt w action w.stage

instance (w : World) (action : Action) : Decidable (Covered w action) :=
  inferInstanceAs (Decidable (CoveredAt w action w.stage))

/-- A turn of the capture loop leaves another size to be published, or it adds bitmaps. -/
inductive Captured (hub : DisplayHub) : DisplayHub → Prop
  | resized (after : DisplayHub) (hsent : after.sent = hub.sent)
      (hpublishing : after.publishing = some after.size) :
      Captured hub after
  | same (after : DisplayHub) (n : Nat) (hsent : after.sent = hub.sent ++ List.replicate n .bitmap)
      (hsize : after.size = hub.size) (hbefore : hub.publishing = none)
      (hpublishing : after.publishing = none) :
      Captured hub after

theorem captured_capture {hub after : DisplayHub} {size : DesktopSize} {dirty : Option Nat}
    (h : hub.capture size dirty = some after) : Captured hub after := by
  unfold DisplayHub.capture at h
  split at h
  · cases h
  · next hnone =>
    split at h
    · cases h
      exact .resized _ rfl rfl
    · split at h
      · cases h
        exact .same hub 0 (append_nil _).symm rfl hnone hnone
      · next rects =>
        cases h
        exact .same _ rects rfl rfl hnone hnone

/-- What `next_update` gives: the frame to begin with, what makes up for a lag, or the next update.
-/
inductive Received (hub : DisplayHub) (updates : DisplayUpdates) :
    Option DisplayUpdate × DisplayUpdates → Prop
  | initial (hinitial : updates.initial = true) :
      Received hub updates (some .bitmap, { updates with initial := false })
  | lagged (hinitial : updates.initial = false) (hlagged : updates.Lagged hub)
      (update : Option DisplayUpdate)
      (hbitmap : ∀ size, update ≠ some (.resized size)) :
      Received hub updates (update, { updates with position := hub.sent.length - broadcastCapacity })
  | next (hinitial : updates.initial = false) (hlagged : ¬ updates.Lagged hub) (update : DisplayUpdate)
      (rest : List DisplayUpdate) (hdrop : hub.sent.drop updates.position = update :: rest) :
      Received hub updates (some update, { updates with position := updates.position + 1 })

variable {updates : DisplayUpdates} {result : Option DisplayUpdate × DisplayUpdates}

theorem received_nextUpdate {hub : DisplayHub} (h : updates.nextUpdate hub = some result) :
    Received hub updates result := by
  unfold DisplayUpdates.nextUpdate at h
  split at h
  · next hinitial =>
    cases h
    exact .initial hinitial
  · next hinitial =>
    have hinitial : updates.initial = false := by simpa using hinitial
    split at h
    · next hlagged =>
      cases h
      refine .lagged hinitial hlagged _ fun size => ?_
      split <;> exact fun heq => nomatch heq
    · next hlagged =>
      obtain ⟨update, hget, rfl⟩ := map_eq_some_iff.mp h
      obtain ⟨hlt, hget⟩ := List.getElem?_eq_some_iff.mp hget
      exact .next hinitial hlagged update _ (hget ▸ drop_eq_getElem_cons hlt)

theorem noDemandActive_step (a : Acceptor) (input : Bytes) :
    Acceptor.NoDemandActive (responseOf ((a.step input).1.map StepResult.response)) := by
  have houtcome := Acceptor.step_outcome a input
  generalize a.step input = outcome at houtcome
  cases houtcome with
  | failed error b admitted waiting => exact fun _ _ hmem => nomatch hmem
  | answered response event b quiet unasked accepted admitted waiting => exact quiet
  | clientInfo credentials b phase =>
    intro width height hmem
    cases mem_singleton.mp hmem

theorem announce_reactivationResponse (announced : Option DesktopSize) (side : SlowPathSide)
    (frame : Bytes) : announce announced (reactivationResponse side frame) = announced := by
  unfold reactivationResponse
  split
  · exact announce_of_noDemandActive _ (noDemandActive_step _ _)
  · rfl

variable {side : SlowPathSide}

theorem resizingFollows_slowPath (channels : StaticChannels) {after : SlowPathSide}
    {frame : Bytes}
    (h : ResizingFollows side)
    (hstep : SlowPath.step channels side (.slowPath frame) = some after) :
    ResizingFollows after := by
  rcases h with ⟨hresizing, hphase⟩ | ⟨hidle, hphase⟩
  · obtain ⟨after', hstep', _, _, hfollows⟩ := step_frame_resizing channels frame hresizing hphase
    cases hstep.symm.trans hstep'
    exact hfollows
  · simp only [SlowPath.step, hidle, Bool.false_eq_true, if_false] at hstep
    cases hstep
    exact .inr ⟨rfl, hphase⟩

theorem step_resized (channels : StaticChannels)
    (h : ResizingFollows side)
    (size : DesktopSize) (announced : Option DesktopSize) :
    ∃ after,
      SlowPath.step channels side (.resized size.width size.height) = some after ∧
      ResizingFollows after ∧
      announce announced (resizeResponse side size) =
        if side.resizing then announced else some size := by
  rcases h with ⟨hresizing, hphase⟩ | ⟨hidle, hphase⟩
  · refine ⟨side, by simp [SlowPath.step, hresizing], .inl ⟨hresizing, hphase⟩, ?_⟩
    simp [resizeResponse, hresizing, announce]
  · have hstep : SlowPath.step channels side (.resized size.width size.height) =
        some { side with
          acceptor := (side.acceptor.beginResize size.width size.height).2, resizing := true } := by
      simp [SlowPath.step, hidle, Acceptor.beginResize, hphase]
    refine ⟨_, hstep, .inl ⟨rfl, .inl ?_⟩, ?_⟩
    · simp [Acceptor.beginResize, hphase]
    simp [resizeResponse, hidle, Acceptor.beginResize, hphase, responseOf, announce]

/-- Behind the subscription: what is still to be received ends with the hub's size, or that is
announced already. -/
structure Catching (hub : DisplayHub) (announced : Option DesktopSize) (side : SlowPathSide)
    (updates : DisplayUpdates) : Prop where
  follows : ResizingFollows side
  position : updates.position ≤ hub.sent.length
  reaches : hub.publishing = none →
    (lastResized (hub.sent.drop updates.position)).or announced = some hub.size

def Expects (hub : DisplayHub) (announced : Option DesktopSize) : Stage → Prop
  | .negotiating a => a.Admitted → announced = some ⟨a.desktopWidth, a.desktopHeight⟩
  | .steady side updates => Catching hub announced side updates
  | _ => True

structure Inv (w : World) : Prop where
  publishing : ∀ size ∈ w.hub.publishing, size = w.hub.size
  stage : Expects w.hub w.announced w.stage

variable {w : World}

theorem Inv.announced (h : Inv w) : Announced w := by
  intro hsettled
  have hstage := h.stage
  unfold Settled at hsettled
  cases hsteady : w.stage with
  | steady side updates =>
    rw [hsteady] at hstage hsettled
    obtain ⟨_, hpublishing, hwaits⟩ := hsettled
    unfold DisplayUpdates.nextUpdate at hwaits
    split at hwaits
    · cases hwaits
    · split at hwaits
      · cases hwaits
      · have hend := getElem?_eq_none_iff.mp (map_eq_none_iff.mp hwaits)
        have hreaches := hstage.reaches hpublishing
        rwa [drop_eq_nil_of_le hend] at hreaches
  | connecting => exact (hsteady ▸ hsettled : SettledAt w.hub .connecting).elim
  | negotiating acceptor => exact (hsteady ▸ hsettled : SettledAt w.hub (.negotiating acceptor)).elim
  | closed => exact (hsteady ▸ hsettled : SettledAt w.hub .closed).elim

theorem inv_start (size : DesktopSize) : Inv (start size) := ⟨fun _ hmem => (nomatch hmem), trivial⟩

theorem Expects.hub {hub after : DisplayHub} {announced : Option DesktopSize} {stage : Stage}
    (h : Expects hub announced stage)
    (added : List DisplayUpdate)
    (hsent : after.sent = hub.sent ++ added)
    (hreaches : after.publishing = none →
        lastResized added = some after.size ∨
        lastResized added = none ∧ hub.publishing = none ∧ after.size = hub.size) :
    Expects after announced stage := by
  cases stage with
  | steady side updates =>
    obtain ⟨hfollows, hposition, hbefore⟩ := h
    refine ⟨hfollows, ?_, fun hpublishing => ?_⟩
    · rw [hsent, length_append]
      exact Nat.le_add_right_of_le hposition
    · rw [hsent, drop_append_of_le_length hposition, lastResized_append]
      rcases hreaches hpublishing with hlast | ⟨hlast, hnone, hsize⟩
      · rw [hlast]
        rfl
      · rw [hlast, hsize]
        exact hbefore hnone
  | connecting => exact h
  | negotiating acceptor => exact h
  | closed => exact h

theorem inv_capture (h : Inv w) {hub : DisplayHub} (hcaptured : Captured w.hub hub) :
    Inv { w with hub } := by
  cases hcaptured with
  | resized hsent hpublishing =>
    refine ⟨fun size hmem => ?_, h.stage.hub [] (by simp [hsent]) fun hnone => ?_⟩
    · rw [hpublishing] at hmem
      cases hmem
      rfl
    · rw [hpublishing] at hnone
      cases hnone
  | same n hsent hsize hbefore hpublishing =>
    refine ⟨fun size hmem => ?_, h.stage.hub _ hsent fun _ =>
      .inr ⟨lastResized_replicate_bitmap n, hbefore, hsize⟩⟩
    rw [hpublishing] at hmem
    cases hmem

theorem inv_publish (h : Inv w) {hub : DisplayHub} (hpublish : w.hub.publish = some hub) :
    Inv { w with hub } := by
  obtain ⟨size, hsize, rfl⟩ := map_eq_some_iff.mp hpublish
  refine ⟨fun _ hmem => (nomatch hmem), h.stage.hub [.resized size] rfl fun _ => .inl ?_⟩
  rw [h.publishing size hsize]
  rfl

variable {acceptor : Acceptor}

theorem inv_handshake
    (h : Inv w)
    (hstage : w.stage = .negotiating acceptor)
    (input : Bytes) {result : StepResult} {after : Acceptor}
    (hstep : acceptor.step input = (.ok result, after)) :
    Inv
      { w with
        stage := .negotiating after
        announced := announce w.announced result.response } := by
  have hquiet := noDemandActive_step acceptor input
  have hdesktop := (Acceptor.kept_desktop acceptor.desktop).step rfl input
  have houtcome := Acceptor.step_outcome acceptor input
  rw [hstep] at hquiet hdesktop houtcome
  have hadmitted : after.Admitted → acceptor.Admitted := by
    cases houtcome with
    | answered response event b quiet unasked accepted admitted waiting => exact admitted
    | clientInfo credentials b phase =>
      rintro ((hphase | ⟨granted, hphase⟩) | hphase) <;> cases phase.symm.trans hphase
  refine ⟨h.publishing, fun hafter => ?_⟩
  have hbefore := h.stage
  rw [hstage] at hbefore
  have hsame : announce w.announced result.response = w.announced := announce_of_noDemandActive _ hquiet
  rw [hsame, hbefore (hadmitted hafter)]
  have hwidth : after.desktopWidth = acceptor.desktopWidth := congrArg Prod.fst hdesktop
  have hheight : after.desktopHeight = acceptor.desktopHeight := congrArg Prod.snd hdesktop
  rw [hwidth, hheight]

theorem inv_approveClientInfo
    (h : Inv w)
    {after : Acceptor} {response : List ServerPdu}
    (happrove : acceptor.approveClientInfo = (.ok response, after)) :
    Inv { w with stage := .negotiating after, announced := announce w.announced response } := by
  unfold Acceptor.approveClientInfo at happrove
  split at happrove
  · cases happrove
    exact ⟨h.publishing, fun _ => rfl⟩
  · cases happrove

theorem reaches_of_superseded
    (h : Catching w.hub w.announced side updates)
    (hsuperseded : Superseded w side updates)
    (hpublishing : w.hub.publishing = none) :
    (lastResized ((w.hub.sent.drop updates.position).drop (lost w.hub side updates))).or
      w.announced =
      some w.hub.size := by
  have hreaches := h.reaches hpublishing
  have hsplit := take_append_drop (lost w.hub side updates) (w.hub.sent.drop updates.position)
  rw [← hsplit, lastResized_append] at hreaches
  have hsuperseded := hsuperseded hpublishing
  cases hrest : lastResized ((w.hub.sent.drop updates.position).drop (lost w.hub side updates)) with
  | some size =>
    rw [hrest] at hreaches
    exact hreaches
  | none =>
    rw [hrest, none_or] at hreaches
    cases hlost : lastResized ((w.hub.sent.drop updates.position).take (lost w.hub side updates)) with
    | none =>
      rw [hlost] at hreaches
      exact hreaches
    | some size =>
      rw [hlost] at hreaches
      rcases hsuperseded size hlost with hsome | hannounced
      · rw [hrest] at hsome
        cases hsome
      · rw [none_or, hannounced]
        exact hreaches

variable {channels : StaticChannels}

theorem inv_resized {t : World}
    (h : Inv w)
    (hcatching : Catching w.hub w.announced side updates)
    (hsuperseded : Superseded w side updates)
    (hinitial : updates.initial = false)
    (hlagged : ¬ updates.Lagged w.hub)
    {size : DesktopSize} {rest : List DisplayUpdate}
    (hdrop : w.hub.sent.drop updates.position = .resized size :: rest)
    (hposition : updates.position + 1 ≤ w.hub.sent.length)
    (hrest : w.hub.sent.drop (updates.position + 1) = rest)
    (hstep : onUpdate channels w side { updates with position := updates.position + 1 }
        (some (.resized size)) =
        some t) : Inv t := by
  obtain ⟨after, hside, hfollows, hannounce⟩ := step_resized channels hcatching.follows size w.announced
  simp only [onUpdate, hside, map_some] at hstep
  cases hstep
  refine ⟨h.publishing, hfollows, hposition, fun hpublishing => ?_⟩
  rw [hannounce, hrest]
  cases hresizing : side.resizing with
  | true =>
    have hlost : lost w.hub side updates = 1 := by simp [lost, hinitial, hlagged, hresizing]
    have hafter := reaches_of_superseded hcatching hsuperseded hpublishing
    rw [hlost, hdrop] at hafter
    exact hafter
  | false =>
    have hreaches := hcatching.reaches hpublishing
    rw [hdrop, lastResized] at hreaches
    cases hlast : lastResized rest with
    | none =>
      rw [hlast] at hreaches
      exact hreaches
    | some last =>
      rw [hlast] at hreaches
      exact hreaches

variable {t : World}

theorem inv_nextUpdate
    (h : Inv w)
    (hstage : w.stage = .steady side updates)
    (hsuperseded : Superseded w side updates)
    (hreceived : Received w.hub updates result)
    (hstep : onUpdate channels w side result.2 result.1 = some t) : Inv t := by
  have hcatching : Catching w.hub w.announced side updates := by
    have hbefore := h.stage
    rwa [hstage] at hbefore
  have hskipped := reaches_of_superseded hcatching hsuperseded
  cases hreceived with
  | initial hinitial =>
    cases hstep
    exact ⟨h.publishing, hcatching.follows, hcatching.position, hcatching.reaches⟩
  | lagged hinitial hlagged update hbitmap =>
    have hlost : lost w.hub side updates =
        w.hub.sent.length - broadcastCapacity - updates.position := by
      simp [lost, hinitial, hlagged]
    have hjump : updates.position + (w.hub.sent.length - broadcastCapacity - updates.position) =
        w.hub.sent.length - broadcastCapacity := by
      unfold DisplayUpdates.Lagged at hlagged
      omega
    rw [hlost, drop_drop, hjump] at hskipped
    have ht : t =
        { w with stage := .steady side { updates with
          position := w.hub.sent.length - broadcastCapacity } } := by
      match update, hbitmap with
      | none, _ => exact (some.inj hstep).symm
      | some .bitmap, _ => exact (some.inj hstep).symm
      | some (.resized size), hbitmap => exact absurd rfl (hbitmap size)
    rw [ht]
    exact ⟨h.publishing, hcatching.follows, Nat.sub_le _ _, hskipped⟩
  | next hinitial hlagged update rest hdrop =>
    have hrest : w.hub.sent.drop (updates.position + 1) = rest := by
      rw [← drop_drop, hdrop]
      rfl
    have hposition : updates.position + 1 ≤ w.hub.sent.length := by
      have hlength := congrArg length hdrop
      rw [length_drop, length_cons] at hlength
      omega
    cases update with
    | bitmap =>
      cases hstep
      refine ⟨h.publishing, hcatching.follows, hposition, fun hpublishing => ?_⟩
      have hreaches := hcatching.reaches hpublishing
      rw [hdrop] at hreaches
      rw [hrest]
      exact hreaches
    | resized size =>
      exact inv_resized h hcatching hsuperseded hinitial hlagged hdrop hposition hrest hstep

theorem inv_enterSteadyState
    (h : Inv w)
    (hstage : w.stage = .negotiating acceptor)
    (hphase : acceptor.phase = .accepted)
    (hcovered : Covered w .enterSteadyState) :
    Inv { w with stage := .steady (SlowPath.start acceptor) w.hub.subscribe } := by
  have hbefore := h.stage
  rw [hstage] at hbefore
  simp only [Covered, hstage] at hcovered
  refine ⟨h.publishing, .inr ⟨rfl, hphase⟩, Nat.le_refl _, fun hpublishing => ?_⟩
  have hdesktop : acceptor.desktop = (w.hub.size.width, w.hub.size.height) := hcovered hpublishing
  have hannounced := hbefore (.inr hphase)
  rw [show acceptor.desktopWidth = w.hub.size.width from congrArg Prod.fst hdesktop,
    show acceptor.desktopHeight = w.hub.size.height from congrArg Prod.snd hdesktop] at hannounced
  simp only [DisplayHub.subscribe, drop_length]
  exact hannounced

theorem inv_step {action : Action}
    (h : Inv w)
    (hcovered : Covered w action)
    (hstep : step channels w action = some t) : Inv t := by
  cases action <;> simp only [step] at hstep
  case capture size dirty =>
    obtain ⟨hub, hcapture, rfl⟩ := map_eq_some_iff.mp hstep
    exact inv_capture h (captured_capture hcapture)
  case publish =>
    obtain ⟨hub, hpublish, rfl⟩ := map_eq_some_iff.mp hstep
    exact inv_publish h hpublish
  case beginHandshake requireNla =>
    split at hstep
    · cases hstep
      refine ⟨h.publishing, fun hadmitted => ?_⟩
      rcases hadmitted with (hphase | ⟨granted, hphase⟩) | hphase <;> cases hphase
    · cases hstep
  case handshake input =>
    split at hstep
    · next acceptor hstage =>
      split at hstep
      · next result after hacceptor =>
        cases hstep
        exact inv_handshake h hstage input hacceptor
      · cases hstep
        exact ⟨h.publishing, trivial⟩
    · cases hstep
  case approveClientInfo =>
    split at hstep
    · split at hstep
      · next response after happrove =>
        cases hstep
        exact inv_approveClientInfo h happrove
      · cases hstep
        exact ⟨h.publishing, trivial⟩
    · cases hstep
  case enterSteadyState =>
    split at hstep
    · next acceptor hstage =>
      obtain ⟨hphase, ⟨⟩⟩ := ite_none_right_eq_some.mp hstep
      exact inv_enterSteadyState h hstage hphase hcovered
    · cases hstep
  case slowPath frame =>
    split at hstep
    · next side updates hstage =>
      obtain ⟨after, hside, rfl⟩ := map_eq_some_iff.mp hstep
      have hbefore := h.stage
      rw [hstage] at hbefore
      refine ⟨h.publishing, resizingFollows_slowPath channels hbefore.follows hside,
        hbefore.position, ?_⟩
      rw [announce_reactivationResponse]
      exact hbefore.reaches
    · cases hstep
  case nextUpdate =>
    split at hstep
    · next side updates hstage =>
      obtain ⟨result, hnext, hupdate⟩ := bind_eq_some_iff.mp hstep
      simp only [Covered, hstage] at hcovered
      exact inv_nextUpdate h hstage hcovered (received_nextUpdate hnext) hupdate
    · cases hstep
  case disconnect =>
    cases hstep
    exact ⟨h.publishing, trivial⟩

/-- In every run in which the session subscribes in time and no last `Resized` is lost, whenever
the session is settled the announced size is the hub's. -/
theorem announced_always_of_covered (channels : StaticChannels) (size : DesktopSize)
    (schedule : List Action)
    (hcovered : Careful (step channels) Covered (start size) schedule) :
    Always (step channels) Announced (start size) schedule :=
  always_of_careful Inv (fun _ h => h.announced)
    (fun _ _ _ h hok hstep => inv_step h hok hstep) schedule
    (inv_start size) hcovered

open Guarantees.Authentication

def noChannels : StaticChannels := ⟨none, none, none, none⟩

def demandedRun : List Action :=
  [.beginHandshake true, .handshake connectionRequest, .handshake connectInitial, .handshake domainUnit,
    .handshake (clientInfoUnit [97]), .approveClientInfo]

def acceptedRun : List Action :=
  [.handshake confirmActiveUnit, .handshake fontListUnit, .enterSteadyState]

def coveredRun : List Action :=
  demandedRun ++ acceptedRun ++
    [.capture ⟨800, 600⟩ none, .publish, .capture ⟨640, 480⟩ none, .publish, .nextUpdate,
      .slowPath confirmActiveUnit, .slowPath fontListUnit, .nextUpdate, .slowPath confirmActiveUnit,
      .slowPath fontListUnit]

theorem announced_coveredRun :
    Careful (step noChannels) Covered (start ⟨1024, 768⟩) coveredRun ∧
    (exec (step noChannels) (start ⟨1024, 768⟩) coveredRun).any
      (fun w => w.hub.size = ⟨640, 480⟩ ∧ w.announced = some ⟨640, 480⟩) =
      true ∧
    Always (step noChannels) Announced (start ⟨1024, 768⟩) coveredRun := by
  have hcovered : Careful (step noChannels) Covered (start ⟨1024, 768⟩) coveredRun := by decide +kernel
  exact ⟨hcovered, by decide +kernel,
    announced_always_of_covered noChannels ⟨1024, 768⟩ coveredRun hcovered⟩

def resizedInHandshake : List Action :=
  demandedRun ++ [.capture ⟨800, 600⟩ none, .publish] ++ acceptedRun

/-- The session is settled, and the client still has the old size. -/
theorem resize_in_handshake_lost :
    ∃ w,
      exec (step noChannels) (start ⟨1024, 768⟩) resizedInHandshake = some w ∧
      Settled w ∧
      w.announced = some ⟨1024, 768⟩ ∧
      w.hub.size = ⟨800, 600⟩ ∧
      ¬ Announced w := by
  have hrun : (exec (step noChannels) (start ⟨1024, 768⟩) resizedInHandshake).any
      (fun w => Settled w ∧ w.announced = some ⟨1024, 768⟩ ∧ w.hub.size = ⟨800, 600⟩) =
        true := by decide +kernel
  obtain ⟨w, hw, hbad⟩ := (any_eq_true _ _).mp hrun
  obtain ⟨hsettled, hannounced, hsize⟩ := of_decide_eq_true hbad
  refine ⟨w, hw, hsettled, hannounced, hsize, fun h => ?_⟩
  have hsame := hannounced.symm.trans (h hsettled)
  rw [hsize] at hsame
  cases hsame

end Kmsrdp.Guarantees.SizeAnnouncement
