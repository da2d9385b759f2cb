import Kmsrdp.Library.Execution
import Kmsrdp.Client.GfxSurfaces

/-!
# The surfaces of a GFX session

A session whose encoder always gives a bitstream should never create a surface still live, write to
or delete one that is not, or keep two live, and should begin every surface with an IDR frame.
-/
namespace Kmsrdp.Guarantees.GfxSurfaces
open Library.Execution Source.Rdpegfx Client.GfxSurfaces Inner Option

structure Run where
  inner : Inner
  client : Surfaces

inductive Event where
  | message (message : ClientMessage)
  | resize (width height : UInt16)
  | encodeFrame (width height : UInt16) (encoded : EncodedAu)

def asksIdr (inner : Inner) (width height : Nat) : Bool :=
  match (inner.beginEncode width height).1 with
  | .ok (_, forceIdr) => forceIdr
  | .error _ => false

def step (r : Run) : Event → Option Run
  | .message message =>
    let handled := r.inner.onClientMessage message
    some ⟨handled.2, r.client.receive false handled.1⟩
  | .resize width height =>
    let resized := r.inner.resize width.toNat height.toNat
    some ⟨resized.2, r.client.receive false (resized.1.getD [])⟩
  | .encodeFrame width height encoded =>
    if encoded.annexB = [] then none
    else
      let result := r.inner.encodeFrame width.toNat height.toNat (some encoded) none
      some ⟨result.2, r.client.receive (asksIdr r.inner width.toNat height.toNat) (payloadsOf result.1)⟩

def start (width height : UInt16) : Run := ⟨.new width.toNat height.toNat, .empty⟩

def Fault.OfSurfaces : Fault → Prop
  | .createLive _ | .deleteMissing _ | .writeMissing _ | .firstNotIdr _ => True
  | .writeWrongSize _ => False

/-- No fault over surfaces, and at most one surface is live. -/
def Sound (r : Run) : Prop :=
  (∀ fault ∈ r.client.faults, ¬ Fault.OfSurfaces fault) ∧
  ∀ one other, (r.client.live.lookup one).isSome → (r.client.live.lookup other).isSome → one = other

/-- A CapsAdvertise with AVC420 that comes when the session is not ready finds a client without
surfaces. -/
def Cleared (r : Run) : Event → Prop
  | .message (.capsAdvertise sets) =>
    (selectAvc420Capability sets).isSome → r.inner.state ≠ .ready → r.client.live.keys = []
  | _ => True

/-- In a failed session the client may have a surface the session does not know of. -/
structure Inv (r : Run) (shown : Option (Nat × Surface)) (written : Bool) : Prop where
  range : InRange r.inner
  clean : r.client.faults = []
  only : Only r.client shown
  waiting : r.inner.state = .waitCaps → r.inner.surfaceConfigured = false ∧ shown = none
  ready : r.inner.state = .ready → shown = sessionSurface r.inner written
  unwritten : r.inner.state = .ready → written = false → r.inner.forceNextIdr = true
  sized : shown.isSome → 0 < r.inner.width ∧ 0 < r.inner.height

variable {r : Run} {shown : Option (Nat × Surface)} {written : Bool}

theorem Inv.sound (h : Inv r shown written) : Sound r := by
  refine ⟨fun fault hmem => ?_, fun one other hone hother => ?_⟩
  · rw [h.clean] at hmem
    cases hmem
  · rw [h.only one] at hone
    rw [h.only other] at hother
    match shown, hone, hother with
    | some (surfaceId, surface), hone, hother =>
      have hone' : one = surfaceId := by
        by_contra hne
        rw [surfaceAt_ne hne] at hone
        cases hone
      have hother' : other = surfaceId := by
        by_contra hne
        rw [surfaceAt_ne hne] at hother
        cases hother
      rw [hone', hother']

theorem inv_start (width height : UInt16) : Inv (start width height) none false where
  range := ⟨show defaultSurfaceId < 65536 by decide, width.toNat_lt, height.toNat_lt⟩
  clean := rfl
  only := only_empty
  waiting _ := ⟨rfl, rfl⟩
  ready h := nomatch h
  unwritten h := nomatch h
  sized h := nomatch h

theorem Inv.tornDown (h : Inv r shown written) (hready : r.inner.state = .ready) (idr : Bool) :
    Only (r.client.tornDown idr r.inner) none ∧ (r.client.tornDown idr r.inner).faults = [] := by
  have hshown := h.ready hready
  have honly := h.only
  unfold sessionSurface at hshown
  unfold Surfaces.tornDown
  split
  · next hconfigured =>
    rw [hshown, if_pos hconfigured] at honly
    exact ⟨(honly.delete idr).1, (honly.delete idr).2.trans h.clean⟩
  · next hconfigured =>
    rw [hshown, if_neg hconfigured] at honly
    exact ⟨honly, h.clean⟩

theorem inv_created {c : Surfaces}
    (honly : Only c none)
    (hclean : c.faults = [])
    (inner : Inner)
    (hrange : InRange inner)
    (hready : inner.state = .ready)
    (hconfigured : inner.surfaceConfigured = true)
    (hidr : inner.forceNextIdr = true)
    (hwidth : 0 < inner.width)
    (hheight : 0 < inner.height)
    (idr : Bool) :
    Inv ⟨inner, c.apply idr (.createSurface inner.surfaceId inner.width inner.height)⟩
      (sessionSurface inner false) false := by
  have hcreate := honly.create idr inner.surfaceId inner.width inner.height
  have hshown : sessionSurface inner false =
      some (inner.surfaceId, ⟨inner.width, inner.height, false⟩) :=
    if_pos hconfigured
  refine ⟨hrange, hcreate.2.trans hclean, hshown ▸ hcreate.1, fun h => ?_, fun _ => rfl,
    fun _ _ => hidr, fun _ => ⟨hwidth, hheight⟩⟩
  rw [hready] at h
  cases h

theorem inv_resize (h : Inv r shown written) (width height : UInt16) :
    ∃ shown' written',
      Inv
        ⟨(r.inner.resize width.toNat height.toNat).2,
          r.client.receive false ((r.inner.resize width.toNat height.toNat).1.getD [])⟩ shown'
        written' := by
  by_cases hresizes : r.inner.Resizes width.toNat height.toNat
  · have hrange := h.range.resized width.toNat_lt height.toNat_lt
    rw [resize_of_resizes hresizes]
    by_cases hready : r.inner.state = .ready
    · rw [if_pos hready]
      dsimp only [getD_some]
      rw [receive_resizePdus false r.client h.range width.toNat_lt height.toNat_lt]
      obtain ⟨honly, hclean⟩ := h.tornDown hready false
      exact ⟨_, _, inv_created honly hclean
        { r.inner.resized width.toNat height.toNat with surfaceConfigured := true }
        ⟨hrange.surfaceId, hrange.width, hrange.height⟩ hready rfl rfl
        (Nat.pos_of_ne_zero hresizes.1) (Nat.pos_of_ne_zero hresizes.2.1) false⟩
    · rw [if_neg hready]
      refine ⟨shown, written, hrange, h.clean, h.only, fun hwait => ⟨rfl, (h.waiting hwait).2⟩,
        fun hr => absurd hr hready, fun hr => absurd hr hready, fun _ => ?_⟩
      exact ⟨Nat.pos_of_ne_zero hresizes.1, Nat.pos_of_ne_zero hresizes.2.1⟩
  · rw [resize_of_not_resizes hresizes]
    exact ⟨shown, written, h⟩

theorem inv_onCaps
    (h : Inv r shown written)
    {sets : List RawCapabilitySet} {selected : RawCapabilitySet}
    (hselected : selectAvc420Capability sets = some selected)
    (hcleared : r.inner.state ≠ .ready → Only r.client none) :
    ∃ shown' written',
      Inv ⟨(r.inner.onCaps sets).2, r.client.receive false (r.inner.onCaps sets).1⟩ shown'
        written' := by
  set cleared :=
    if r.inner.Deletes then r.client.apply false (.deleteSurface r.inner.surfaceId) else r.client
    with hdef
  have hempty : Only cleared none ∧ cleared.faults = [] := by
    by_cases hready : r.inner.state = .ready
    · have hsame : cleared = r.client.tornDown false r.inner := by
        simp only [hdef, Inner.Deletes, hready, true_and, Surfaces.tornDown]
      exact hsame ▸ h.tornDown hready false
    · have hsame : cleared = r.client := if_neg fun hdeletes => hready hdeletes.1
      exact hsame ▸ ⟨hcleared hready, h.clean⟩
  have hrange := h.range.renegotiated
  rw [receive_onCaps false r.client h.range hselected, onCaps_of_some hselected]
  dsimp only
  rw [← hdef]
  by_cases hsize : 0 < r.inner.width ∧ 0 < r.inner.height
  · rw [if_pos hsize, decide_eq_true hsize]
    exact ⟨_, _, inv_created hempty.1 hempty.2 { r.inner.renegotiated with surfaceConfigured := true }
      ⟨hrange.surfaceId, hrange.width, hrange.height⟩ rfl rfl rfl hsize.1 hsize.2 false⟩
  · rw [if_neg hsize, decide_eq_false hsize]
    exact ⟨none, false, ⟨hrange.surfaceId, hrange.width, hrange.height⟩, hempty.2, hempty.1,
      (fun hwait => nomatch hwait), fun _ => rfl, fun _ _ => rfl, (fun hsome => nomatch hsome)⟩

theorem inv_message
    (h : Inv r shown written)
    (message : ClientMessage)
    (hcleared : Cleared r (.message message)) :
    ∃ shown' written',
      Inv
        ⟨(r.inner.onClientMessage message).2,
          r.client.receive false (r.inner.onClientMessage message).1⟩ shown' written' := by
  cases message with
  | capsAdvertise sets =>
    simp only [onClientMessage]
    cases hselected : selectAvc420Capability sets with
    | none =>
      rw [onCaps_of_none hselected]
      exact ⟨shown, written, ⟨h.range.surfaceId, h.range.width, h.range.height⟩, h.clean, h.only,
        (fun hwait => nomatch hwait), (fun hready => nomatch hready),
        (fun hready => nomatch hready), h.sized⟩
    | some selected =>
      refine inv_onCaps h hselected fun hready => only_none_iff.mpr ?_
      exact hcleared (isSome_iff_exists.mpr ⟨selected, hselected⟩) hready
  | frameAcknowledge queueDepth frameId total =>
    exact ⟨shown, written, ⟨h.range.surfaceId, h.range.width, h.range.height⟩, h.clean, h.only,
      h.waiting, h.ready, h.unwritten, h.sized⟩
  | cacheImportOffer => exact ⟨shown, written, h⟩
  | other cmdId => exact ⟨shown, written, h⟩

theorem inv_finishEncode
    (h : Inv r (sessionSurface r.inner written) written)
    (hready : r.inner.state = .ready)
    (hconfigured : r.inner.surfaceConfigured = true)
    {idr : Bool}
    (hidr : written = false → idr = true)
    (encoded : EncodedAu) :
    Inv
      ⟨(r.inner.finishEncode r.inner.width r.inner.height encoded).2,
        r.client.receive idr (r.inner.finishEncode r.inner.width r.inner.height encoded).1⟩
      (sessionSurface r.inner true) true := by
  have hshown : ∀ written, sessionSurface r.inner written =
      some (r.inner.surfaceId, ⟨r.inner.width, r.inner.height, written⟩) := fun _ => if_pos hconfigured
  have honly := h.only
  rw [hshown] at honly
  obtain ⟨honly', hfaults⟩ := honly.write hidr
  rw [receive_finishEncode idr r.client h.range h.range.width h.range.height, hshown]
  refine ⟨⟨h.range.surfaceId, h.range.width, h.range.height⟩, hfaults.trans h.clean, honly', ?_, ?_,
    fun _ hfalse => (nomatch hfalse), fun _ => h.sized (by rw [hshown]; rfl)⟩
  · intro hwait
    have hready' : r.inner.state = .waitCaps := hwait
    rw [hready] at hready'
    cases hready'
  · exact fun _ => (hshown true).symm

theorem inv_encodeFrame
    (h : Inv r shown written)
    (width height : UInt16) {encoded : EncodedAu}
    (hencoded : encoded.annexB ≠ []) :
    ∃ shown' written',
      Inv
        ⟨(r.inner.encodeFrame width.toNat height.toNat (some encoded) none).2,
          r.client.receive (asksIdr r.inner width.toNat height.toNat)
            (payloadsOf (r.inner.encodeFrame width.toNat height.toNat (some encoded) none).1)⟩
        shown' written' := by
  have hbegun := begun_beginEncode r.inner width.toNat height.toNat
  have husable : usable (some encoded) = some encoded := by simp [usable, hencoded]
  unfold encodeFrame asksIdr
  generalize r.inner.beginEncode width.toNat height.toNat = begun at hbegun
  cases hbegun with
  | skipped => exact ⟨shown, written, h⟩
  | same hstate hconfigured hwidth hheight =>
    have hshown := h.ready hstate
    subst hshown
    simp only [endEncode, husable, List.nil_append, payloadsOf]
    rw [← hwidth, ← hheight]
    refine ⟨_, _, inv_finishEncode h hstate hconfigured (fun hw => ?_) encoded⟩
    simp [forcesIdr, h.unwritten hstate hw]
  | resized hstate hresizes =>
    have hrange := h.range.resized width.toNat_lt height.toNat_lt
    obtain ⟨honly, hclean⟩ := h.tornDown hstate true
    have hcreated := inv_created honly hclean
      { r.inner.resized width.toNat height.toNat with surfaceConfigured := true }
      ⟨hrange.surfaceId, hrange.width, hrange.height⟩ hstate rfl rfl (Nat.pos_of_ne_zero hresizes.1)
      (Nat.pos_of_ne_zero hresizes.2.1) true
    have hfinished := inv_finishEncode hcreated hstate rfl (fun _ => rfl) encoded
    simp only [endEncode, husable, payloadsOf]
    rw [Surfaces.receive_append,
      receive_resizePdus true r.client h.range width.toNat_lt height.toNat_lt]
    exact ⟨_, _, hfinished⟩

def Reached (r : Run) : Prop := ∃ shown written, Inv r shown written

theorem reached_step {t : Run} {event : Event}
    (h : Reached r)
    (hcleared : Cleared r event)
    (hstep : step r event = some t) : Reached t := by
  obtain ⟨shown, written, h⟩ := h
  cases event with
  | message message =>
    cases hstep
    exact inv_message h message hcleared
  | resize width height =>
    cases hstep
    exact inv_resize h width height
  | encodeFrame width height encoded =>
    obtain ⟨hencoded, ⟨⟩⟩ := ite_none_left_eq_some.mp hstep
    exact inv_encodeFrame h width height hencoded

theorem not_sound_onCaps {surfaceId : Nat} {surface : Surface}
    (h : Inv r (some (surfaceId, surface)) written)
    (hready : r.inner.state ≠ .ready)
    {sets : List RawCapabilitySet} {selected : RawCapabilitySet}
    (hselected : selectAvc420Capability sets = some selected) :
    ¬ Sound ⟨(r.inner.onCaps sets).2, r.client.receive false (r.inner.onCaps sets).1⟩ := by
  have hkept : ¬ r.inner.Deletes := fun hdeletes => hready hdeletes.1
  have hid : r.inner.renegotiated.surfaceId = r.inner.surfaceId := if_neg hkept
  rw [receive_onCaps false r.client h.range hselected]
  simp only [if_neg hkept, if_pos (h.sized rfl), hid]
  rintro ⟨hfaults, hone⟩
  by_cases hsame : r.inner.surfaceId = surfaceId
  · have hlive := h.only.create_live false r.inner.width r.inner.height
    rw [← hsame] at hlive
    exact hfaults _ hlive trivial
  · refine hsame (hone r.inner.surfaceId surfaceId ?_ ?_)
    · exact isSome_iff_exists.mpr ⟨_, AList.lookup_insert _⟩
    · have hother : (r.client.live.insert r.inner.surfaceId
          ⟨r.inner.width, r.inner.height, false⟩).lookup
          surfaceId = some surface := by
        rw [AList.lookup_insert_ne fun heq => hsame heq.symm, h.only surfaceId, surfaceAt_self]
      exact isSome_iff_exists.mpr ⟨surface, hother⟩

theorem not_sound_of_not_cleared {event : Event} (h : Reached r) (hbad : ¬ Cleared r event) :
    ∃ t, step r event = some t ∧ ¬ Sound t := by
  obtain ⟨shown, written, h⟩ := h
  match event with
  | .message (.capsAdvertise sets) =>
    simp only [Cleared, Classical.not_imp] at hbad
    obtain ⟨hselected, hready, hkeys⟩ := hbad
    obtain ⟨selected, hselected⟩ := isSome_iff_exists.mp hselected
    refine ⟨_, rfl, ?_⟩
    match shown, h with
    | none, h => exact absurd (only_none_iff.mp h.only) hkeys
    | some (surfaceId, surface), h => exact not_sound_onCaps h hready hselected
  | .message (.frameAcknowledge _ _ _) => exact absurd trivial hbad
  | .message .cacheImportOffer => exact absurd trivial hbad
  | .message (.other _) => exact absurd trivial hbad
  | .resize _ _ => exact absurd trivial hbad
  | .encodeFrame _ _ _ => exact absurd trivial hbad

/-- Along every run of a session whose encoder always gives a bitstream, the stream is sound in
every state exactly when every CapsAdvertise with AVC420 that finds the session not ready finds
a client without surfaces. -/
theorem sound_always_iff_cleared (width height : UInt16) (schedule : List Event) :
    Always step Sound (start width height) schedule ↔
      Careful step Cleared (start width height) schedule :=
  always_iff_careful Reached (fun _ ⟨_, _, h⟩ => h.sound)
    (fun _ _ _ h hok hstep => reached_step h hok hstep)
    (fun _ _ h hbad => not_sound_of_not_cleared h hbad) schedule ⟨_, _, inv_start width height⟩

def readvertiseRun : List Event :=
  [.message (.capsAdvertise [avc420]), .message (.capsAdvertise []), .message (.capsAdvertise [avc420])]

theorem surface_created_twice :
    ∃ r,
      exec step (start 640 480) readvertiseRun = some r ∧
      r.client.faults = [.createLive 1] ∧
      ¬ Sound r := by
  have hrun : (exec step (start 640 480) readvertiseRun).any
      (fun r => r.client.faults = [.createLive 1]) = true := by decide +kernel
  obtain ⟨r, hr, hfaults⟩ := (any_eq_true _ _).mp hrun
  have hfault := of_decide_eq_true hfaults
  refine ⟨r, hr, hfault, fun hsound => ?_⟩
  exact hsound.1 (.createLive 1) (hfault ▸ List.mem_singleton_self _) trivial

end Kmsrdp.Guarantees.GfxSurfaces
