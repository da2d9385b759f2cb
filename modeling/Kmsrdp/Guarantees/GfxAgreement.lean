import Kmsrdp.Client.GfxSurfaces

/-!
# Session and client agree on the surface after a frame

At a frame of another size `begin_encode` takes over the size and a new surface at once; the PDUs
that tell the client come with the frame.
-/
namespace Kmsrdp.Guarantees.GfxAgreement
open Source.Rdpegfx Client.GfxSurfaces Inner Surfaces

/-- A PDU for a surface that the client does not have, or has already. -/
def OfExistence : Fault → Prop
  | .createLive _ | .deleteMissing _ | .writeMissing _ => True
  | .writeWrongSize _ | .firstNotIdr _ => False

/-- The client has the session's surface and no other, and got no PDU that does not fit. -/
def Agrees (inner : Inner) (c : Surfaces) : Prop :=
  (∃ written, Only c (sessionSurface inner written)) ∧ ∀ fault ∈ c.faults, ¬ OfExistence fault

/-- The frame takes over a size, and the encoder gives nothing for it. -/
def LosesResize (inner : Inner) (width height : Nat) (first retry : Option EncodedAu) : Prop :=
  inner.state = .ready ∧ inner.Resizes width height ∧ Inner.usable first = none ∧
    Inner.usable retry = none

theorem not_ofExistence_append {faults added : List Fault}
    (h : ∀ fault ∈ faults, ¬ OfExistence fault)
    (hadded : ∀ fault ∈ added, ¬ OfExistence fault) :
    ∀ fault ∈ faults ++ added, ¬ OfExistence fault := by
  intro fault hmem
  rcases List.mem_append.mp hmem with hold | hnew
  · exact h fault hold
  · exact hadded fault hnew

theorem not_ofExistence_frameFaults (idr : Bool) (surfaceId width height : Nat)
    (surface : Surface) :
    ∀ fault ∈ frameFaults idr surfaceId width height surface, ¬ OfExistence fault := by
  intro fault hmem
  rcases List.mem_append.mp hmem with hsize | hidr
  · split at hsize
    · cases hsize
    · cases List.mem_singleton.mp hsize
      exact not_false
  · split at hidr
    · cases hidr
    · cases List.mem_singleton.mp hidr
      exact not_false

variable {inner : Inner} {c : Surfaces}
section
variable (h : Agrees inner c)
include h

theorem Agrees.congr {inner' : Inner}
    (hconfigured : inner'.surfaceConfigured = inner.surfaceConfigured)
    (hid : inner'.surfaceId = inner.surfaceId)
    (hwidth : inner'.width = inner.width)
    (hheight : inner'.height = inner.height) : Agrees inner' c := by
  have hsame : ∀ written, sessionSurface inner' written = sessionSurface inner written :=
    fun written => by
    unfold sessionSurface
    rw [hconfigured, hid, hwidth, hheight]
  obtain ⟨⟨written, honly⟩, hfaults⟩ := h
  exact ⟨⟨written, (hsame written).symm ▸ honly⟩, hfaults⟩

theorem Agrees.tornDown (idr : Bool) :
    Only (c.tornDown idr inner) none ∧
    ∀ fault ∈ (c.tornDown idr inner).faults, ¬ OfExistence fault := by
  obtain ⟨⟨written, honly⟩, hfaults⟩ := h
  unfold sessionSurface at honly
  unfold Surfaces.tornDown
  split
  · next hconfigured =>
    rw [if_pos hconfigured] at honly
    exact ⟨(honly.delete idr).1, (honly.delete idr).2 ▸ hfaults⟩
  · next hconfigured =>
    rw [if_neg hconfigured] at honly
    exact ⟨honly, hfaults⟩

theorem agrees_resizePdus
    (hrange : InRange inner)
    (idr : Bool) {width height : Nat}
    (hwidth : width < 65536)
    (hheight : height < 65536) :
    Agrees { inner.resized width height with surfaceConfigured := true }
      (c.receive idr (inner.resizePdus width height)) := by
  obtain ⟨honly, hfaults⟩ := h.tornDown idr
  rw [receive_resizePdus idr c hrange hwidth hheight]
  have hcreate := honly.create idr (inner.resized width height).surfaceId width height
  exact ⟨⟨false, hcreate.1⟩, hcreate.2 ▸ hfaults⟩

theorem agrees_finishEncode
    (hrange : InRange inner)
    (hconfigured : inner.surfaceConfigured = true)
    (idr : Bool) {width height : Nat}
    (hwidth : width < 65536)
    (hheight : height < 65536)
    (encoded : EncodedAu) :
    Agrees (inner.finishEncode width height encoded).2
      (c.receive idr (inner.finishEncode width height encoded).1) := by
  obtain ⟨⟨written, honly⟩, hfaults⟩ := h
  have hshown : ∀ written, sessionSurface inner written =
      some (inner.surfaceId, ⟨inner.width, inner.height, written⟩) := fun _ => if_pos hconfigured
  rw [hshown] at honly
  have hself : c.live.lookup inner.surfaceId = some ⟨inner.width, inner.height, written⟩ := by
    rw [honly inner.surfaceId, surfaceAt_self]
  rw [receive_finishEncode idr c hrange hwidth hheight]
  refine ⟨⟨true, fun other => ?_⟩, ?_⟩
  · have hshown' : sessionSurface (inner.finishEncode width height encoded).2 true =
        some (inner.surfaceId, ⟨inner.width, inner.height, true⟩) := hshown true
    simp only [apply, hself, hshown']
    by_cases hid : other = inner.surfaceId
    · subst hid
      rw [surfaceAt_self]
      exact AList.lookup_insert _
    · rw [surfaceAt_ne hid, AList.lookup_insert_ne hid, honly other, surfaceAt_ne hid]
  · simp only [apply, hself]
    exact not_ofExistence_append hfaults (not_ofExistence_frameFaults _ _ _ _ _)

theorem agrees_recordEncodeFailure (hrange : InRange inner) (idr : Bool) :
    Agrees inner.recordEncodeFailure.2
      (c.receive idr (payloadsOf inner.recordEncodeFailure.1)) := by
  unfold recordEncodeFailure
  dsimp only
  split
  · unfold abandon
    have hgone := h.tornDown idr
    unfold tornDown at hgone
    by_cases hconfigured : inner.surfaceConfigured = true
    · simp only [if_pos hconfigured, payloadsOf] at hgone ⊢
      rw [receive_deleteSurface idr c hrange.surfaceId]
      exact ⟨⟨false, hgone.1⟩, hgone.2⟩
    · simp only [if_neg hconfigured, payloadsOf, receive_nil]
      exact h.congr rfl rfl rfl rfl
  · exact h.congr rfl rfl rfl rfl

theorem lookup_resized_surfaceId (width height : Nat) :
    c.live.lookup (inner.resized width height).surfaceId = none := by
  obtain ⟨⟨written, honly⟩, _⟩ := h
  rw [honly]
  unfold sessionSurface
  split
  · next hconfigured =>
    have hnext : (inner.resized width height).surfaceId = nextId 16 inner.surfaceId :=
      if_pos hconfigured
    rw [hnext]
    exact surfaceAt_ne (nextId_ne _) _
  · rfl

end

theorem not_agrees_recordEncodeFailure
    (hrange : InRange inner)
    (hconfigured : inner.surfaceConfigured = true)
    (hmissing : c.live.lookup inner.surfaceId = none)
    (idr : Bool) :
    ¬ Agrees inner.recordEncodeFailure.2
        (c.receive idr (payloadsOf inner.recordEncodeFailure.1)) := by
  unfold recordEncodeFailure
  dsimp only
  split
  · -- the third failure: the DeleteSurface that is sent names the unknown surface
    unfold abandon
    simp only [if_pos hconfigured, payloadsOf]
    rw [receive_deleteSurface idr c hrange.surfaceId]
    rintro ⟨_, hfaults⟩
    refine hfaults (.deleteMissing inner.surfaceId) ?_ trivial
    simp only [apply, hmissing]
    exact List.mem_append_right _ (List.mem_singleton_self _)
  · -- an earlier one: nothing is sent, and the session still counts on the surface
    rintro ⟨⟨written, honly⟩, _⟩
    have hshown := honly inner.surfaceId
    simp only [payloadsOf, receive_nil, sessionSurface, if_pos hconfigured, surfaceAt_self,
      hmissing] at hshown
    cases hshown

/-- From every state in which session and client agree, they agree after a frame exactly when
the frame does not take over a size for which the encoder then gives nothing. -/
theorem agrees_encodeFrame_iff {inner : Inner} {c : Surfaces}
    (hrange : InRange inner)
    (h : Agrees inner c)
    (idr : Bool) (width height : UInt16) (first retry : Option EncodedAu) :
    Agrees (inner.encodeFrame width.toNat height.toNat first retry).2
      (c.receive idr (payloadsOf (inner.encodeFrame width.toNat height.toNat first retry).1)) ↔
      ¬ LosesResize inner width.toNat height.toNat first retry := by
  have hbegun := begun_beginEncode inner width.toNat height.toNat
  unfold encodeFrame
  generalize inner.beginEncode width.toNat height.toNat = begun at hbegun
  cases hbegun with
  | skipped hkept => exact iff_of_true h fun hloses => hkept ⟨hloses.1, hloses.2.1⟩
  | same hstate hconfigured hwidth hheight =>
    have hkeeps : ¬ LosesResize inner width.toNat height.toNat first retry := fun hloses =>
      hloses.2.1.2.2 ⟨hconfigured, hwidth, hheight⟩
    refine iff_of_true ?_ hkeeps
    have hended := ended_endEncode inner width.toNat height.toNat [] first retry
    dsimp only
    generalize inner.endEncode width.toNat height.toNat [] first retry = ended at hended
    cases hended with
    | first encoded hfirst =>
      exact agrees_finishEncode h hrange hconfigured idr width.toNat_lt height.toNat_lt encoded
    | retry encoded hfirst hretry =>
      exact agrees_finishEncode h hrange hconfigured idr width.toNat_lt height.toNat_lt encoded
    | failed hfirst hretry =>
      have hforced : Agrees { inner with forceNextIdr := true } c := h.congr rfl rfl rfl rfl
      exact agrees_recordEncodeFailure hforced ⟨hrange.surfaceId, hrange.width, hrange.height⟩ idr
  | resized hstate hresizes =>
    set taken : Inner := { inner.resized width.toNat height.toNat with surfaceConfigured := true }
    have hrange' : InRange taken :=
      let range := hrange.resized width.toNat_lt height.toNat_lt
      ⟨range.surfaceId, range.width, range.height⟩
    have htold := agrees_resizePdus h hrange idr width.toNat_lt height.toNat_lt
    have hended := ended_endEncode taken width.toNat height.toNat
      (inner.resizePdus width.toNat height.toNat) first retry
    dsimp only
    generalize taken.endEncode width.toNat height.toNat (inner.resizePdus width.toNat height.toNat)
      first retry =
      ended at hended
    cases hended with
    | first encoded hfirst =>
      refine iff_of_true ?_ fun hloses => ?_
      · rw [payloadsOf, receive_append]
        exact agrees_finishEncode htold hrange' rfl idr width.toNat_lt height.toNat_lt encoded
      · exact nomatch hfirst.symm.trans hloses.2.2.1
    | retry encoded hfirst hretry =>
      refine iff_of_true ?_ fun hloses => ?_
      · rw [payloadsOf, receive_append]
        exact agrees_finishEncode htold hrange' rfl idr width.toNat_lt height.toNat_lt encoded
      · exact nomatch hretry.symm.trans hloses.2.2.2
    | failed hfirst hretry =>
      refine iff_of_false ?_ (not_not.mpr ⟨hstate, hresizes, hfirst, hretry⟩)
      exact not_agrees_recordEncodeFailure ⟨hrange'.surfaceId, hrange'.width, hrange'.height⟩ rfl
        (lookup_resized_surfaceId h width.toNat height.toNat) idr

def settled : Inner := { Inner.new 640 480 with state := .ready, surfaceConfigured := true }

def settledClient : Surfaces := Surfaces.empty.receive false (settled.setupPdus.map encodeSegmented)

theorem settled_agrees : Agrees settled settledClient := by
  have hrange : InRange settled := ⟨by decide, by decide, by decide⟩
  have hcreate := only_empty.create false settled.surfaceId settled.width settled.height
  unfold settledClient
  rw [receive_setupPdus false empty hrange]
  refine ⟨⟨false, hcreate.1⟩, ?_⟩
  rw [hcreate.2]
  exact fun fault hmem => nomatch hmem

/-- A frame at the new size that the encoder accepts in its second try. -/
theorem agrees_after_retry :
    Agrees (settled.encodeFrame 800 600 none (some ⟨[1], 20⟩)).2
      (settledClient.receive true
         (payloadsOf (settled.encodeFrame 800 600 none (some ⟨[1], 20⟩)).1)) :=
  (agrees_encodeFrame_iff ⟨by decide, by decide, by decide⟩ settled_agrees true 800 600 none
    (some ⟨[1], 20⟩)).mpr fun hloses => nomatch hloses.2.2.2

/-- A frame at 800x600 for which the encoder gives nothing, and the next one for which it does:
the second goes to a surface of which the client was never told. -/
theorem written_to_unknown_surface :
    let failed := settled.encodeFrame 800 600 none none
    let framed := failed.2.encodeFrame 800 600 (some ⟨[1], 20⟩) none
    let client := settledClient.receive true (payloadsOf failed.1)
    failed.1 = .skip ∧
    ¬ Agrees failed.2 client ∧
    (client.receive true (payloadsOf framed.1)).faults = [.writeMissing 2] := by
  refine ⟨by decide +kernel, ?_, by decide +kernel⟩
  rintro ⟨⟨written, honly⟩, _⟩
  have hview : surfaceAt (sessionSurface (settled.encodeFrame 800 600 none none).2 written) 2 =
      some ⟨800, 600, written⟩ := by cases written <;> decide +kernel
  have hclient : (settledClient.receive true
      (payloadsOf (settled.encodeFrame 800 600 none none).1)).live.lookup 2 =
      none := by decide +kernel
  exact nomatch hclient.symm.trans ((honly 2).trans hview)

end Kmsrdp.Guarantees.GfxAgreement
