import Kmsrdp.Library.Execution
import Kmsrdp.Client.GfxSurfaces

/-!
# Frames encoded beside the other task

`encode_frame` locks the session for `begin_encode` and again for `finish_encode`. In between the
connection's task may handle a message or a resize.
-/
namespace Kmsrdp.Guarantees.GfxInterleaving
open Library.ByteString Library.Execution Source.Rdpegfx Client.GfxSurfaces Inner Surfaces

/-- A frame between the two sections: what the first one decided, and what the encoder gave in
its two tries once it is done. -/
structure Pending where
  (width height : UInt16)
  leading : List Bytes
  forceIdr : Bool
  tries : Option (Option EncodedAu × Option EncodedAu)

/-- The session, its client and the frame being encoded, if any. -/
structure World where
  inner : Inner
  client : Surfaces
  pending : Option Pending

inductive Action where
  | message (message : ClientMessage)
  | resize (width height : UInt16)
  | beginEncode (width height : UInt16)
  | encode (first retry : Option EncodedAu)
  | endEncode

def idrOf (forceIdr : Bool) (first : Option EncodedAu) : Bool :=
  forceIdr || (Inner.usable first).isNone

def step (w : World) : Action → Option World
  | .message message =>
    let handled := w.inner.onClientMessage message
    some { w with inner := handled.2, client := w.client.receive false handled.1 }
  | .resize width height =>
    let resized := w.inner.resize width.toNat height.toNat
    some { w with inner := resized.2, client := w.client.receive false (resized.1.getD []) }
  | .beginEncode width height =>
    match w.pending with
    | some _ => none
    | none =>
      let begun := w.inner.beginEncode width.toNat height.toNat
      match begun.1 with
      | .error result =>
        some { w with inner := begun.2, client := w.client.receive false (payloadsOf result) }
      | .ok (leading, forceIdr) =>
        some { w with inner := begun.2, pending := some ⟨width, height, leading, forceIdr, none⟩ }
  | .encode first retry =>
    match w.pending with
    | some ⟨width, height, leading, forceIdr, none⟩ =>
      some { w with pending := some ⟨width, height, leading, forceIdr, some (first, retry)⟩ }
    | _ => none
  | .endEncode =>
    match w.pending with
    | some ⟨width, height, leading, forceIdr, some (first, retry)⟩ =>
      let ended := w.inner.endEncode width.toNat height.toNat leading first retry
      some { inner := ended.2, client := w.client.receive (idrOf forceIdr first) (payloadsOf ended.1),
             pending := none }
    | _ => none

def start (width height : UInt16) : World := ⟨Inner.new width.toNat height.toNat, .empty, none⟩

/-- A frame that does not fit the surface it is written to. -/
def OfFrames : Fault → Prop
  | .writeMissing _ | .writeWrongSize _ | .firstNotIdr _ => True
  | .createLive _ | .deleteMissing _ => False

def Framed (w : World) : Prop := ∀ fault ∈ w.client.faults, ¬ OfFrames fault

/-- Nothing makes a new surface while a frame is encoded, and a frame that was to make one does
not fail. -/
def Quiet (w : World) : Action → Prop
  | .message (.capsAdvertise sets) => w.pending.isSome → selectAvc420Capability sets = none
  | .resize width height => w.pending.isSome → ¬ w.inner.Resizes width.toNat height.toNat
  | .endEncode => ∀ p ∈ w.pending, ∀ tries ∈ p.tries,
      Inner.usable tries.1 = none → Inner.usable tries.2 = none → p.leading = []
  | _ => True

instance (w : World) : (action : Action) → Decidable (Quiet w action)
  | .message (.capsAdvertise _) => inferInstanceAs (Decidable (_ → _))
  | .message (.frameAcknowledge _ _ _) => isTrue trivial
  | .message .cacheImportOffer => isTrue trivial
  | .message (.other _) => isTrue trivial
  | .resize _ _ => inferInstanceAs (Decidable (_ → _))
  | .beginEncode _ _ => isTrue trivial
  | .encode _ _ => isTrue trivial
  | .endEncode => inferInstanceAs (Decidable (∀ p ∈ w.pending, ∀ tries ∈ p.tries, _ → _ → _))

/-- The client has the session's surface at the size, and a frame may follow that is an IDR if
`idr` says so. -/
def Drawable (c : Surfaces) (inner : Inner) (width height : Nat) (idr : Bool) : Prop :=
  ∃ written, c.live.lookup inner.surfaceId = some ⟨width, height, written⟩ ∧
    (written = false → idr = true)

variable {c : Surfaces}

theorem ofFrames_create (idr : Bool)
    (h : ∀ fault ∈ c.faults, ¬ OfFrames fault)
    (surfaceId width height : Nat) :
    ∀ fault ∈ (c.apply idr (.createSurface surfaceId width height)).faults, ¬ OfFrames fault := by
  intro fault hmem
  simp only [apply] at hmem
  split at hmem
  · rcases List.mem_append.mp hmem with hold | hnew
    · exact h fault hold
    · cases List.mem_singleton.mp hnew
      exact not_false
  · exact h fault hmem

theorem ofFrames_delete (idr : Bool) (h : ∀ fault ∈ c.faults, ¬ OfFrames fault) (surfaceId : Nat) :
    ∀ fault ∈ (c.apply idr (.deleteSurface surfaceId)).faults, ¬ OfFrames fault := by
  intro fault hmem
  simp only [apply] at hmem
  split at hmem
  · exact h fault hmem
  · rcases List.mem_append.mp hmem with hold | hnew
    · exact h fault hold
    · cases List.mem_singleton.mp hnew
      exact not_false

theorem ofFrames_tornDown (idr : Bool) (h : ∀ fault ∈ c.faults, ¬ OfFrames fault) (inner : Inner) :
    ∀ fault ∈ (c.tornDown idr inner).faults, ¬ OfFrames fault := by
  unfold tornDown
  split
  · exact ofFrames_delete idr h _
  · exact h

theorem drawable_create (idr force : Bool) (c : Surfaces) (inner : Inner) (width height : Nat)
    (hforce : force = true) :
    Drawable (c.apply idr (.createSurface inner.surfaceId width height)) inner width height force :=
  ⟨false, AList.lookup_insert _, fun _ => hforce⟩

theorem Drawable.write {inner : Inner} {width height : Nat} {idr : Bool}
    (h : Drawable c inner width height idr)
    (hfine : ∀ fault ∈ c.faults, ¬ OfFrames fault)
    (force : Bool) :
    Drawable (c.apply idr (.wireToSurface inner.surfaceId width height)) inner width height force ∧
    ∀ fault ∈ (c.apply idr (.wireToSurface inner.surfaceId width height)).faults,
      ¬ OfFrames fault := by
  obtain ⟨written, hlookup, hidr⟩ := h
  have hfits : written = true ∨ idr = true := by
    cases hwritten : written with
    | true => exact .inl rfl
    | false => exact .inr (hidr hwritten)
  have hfaults : frameFaults idr inner.surfaceId width height ⟨width, height, written⟩ = [] := by
    simp [frameFaults, hfits]
  simp only [apply, hlookup, hfaults, List.append_nil]
  exact ⟨⟨true, AList.lookup_insert _, fun h => Bool.noConfusion h⟩, hfine⟩

/-- A frame whose second section will find what the first one decided. -/
structure Expected (inner : Inner) (c : Surfaces) (p : Pending) : Prop where
  width : inner.width = p.width.toNat
  height : inner.height = p.height.toNat
  fine : ∀ idr, ∀ fault ∈ (c.receive idr p.leading).faults, ¬ OfFrames fault
  drawable : ∀ idr, Drawable (c.receive idr p.leading) inner inner.width inner.height p.forceIdr

structure Inv (w : World) : Prop where
  range : InRange w.inner
  framed : Framed w
  idle : w.pending = none → w.inner.state = .ready → w.inner.surfaceConfigured = true →
    Drawable w.client w.inner w.inner.width w.inner.height w.inner.forceNextIdr
  pending : ∀ p ∈ w.pending, Expected w.inner w.client p

theorem inv_start (width height : UInt16) : Inv (start width height) where
  range := ⟨show defaultSurfaceId < 65536 by decide, width.toNat_lt, height.toNat_lt⟩
  framed _ hmem := nomatch hmem
  idle _ hready := nomatch hready
  pending _ hmem := nomatch hmem

theorem inv_created (inner : Inner)
    (hrange : InRange inner)
    (hfine : ∀ fault ∈ c.faults, ¬ OfFrames fault)
    (hidr : inner.forceNextIdr = true)
    (idr : Bool) :
    Inv ⟨inner, c.apply idr (.createSurface inner.surfaceId inner.width inner.height), none⟩ where
  range := hrange
  framed := ofFrames_create idr hfine _ _ _
  idle _ _ _ := drawable_create idr _ c inner _ _ hidr
  pending _ hmem := nomatch hmem

variable {w : World}

theorem inv_resize (h : Inv w) (width height : UInt16) (hquiet : Quiet w (.resize width height)) :
    Inv
      { w with
        inner := (w.inner.resize width.toNat height.toNat).2
        client := w.client.receive false
          ((w.inner.resize width.toNat height.toNat).1.getD []) } := by
  by_cases hresizes : w.inner.Resizes width.toNat height.toNat
  · have hnone : w.pending = none := by
      rw [← Option.not_isSome_iff_eq_none]
      exact fun hsome => hquiet hsome hresizes
    have hrange := h.range.resized width.toNat_lt height.toNat_lt
    rw [resize_of_resizes hresizes, hnone]
    by_cases hready : w.inner.state = .ready
    · rw [if_pos hready]
      dsimp only [Option.getD_some]
      rw [receive_resizePdus false w.client h.range width.toNat_lt height.toNat_lt]
      exact inv_created { w.inner.resized width.toNat height.toNat with surfaceConfigured := true }
        ⟨hrange.surfaceId, hrange.width, hrange.height⟩
          (ofFrames_tornDown false h.framed w.inner) rfl false
    · rw [if_neg hready]
      exact ⟨hrange, h.framed, fun _ hr => absurd hr hready, (fun _ hmem => nomatch hmem)⟩
  · rw [resize_of_not_resizes hresizes]
    exact h

theorem inv_onCaps
    (h : Inv w)
    (hnone : w.pending = none)
    {sets : List RawCapabilitySet} {selected : RawCapabilitySet}
    (hselected : selectAvc420Capability sets = some selected) :
    Inv
      { w with
        inner := (w.inner.onCaps sets).2
        client := w.client.receive false (w.inner.onCaps sets).1 } := by
  have hrange := h.range.renegotiated
  have hfine : ∀ fault ∈ (if w.inner.Deletes
      then w.client.apply false (.deleteSurface w.inner.surfaceId)
      else w.client).faults, ¬ OfFrames fault := by
    split
    · exact ofFrames_delete false h.framed _
    · exact h.framed
  rw [receive_onCaps false w.client h.range hselected, onCaps_of_some hselected, hnone]
  dsimp only
  by_cases hsize : 0 < w.inner.width ∧ 0 < w.inner.height
  · rw [if_pos hsize, decide_eq_true hsize]
    exact inv_created { w.inner.renegotiated with surfaceConfigured := true }
      ⟨hrange.surfaceId, hrange.width, hrange.height⟩ hfine rfl false
  · rw [if_neg hsize, decide_eq_false hsize]
    exact ⟨⟨hrange.surfaceId, hrange.width, hrange.height⟩, hfine,
      (fun _ _ hconfigured => nomatch hconfigured), (fun _ hmem => nomatch hmem)⟩

theorem inv_message (h : Inv w) (message : ClientMessage) (hquiet : Quiet w (.message message)) :
    Inv
      { w with
        inner := (w.inner.onClientMessage message).2
        client := w.client.receive false (w.inner.onClientMessage message).1 } := by
  cases message with
  | capsAdvertise sets =>
    simp only [onClientMessage]
    cases hselected : selectAvc420Capability sets with
    | none =>
      -- the session fails, and a frame under way still finds its surface
      rw [onCaps_of_none hselected]
      refine ⟨⟨h.range.surfaceId, h.range.width, h.range.height⟩, h.framed,
        (fun _ hready => nomatch hready), fun p hp => ?_⟩
      have hexpected := h.pending p hp
      exact ⟨hexpected.width, hexpected.height, hexpected.fine, hexpected.drawable⟩
    | some selected =>
      refine inv_onCaps h ?_ hselected
      rw [← Option.not_isSome_iff_eq_none]
      exact fun hsome => nomatch hselected.symm.trans (hquiet hsome)
  | frameAcknowledge queueDepth frameId total =>
    refine ⟨⟨h.range.surfaceId, h.range.width, h.range.height⟩, h.framed, h.idle, fun p hp => ?_⟩
    have hexpected := h.pending p hp
    exact ⟨hexpected.width, hexpected.height, hexpected.fine, hexpected.drawable⟩
  | cacheImportOffer => exact h
  | other cmdId => exact h

variable {t : World}

theorem inv_beginEncode
    (h : Inv w)
    (width height : UInt16)
    (hstep : step w (.beginEncode width height) = some t) : Inv t := by
  simp only [step] at hstep
  split at hstep
  · cases hstep
  · next hnone =>
    have hbegun := begun_beginEncode w.inner width.toNat height.toNat
    generalize w.inner.beginEncode width.toNat height.toNat = begun at hbegun hstep
    cases hbegun with
    | skipped hkept =>
      cases hstep
      exact h
    | same hstate hconfigured hwidth hheight =>
      cases hstep
      refine ⟨h.range, h.framed, (fun hidle => nomatch hidle), fun p hp => ?_⟩
      cases hp
      refine ⟨hwidth, hheight, fun _ => h.framed, fun _ => ?_⟩
      obtain ⟨written, hlookup, hidr⟩ := h.idle hnone hstate hconfigured
      exact ⟨written, hlookup, fun hwritten => by simp [forcesIdr, hidr hwritten]⟩
    | resized hstate hresizes =>
      cases hstep
      have hrange := h.range.resized width.toNat_lt height.toNat_lt
      refine ⟨⟨hrange.surfaceId, hrange.width, hrange.height⟩, h.framed,
        (fun hidle => nomatch hidle), fun p hp => ?_⟩
      cases hp
      refine ⟨rfl, rfl, fun idr => ?_, fun idr => ?_⟩
      · rw [receive_resizePdus idr w.client h.range width.toNat_lt height.toNat_lt]
        exact ofFrames_create idr (ofFrames_tornDown idr h.framed w.inner) _ _ _
      · rw [receive_resizePdus idr w.client h.range width.toNat_lt height.toNat_lt]
        exact drawable_create idr true _ _ _ _ rfl

theorem inv_encode
    (h : Inv w)
    (first retry : Option EncodedAu)
    (hstep : step w (.encode first retry) = some t) : Inv t := by
  simp only [step] at hstep
  split at hstep
  · next width height leading forceIdr hpending =>
    cases hstep
    refine ⟨h.range, h.framed, (fun hidle => nomatch hidle), fun p hp => ?_⟩
    cases hp
    have hexpected := h.pending _ hpending
    exact ⟨hexpected.width, hexpected.height, hexpected.fine, hexpected.drawable⟩
  · cases hstep

theorem inv_finishEncode {p : Pending}
    (hrange : InRange w.inner)
    (hexpected : Expected w.inner w.client p)
    {idr : Bool}
    (hidr : p.forceIdr = true → idr = true)
    (encoded : EncodedAu) :
    Inv
      ⟨(w.inner.finishEncode p.width.toNat p.height.toNat encoded).2,
        w.client.receive idr
          (p.leading ++ (w.inner.finishEncode p.width.toNat p.height.toNat encoded).1), none⟩ := by
  obtain ⟨written, hlookup, hforce⟩ := hexpected.drawable idr
  have hdrawable : Drawable (w.client.receive idr p.leading) w.inner w.inner.width w.inner.height idr :=
    ⟨written, hlookup, fun hwritten => hidr (hforce hwritten)⟩
  have hwrite := hdrawable.write (hexpected.fine idr) false
  rw [receive_append, ← hexpected.width, ← hexpected.height,
    receive_finishEncode idr _ hrange hrange.width hrange.height]
  exact ⟨⟨hrange.surfaceId, hrange.width, hrange.height⟩, hwrite.2, fun _ _ _ => hwrite.1,
    (fun _ hmem => nomatch hmem)⟩

theorem inv_recordEncodeFailure {p : Pending} (h : Inv w) (hexpected : Expected w.inner w.client p)
    (hleading : p.leading = []) (idr : Bool) :
    let failed := recordEncodeFailure { w.inner with forceNextIdr := true }
    Inv ⟨failed.2, w.client.receive idr (payloadsOf failed.1), none⟩ := by
  have hdrawable := hexpected.drawable false
  rw [hleading] at hdrawable
  obtain ⟨written, hlookup, _⟩ := hdrawable
  unfold recordEncodeFailure
  dsimp only
  split
  · unfold abandon
    split
    · dsimp only [payloadsOf]
      rw [receive_deleteSurface idr w.client h.range.surfaceId]
      exact ⟨⟨h.range.surfaceId, h.range.width, h.range.height⟩, ofFrames_delete idr h.framed _,
        (fun _ hready => nomatch hready), (fun _ hmem => nomatch hmem)⟩
    · exact ⟨⟨h.range.surfaceId, h.range.width, h.range.height⟩, h.framed,
        (fun _ hready => nomatch hready), (fun _ hmem => nomatch hmem)⟩
  · exact ⟨⟨h.range.surfaceId, h.range.width, h.range.height⟩, h.framed,
      fun _ _ _ => ⟨written, hlookup, fun _ => rfl⟩, (fun _ hmem => nomatch hmem)⟩

theorem inv_endEncode
    (h : Inv w)
    (hquiet : Quiet w .endEncode)
    (hstep : step w .endEncode = some t) : Inv t := by
  simp only [step] at hstep
  split at hstep
  · next width height leading forceIdr first retry hpending =>
    cases hstep
    have hexpected := h.pending _ hpending
    have hended := ended_endEncode w.inner width.toNat height.toNat leading first retry
    generalize w.inner.endEncode width.toNat height.toNat leading first retry = ended at hended
    cases hended with
    | first encoded hfirst =>
      exact inv_finishEncode h.range hexpected
        (fun hforce => by simp [idrOf, show forceIdr = true from hforce])
        encoded
    | retry encoded hfirst hretry =>
      exact inv_finishEncode h.range hexpected (fun _ => by simp [idrOf, hfirst]) encoded
    | failed hfirst hretry =>
      exact inv_recordEncodeFailure h hexpected (hquiet _ hpending _ rfl hfirst hretry) _
  · cases hstep

theorem inv_step {action : Action}
    (h : Inv w)
    (hquiet : Quiet w action)
    (hstep : step w action = some t) : Inv t := by
  cases action with
  | message message =>
    cases hstep
    exact inv_message h message hquiet
  | resize width height =>
    cases hstep
    exact inv_resize h width height hquiet
  | beginEncode width height => exact inv_beginEncode h width height hstep
  | encode first retry => exact inv_encode h first retry hstep
  | endEncode => exact inv_endEncode h hquiet hstep

/-- Along every interleaving in which no surface is made while a frame is encoded and no frame
that was to make one fails, every frame fits its surface, in every state reached. -/
theorem framed_always_of_quiet (width height : UInt16) (schedule : List Action)
    (hquiet : Careful step Quiet (start width height) schedule) :
    Always step Framed (start width height) schedule :=
  always_of_careful Inv (fun _ h => h.framed) (fun _ _ _ h hok hstep => inv_step h hok hstep) schedule
    (inv_start width height) hquiet

def quietRun : List Action :=
  [.message (.capsAdvertise [avc420]), .beginEncode 640 480, .encode (some ⟨[1], 20⟩) none,
    .message (.frameAcknowledge 1 1 1), .endEncode, .beginEncode 800 600,
    .encode none (some ⟨[1], 20⟩), .endEncode,
    .resize 640 480]

theorem framed_quietRun :
    Careful step Quiet (start 640 480) quietRun ∧ Always step Framed (start 640 480) quietRun := by
  have hquiet : Careful step Quiet (start 640 480) quietRun := by decide +kernel
  exact ⟨hquiet, framed_always_of_quiet 640 480 quietRun hquiet⟩

def renegotiatedRun : List Action :=
  [.message (.capsAdvertise [avc420]), .beginEncode 640 480, .encode (some ⟨[1], 20⟩) none, .endEncode,
    .beginEncode 640 480, .encode (some ⟨[1], 20⟩) none, .message (.capsAdvertise [avc420]), .endEncode]

/-- The first frame on the new surface is no IDR, and the session no longer asks for one. -/
theorem idr_request_lost :
    ∃ w,
      exec step (start 640 480) renegotiatedRun = some w ∧
      w.client.faults = [.firstNotIdr 2] ∧
      w.inner.forceNextIdr = false ∧
      ¬ Framed w := by
  have hrun : (exec step (start 640 480) renegotiatedRun).any
      (fun w => w.client.faults = [.firstNotIdr 2] ∧ w.inner.forceNextIdr = false) =
        true := by decide +kernel
  obtain ⟨w, hw, hfaults⟩ := (Option.any_eq_true _ _).mp hrun
  obtain ⟨hfault, hforce⟩ := of_decide_eq_true hfaults
  refine ⟨w, hw, hfault, hforce, fun hframed => ?_⟩
  exact hframed (.firstNotIdr 2) (hfault ▸ List.mem_singleton_self _) trivial

end Kmsrdp.Guarantees.GfxInterleaving
