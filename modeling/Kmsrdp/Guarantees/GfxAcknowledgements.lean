import Kmsrdp.Guarantees.GfxInterleaving

/-!
# Frames to a client that acknowledges no more

After a FrameAcknowledge with queue depth 0xFFFFFFFF no frame should be skipped for backpressure.
The session takes it as a queue of depth zero and goes on counting.
-/
namespace Kmsrdp.Guarantees.GfxAcknowledgements
open Library.ByteString Library.Execution Source.Rdpegfx Client.GfxSurfaces
  Guarantees.GfxInterleaving Inner

/-- The frame is skipped, and would not be if no frame were in flight. -/
def SkippedForBackpressure (inner : Inner) (width height : Nat) : Prop :=
  (inner.beginEncode width height).1 = .error .skip ∧
    ({ inner with framesInFlight := 0 }.beginEncode width height).1 ≠ .error .skip

instance (inner : Inner) (width height : Nat) :
    Decidable (SkippedForBackpressure inner width height) :=
  inferInstanceAs (Decidable (_ ∧ ¬ _))

def HasSurface (inner : Inner) (width height : Nat) : Prop :=
  inner.state = .ready ∧ (width ≠ 0 ∧ height ≠ 0) ∧ inner.surfaceConfigured = true ∧
    inner.width = width ∧ inner.height = height

def IsAcknowledgement : Action → Bool
  | .message (.frameAcknowledge _ _ _) => true
  | _ => false

def renews (w : World) : Action → Bool
  | .message (.capsAdvertise sets) => (selectAvc420Capability sets).isSome
  | .resize width height => decide (w.inner.Resizes width.toNat height.toNat)
  | .beginEncode width height =>
    decide (w.inner.state = .ready ∧ w.inner.Resizes width.toNat height.toNat)
  | _ => false

def finishes (w : World) : Action → Bool
  | .endEncode =>
    match w.pending with
    | some ⟨_, _, _, _, some (first, retry)⟩ =>
      (Inner.usable first).isSome || (Inner.usable retry).isSome
    | _ => false
  | _ => false

def countAfter (w : World) (action : Action) (count : Nat) : Nat :=
  if renews w action then 0 else if finishes w action then count + 1 else count

/-- The frames finished since the count was last renewed. -/
def framesSince : World → Nat → List Action → Nat
  | _, count, [] => count
  | w, count, action :: rest =>
    match step w action with
    | none => count
    | some t => framesSince t (countAfter w action count) rest

section
variable (inner : Inner)

theorem skippedForBackpressure_iff (width height : Nat) :
    SkippedForBackpressure inner width height ↔
      HasSurface inner width height ∧ maxFramesInFlight ≤ inner.framesInFlight := by
  have hroom : ¬ maxFramesInFlight ≤ 0 := by decide
  by_cases hstate : inner.state = .ready
  swap
  · have hskip : ∀ n, ({ inner with framesInFlight := n }.beginEncode width height).1 = .error .skip :=
      fun n => by rw [beginEncode, if_pos hstate]
    exact ⟨fun h => absurd (hskip 0) h.2, fun h => absurd h.1.1 hstate⟩
  by_cases hzero : width = 0 ∨ height = 0
  · have hskip : ∀ n, ({ inner with framesInFlight := n }.beginEncode width height).1 = .error .skip :=
      fun n => by rw [beginEncode, if_neg (not_not.mpr hstate), if_pos hzero]
    exact ⟨fun h => absurd (hskip 0) h.2, fun h => absurd hzero (not_or.mpr h.1.2.1)⟩
  by_cases hsame : inner.surfaceConfigured = true ∧ inner.width = width ∧ inner.height = height
  · have hbegin : ∀ n, ({ inner with framesInFlight := n }.beginEncode width height).1 =
        if maxFramesInFlight ≤ n then .error .skip else .ok ([], inner.forcesIdr) := by
      intro n
      obtain ⟨hconfigured, hwidth, hheight⟩ := hsame
      simp only [beginEncode, hstate, hzero, hconfigured, hwidth, hheight, ne_eq, not_true_eq_false,
        or_self, if_false, apply_ite Prod.fst]
      rfl
    have hskipped : (inner.beginEncode width height).1 = .error .skip ↔
        maxFramesInFlight ≤ inner.framesInFlight := by
      rw [hbegin inner.framesInFlight]
      by_cases hfull : maxFramesInFlight ≤ inner.framesInFlight
      · simp [hfull]
      · simp [hfull]
    have hgoesOn : ({ inner with framesInFlight := 0 }.beginEncode width height).1 ≠ .error .skip := by
      rw [hbegin 0, if_neg hroom]
      exact fun h => by cases h
    exact ⟨fun h => ⟨⟨hstate, not_or.mp hzero, hsame⟩, hskipped.mp h.1⟩,
      fun h => ⟨hskipped.mpr h.2, hgoesOn⟩⟩
  · -- a frame of another size makes its surface first, and that empties the queue
    have hresizes : inner.Resizes width height := ⟨(not_or.mp hzero).1, (not_or.mp hzero).2, hsame⟩
    refine ⟨fun h => ?_, fun h => absurd h.1.2.2 hsame⟩
    have hbegun := begun_beginEncode inner width height
    have hskip := h.1
    generalize inner.beginEncode width height = begun at hbegun hskip
    cases hbegun with
    | skipped hkept => exact absurd ⟨hstate, hresizes⟩ hkept
    | same _ hconfigured hwidth hheight => exact absurd ⟨hconfigured, hwidth, hheight⟩ hsame
    | resized => cases hskip

theorem framesInFlight_onCaps (sets : List RawCapabilitySet) :
    (inner.onCaps sets).2.framesInFlight =
      if (selectAvc420Capability sets).isSome then 0 else inner.framesInFlight := by
  cases hselected : selectAvc420Capability sets with
  | none => rw [onCaps_of_none hselected]; rfl
  | some selected => rw [onCaps_of_some hselected]; rfl

theorem framesInFlight_resize (width height : Nat) :
    (inner.resize width height).2.framesInFlight =
      if inner.Resizes width height then 0 else inner.framesInFlight := by
  by_cases hresizes : inner.Resizes width height
  · rw [resize_of_resizes hresizes, if_pos hresizes]
    split <;> rfl
  · rw [resize_of_not_resizes hresizes, if_neg hresizes]

theorem framesInFlight_beginEncode (width height : Nat) :
    (inner.beginEncode width height).2.framesInFlight =
      if inner.state = .ready ∧ inner.Resizes width height then 0 else inner.framesInFlight := by
  have hbegun := begun_beginEncode inner width height
  generalize inner.beginEncode width height = begun at hbegun
  cases hbegun with
  | skipped hkept => rw [if_neg hkept]
  | same hstate hconfigured hwidth hheight =>
    rw [if_neg fun h => h.2.2.2 ⟨hconfigured, hwidth, hheight⟩]
  | resized hstate hresizes => rw [if_pos ⟨hstate, hresizes⟩]; rfl

theorem framesInFlight_recordEncodeFailure :
    inner.recordEncodeFailure.2.framesInFlight = inner.framesInFlight := by
  unfold recordEncodeFailure abandon
  dsimp only
  split
  · split <;> rfl
  · rfl

theorem framesInFlight_endEncode (width height : Nat) (leading : List Bytes)
    (first retry : Option EncodedAu) :
    (inner.endEncode width height leading first retry).2.framesInFlight =
      if (usable first).isSome || (usable retry).isSome then satSucc 32 inner.framesInFlight
      else inner.framesInFlight := by
  have hended := ended_endEncode inner width height leading first retry
  generalize inner.endEncode width height leading first retry = ended at hended
  cases hended with
  | first encoded hfirst => simp [hfirst, finishEncode]
  | retry encoded hfirst hretry => simp [hretry, finishEncode]
  | failed hfirst hretry =>
    rw [framesInFlight_recordEncodeFailure]
    simp [hfirst, hretry]

end

theorem framesInFlight_step {w t : World} {action : Action}
    (hsilent : IsAcknowledgement action = false)
    (hstep : step w action = some t) :
    t.inner.framesInFlight =
      if renews w action then 0
      else if finishes w action then satSucc 32 w.inner.framesInFlight else w.inner.framesInFlight := by
  cases action with
  | message message =>
    cases hstep
    cases message with
    | capsAdvertise sets => exact framesInFlight_onCaps w.inner sets
    | frameAcknowledge => cases hsilent
    | cacheImportOffer | other => rfl
  | resize width height =>
    cases hstep
    simpa [renews, finishes] using framesInFlight_resize w.inner width.toNat height.toNat
  | beginEncode width height =>
    have hinner : t.inner = (w.inner.beginEncode width.toNat height.toNat).2 := by
      simp only [step] at hstep
      split at hstep
      · cases hstep
      · split at hstep <;> cases hstep <;> rfl
    simpa [hinner, renews, finishes] using framesInFlight_beginEncode w.inner width.toNat height.toNat
  | encode first retry =>
    simp only [step] at hstep
    split at hstep <;> cases hstep
    rfl
  | endEncode =>
    simp only [step] at hstep
    split at hstep
    · next width height leading forceIdr first retry hpending =>
      cases hstep
      simpa [renews, finishes, hpending] using
        framesInFlight_endEncode w.inner width.toNat height.toNat leading first retry
    · cases hstep

theorem framesInFlight_exec (schedule : List Action) {w t : World} {count : Nat}
    (hsilent : ∀ action ∈ schedule, IsAcknowledgement action = false)
    (hcount : w.inner.framesInFlight = min count (2 ^ 32 - 1))
    (hexec : exec step w schedule = some t) :
    t.inner.framesInFlight = min (framesSince w count schedule) (2 ^ 32 - 1) := by
  induction schedule generalizing w count with
  | nil =>
    cases hexec
    exact hcount
  | cons action rest ih =>
    obtain ⟨u, hstep, hrest⟩ := exec_cons_some hexec
    have hnext : u.inner.framesInFlight = min (countAfter w action count) (2 ^ 32 - 1) := by
      rw [framesInFlight_step (hsilent action List.mem_cons_self) hstep, hcount]
      unfold countAfter satSucc
      split
      · rfl
      · split
        · omega
        · rfl
    have hlater := ih (fun a ha => hsilent a (List.mem_cons_of_mem _ ha)) hnext hrest
    rw [framesSince, hstep]
    exact hlater

theorem framesInFlight_of_begun {inner : Inner} {width height : Nat} {begun : List Bytes × Bool}
    (h : (inner.beginEncode width height).1 = .ok begun) :
    (inner.beginEncode width height).2.framesInFlight < maxFramesInFlight := by
  unfold beginEncode at h ⊢
  dsimp only at h ⊢
  split_ifs at h ⊢
  all_goals exact Nat.lt_of_not_le ‹_›

/-- A frame is begun below the limit, and an acknowledgement may take the count up to it before the
frame ends. -/
def InFlight (w : World) : Prop :=
  w.inner.framesInFlight ≤ maxFramesInFlight + if w.pending.isSome then 0 else 1

theorem inFlight_step (w : World) (action : Action) (t : World)
    (h : InFlight w)
    (hstep : step w action = some t) : InFlight t := by
  unfold InFlight at h ⊢
  cases action with
  | message message =>
    cases hstep
    cases message with
    | capsAdvertise sets => grind [onClientMessage, framesInFlight_onCaps]
    | frameAcknowledge | cacheImportOffer | other => grind [onClientMessage, onFrameAck]
  | resize width height =>
    cases hstep
    grind [framesInFlight_resize]
  | beginEncode width height =>
    have hbegun := @framesInFlight_of_begun w.inner width.toNat height.toNat
    simp only [step] at hstep
    grind [framesInFlight_beginEncode]
  | encode first retry =>
    simp only [step] at hstep
    grind
  | endEncode =>
    simp only [step] at hstep
    grind [framesInFlight_endEncode, satSucc]

/-- In every interleaving the session counts at most one frame beyond its limit, and none while it
encodes. -/
theorem inFlight_always (width height : UInt16) (schedule : List Action) :
    Always step InFlight (start width height) schedule :=
  always_of_invariant InFlight (fun _ h => h) inFlight_step schedule (Nat.zero_le _)

/-- Once the client has said that it acknowledges no more, and does not, a frame is not skipped
for backpressure exactly when fewer than thirty-two frames were finished on the surface it goes
to since then, or it goes to none that exists. -/
theorem not_skipped_iff_frames_below {u v w : World} {frameId totalFramesDecoded : Nat}
    {later : List Action}
    (hlast :
      step u (.message (.frameAcknowledge queueDepthUnavailable frameId totalFramesDecoded)) =
        some v)
    (hsilent : ∀ action ∈ later, IsAcknowledgement action = false)
    (hlater : exec step v later = some w)
    (width height : UInt16) :
    ¬ SkippedForBackpressure w.inner width.toNat height.toNat ↔
        (HasSurface w.inner width.toNat height.toNat →
           framesSince v 0 later < maxFramesInFlight) := by
  have hempty : v.inner.framesInFlight = min 0 (2 ^ 32 - 1) := by
    cases hlast
    rfl
  have hcount := framesInFlight_exec later hsilent hempty hlater
  have hfull : maxFramesInFlight ≤ w.inner.framesInFlight ↔
      maxFramesInFlight ≤ framesSince v 0 later := by
    rw [hcount]
    unfold maxFramesInFlight
    omega
  rw [skippedForBackpressure_iff, hfull, not_and, Nat.not_le]

def oneFrame : List Action := [.beginEncode 64 64, .encode (some ⟨[1], 20⟩) none, .endEncode]

def negotiated : World :=
  (step (start 64 64) (.message (.capsAdvertise [avc420]))).getD (start 64 64)

theorem not_skipped_after_one_frame :
    ∃ v w,
      step negotiated (.message (.frameAcknowledge queueDepthUnavailable 1 1)) = some v ∧
      exec step v oneFrame = some w ∧
      ¬ SkippedForBackpressure w.inner 64 64 := by
  have hrun : (step negotiated (.message (.frameAcknowledge queueDepthUnavailable 1 1))).any (fun v =>
      (exec step v oneFrame).isSome && decide (framesSince v 0 oneFrame = 1)) =
        true := by decide +kernel
  obtain ⟨v, hv, hcount⟩ := (Option.any_eq_true _ _).mp hrun
  obtain ⟨hsome, hcount⟩ := Bool.and_eq_true_iff.mp hcount
  obtain ⟨w, hw⟩ := Option.isSome_iff_exists.mp hsome
  refine ⟨v, w, hv, hw, (not_skipped_iff_frames_below hv (by decide) hw 64 64).mpr fun _ => ?_⟩
  rw [of_decide_eq_true hcount]
  decide

/-- Thirty-two frames after the announcement the next one is skipped, although the queue of the
client may be empty. -/
theorem skipped_after_thirty_two_frames :
    ∃ v w,
      step negotiated (.message (.frameAcknowledge queueDepthUnavailable 1 1)) = some v ∧
      exec step v (List.replicate 32 oneFrame).flatten = some w ∧
      SkippedForBackpressure w.inner 64 64 := by
  have hrun : (step negotiated (.message (.frameAcknowledge queueDepthUnavailable 1 1))).any (fun v =>
      (exec step v (List.replicate 32 oneFrame).flatten).any fun w =>
        decide (SkippedForBackpressure w.inner 64 64)) = true := by decide +kernel
  obtain ⟨v, hv, hrest⟩ := (Option.any_eq_true _ _).mp hrun
  obtain ⟨w, hw, hskipped⟩ := (Option.any_eq_true _ _).mp hrest
  exact ⟨v, w, hv, hw, of_decide_eq_true hskipped⟩

end Kmsrdp.Guarantees.GfxAcknowledgements
