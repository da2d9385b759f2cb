import Kmsrdp.Source.Server.SlowPath

/-!
# Static channels during a resize

`AllDelivered`: the handlers got the static-channel PDU of every slow-path frame received, once and
in order.
-/
namespace Kmsrdp.Guarantees.ResizeDelivery
open Library.ByteString Library.Execution Source.Connector Source.Server.SlowPath

/-- Every static channel has seen exactly what came in for it. -/
def AllDelivered (channels : StaticChannels) (s : SlowPathSide) : Prop :=
  s.delivered = s.received.filterMap (staticDelivery channels)

instance (channels : StaticChannels) (s : SlowPathSide) : Decidable (AllDelivered channels s) :=
  inferInstanceAs (Decidable (_ = _))

/-- No static-channel PDU arrives while the session is resizing. -/
def QuietResize (channels : StaticChannels) (s : SlowPathSide) : Action → Prop
  | .resized _ _ => True
  | .slowPath frame => s.resizing = true → staticDelivery channels frame = none

def ResizingFollows (s : SlowPathSide) : Prop :=
  s.resizing = true ∧ s.acceptor.Reactivating ∨ s.resizing = false ∧ s.acceptor.phase = .accepted

def Inv (channels : StaticChannels) (s : SlowPathSide) : Prop :=
  AllDelivered channels s ∧ ResizingFollows s

section Session
variable {channels : StaticChannels}

theorem inv_resized (s after : SlowPathSide) {width height : Nat}
    (h : Inv channels s)
    (hstep : step channels s (.resized width height) = some after) : Inv channels after := by
  obtain ⟨hdelivered, hfollows⟩ := h
  simp only [step] at hstep
  rcases hfollows with ⟨hresizing, hphase⟩ | ⟨hresizing, hphase⟩
  · rw [if_pos hresizing] at hstep
    cases hstep
    exact ⟨hdelivered, Or.inl ⟨hresizing, hphase⟩⟩
  · simp only [hresizing, Bool.false_eq_true, if_false, Acceptor.beginResize, hphase, if_true] at hstep
    cases hstep
    exact ⟨hdelivered, Or.inl ⟨rfl, Or.inl rfl⟩⟩

theorem inv_frame_idle (s after : SlowPathSide) {frame : Bytes}
    (h : Inv channels s)
    (hidle : s.resizing = false)
    (hstep : step channels s (.slowPath frame) = some after) : Inv channels after := by
  obtain ⟨hdelivered, hfollows⟩ := h
  simp only [step] at hstep
  rw [if_neg (by simp [hidle])] at hstep
  cases hstep
  refine ⟨?_, hfollows⟩
  unfold AllDelivered at hdelivered ⊢
  simp only [SlowPathSide.handleSlowPathFrame, List.filterMap_append, ← hdelivered]
  cases hframe : staticDelivery channels frame <;> simp [hframe]

theorem step_frame_resizing (channels : StaticChannels) {s : SlowPathSide} (frame : Bytes)
    (hresizing : s.resizing = true)
    (hphase : s.acceptor.Reactivating) :
    ∃ after,
      step channels s (.slowPath frame) = some after ∧
      after.delivered = s.delivered ∧
      after.received = s.received ++ [frame] ∧
      ResizingFollows after :=
    by
  obtain ⟨acceptor, resizing, heq, hfollows⟩ := onFrameWhileResizing_eq channels
    (s := { s with received := s.received ++ [frame] }) hresizing hphase frame
  refine ⟨{ s with received := s.received ++ [frame], acceptor := acceptor, resizing := resizing },
    ?_, rfl, rfl, hfollows⟩
  simp only [step]
  rw [if_pos hresizing, heq]

theorem inv_step (s : SlowPathSide) (action : Action) (after : SlowPathSide)
    (h : Inv channels s)
    (hquiet : QuietResize channels s action)
    (hstep : step channels s action = some after) : Inv channels after := by
  cases action with
  | resized width height => exact inv_resized s after h hstep
  | slowPath frame =>
    rcases h.2 with ⟨hresizing, hphase⟩ | ⟨hidle, -⟩
    · obtain ⟨after', hstep', hsame, hreceived, hfollows⟩ :=
        step_frame_resizing channels frame hresizing hphase
      rw [hstep] at hstep'
      cases hstep'
      refine ⟨?_, hfollows⟩
      have hnone := hquiet hresizing
      rw [AllDelivered, hsame, hreceived, List.filterMap_append, ← h.1]
      simp [hnone]
    · exact inv_frame_idle s after h hidle hstep

theorem noisy_step_breaks (s : SlowPathSide) (action : Action)
    (h : Inv channels s)
    (hnoisy : ¬ QuietResize channels s action) :
    ∃ after, step channels s action = some after ∧ ¬ AllDelivered channels after := by
  cases action with
  | resized width height => exact absurd trivial hnoisy
  | slowPath frame =>
    obtain ⟨hresizing, hsome⟩ := Classical.not_imp.mp hnoisy
    have hphase : s.acceptor.Reactivating := by
      rcases h.2 with ⟨-, hphase⟩ | ⟨hidle, -⟩
      · exact hphase
      · rw [hresizing] at hidle
        cases hidle
    obtain ⟨delivery, hdelivery⟩ := Option.ne_none_iff_exists'.mp hsome
    obtain ⟨after, hstep, hsame, hreceived, -⟩ :=
      step_frame_resizing channels frame hresizing hphase
    refine ⟨after, hstep, fun hall => ?_⟩
    rw [AllDelivered, hsame, hreceived, List.filterMap_append, ← h.1] at hall
    simp [hdelivery] at hall

/-- Every static-channel PDU reaches its handler once and in order, all along a session, if
and only if none arrives while a resize is in flight. -/
theorem allDelivered_always_iff_quietResize (channels : StaticChannels) (acceptor : Acceptor)
    (accepted : acceptor.phase = .accepted)
    (schedule : List Action) :
    Always (step channels) (AllDelivered channels) (start acceptor) schedule ↔
      Careful (step channels) (QuietResize channels) (start acceptor) schedule :=
  always_iff_careful (Inv channels) (fun _ h => h.1) inv_step noisy_step_breaks schedule
    ⟨rfl, Or.inr ⟨rfl, accepted⟩⟩

end Session

def clipboardOnly : StaticChannels := ⟨none, some 1004, none, none⟩

def acceptedDesktop : Acceptor := { Acceptor.new 1024 768 false with phase := .accepted }

def clipboardUnit : Bytes :=
  [0x03, 0x00, 0x00, 0x0F, 0x02, 0xF0, 0x80, 0x64, 0x00, 0x01, 0x03, 0xEC, 0x70, 0x01, 0xAA]

theorem allDelivered_outside_resize :
    Careful (step clipboardOnly) (QuietResize clipboardOnly) (start acceptedDesktop)
      [.slowPath clipboardUnit, .resized 800 600] ∧
    Always (step clipboardOnly) (AllDelivered clipboardOnly) (start acceptedDesktop)
      [.slowPath clipboardUnit, .resized 800 600] := by
  have hquiet : Careful (step clipboardOnly) (QuietResize clipboardOnly) (start acceptedDesktop)
      [.slowPath clipboardUnit, .resized 800 600] :=
    ⟨fun h => (by cases h), fun _ _ => ⟨trivial, fun _ _ => trivial⟩⟩
  exact ⟨hquiet, (allDelivered_always_iff_quietResize clipboardOnly acceptedDesktop rfl _).mpr hquiet⟩

/-- The same message sent during the resize is given to nobody. -/
theorem clipboardUnit_lost_in_resize :
    staticDelivery clipboardOnly clipboardUnit = some ⟨.cliprdr, [0xAA]⟩ ∧
    (exec (step clipboardOnly) (start acceptedDesktop)
       [.resized 800 600, .slowPath clipboardUnit]).map (fun s => (s.resizing, s.delivered)) =
      some (true, []) ∧
    ¬ Always (step clipboardOnly) (AllDelivered clipboardOnly) (start acceptedDesktop)
        [.resized 800 600, .slowPath clipboardUnit] := by
  refine ⟨by decide, by decide, fun h => ?_⟩
  have hlast := h.last (t := _) rfl
  exact absurd hlast (by decide)

end Kmsrdp.Guarantees.ResizeDelivery
