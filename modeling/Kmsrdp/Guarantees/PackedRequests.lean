import Kmsrdp.Source.Server.SteadyState

/-!
# Several requests in one X.224 unit

In steady state only the first of several Send Data Requests in a unit is served. So packing has the
effect of sending each alone exactly if every request behind the first would have done nothing:
nobody serves its channel, it cannot be decoded, its input events call no handler, or it repeats the
state of `display_updates_allowed`.
-/
namespace Kmsrdp.Guarantees.PackedRequests
open Library.ByteString Source.Pdu Source.Server.Framing Source.Server.SlowPath List
  Source.Server.SteadyState
open Source.Server.SharedInput (FastPathInputEvent dispatchInputEvent)

structure RequestPdu where
  bytes : Bytes
  sendData : SendData
  reads : Reads SendData.decodeRequestFromCursor bytes sendData

def RequestPdu.of (initiator channelId : UInt16) (data : Bytes) (hdata : data.length < 0x8000) :
    RequestPdu :=
  ⟨SendData.encodeRequest ⟨initiator.toNat, channelId.toNat, data, true⟩,
    ⟨initiator.toNat, channelId.toNat, data, true⟩,
    SendData.reads_encode _ initiator.toNat_lt channelId.toNat_lt hdata rfl⟩

/-- Several requests in one data unit. -/
def packed (pdus : List RequestPdu) : SteadyStateFrame :=
  .slowPath (wrapData (pdus.flatMap RequestPdu.bytes))

def RequestPdu.alone (pdu : RequestPdu) : SteadyStateFrame := .slowPath (wrapData pdu.bytes)

/-- The request does nothing while `allowed` is the state of display updates. -/
def Inert (channels : StaticChannels) (allowed : Bool) (sendData : SendData) : Prop :=
  match requestOf channels sendData with
  | none => True
  | some (.input events) => ∀ event ∈ events, dispatchInputEvent event = none
  | some (.suppressOutput allow) => allow = allowed
  | some (.refreshRect _) => False
  | some (.channelData _ _) => False

def served (s : Session) : Option Request → Session
  | some request => s.serve request
  | none => s

open Session

theorem onFrame_alone (s : Session) (channels : StaticChannels) (pdu : RequestPdu) :
    s.onFrame channels pdu.alone = served s (requestOf channels pdu.sendData) := by
  have hrequest := frameRequest_of_reads channels pdu.reads []
  rw [append_nil] at hrequest
  rw [RequestPdu.alone, onFrame, hrequest]
  rfl

theorem onFrame_packed_cons (s : Session) (channels : StaticChannels) (first : RequestPdu)
    (later : List RequestPdu) :
    s.onFrame channels (packed (first :: later)) = s.onFrame channels first.alone := by
  rw [onFrame_alone, packed, onFrame, flatMap_cons, frameRequest_of_reads channels first.reads]
  rfl

theorem inputCalls_eq_nil {events : List FastPathInputEvent} :
    inputCalls events = [] ↔ ∀ event ∈ events, dispatchInputEvent event = none := by
  rw [inputCalls, filterMap_eq_nil_iff]
  simp only [Option.map_eq_none_iff]

theorem inert_iff (s : Session) (channels : StaticChannels) (sendData : SendData) :
    Inert channels s.displayUpdatesAllowed sendData ↔
      served s (requestOf channels sendData) = s := by
  obtain ⟨allowed, calls⟩ := s
  have hserve : ∀ request, served ⟨allowed, calls⟩ (some request) = ⟨allowed, calls⟩ ↔
      allowedAfter allowed request = allowed ∧ requestCalls allowed request = [] := by
    intro request
    simp only [served, serve, mk.injEq, append_right_eq_self]
  unfold Inert
  cases requestOf channels sendData with
  | none => simp only [served]
  | some request =>
    rw [hserve]
    cases request with
    | input events => simp only [allowedAfter, requestCalls, true_and, inputCalls_eq_nil]
    | suppressOutput allow => cases allow <;> cases allowed <;> simp [allowedAfter, requestCalls]
    | refreshRect rects => simp [requestCalls]
    | channelData handler data => simp [requestCalls]

section Runs
variable (channels : StaticChannels)

theorem length_calls_le_served (s : Session) (request : Option Request) :
    s.calls.length ≤ (served s request).calls.length := by
  cases request with
  | none => exact Nat.le_refl _
  | some request => rw [served, serve, length_append]; exact Nat.le_add_right _ _

open RequestPdu

theorem length_calls_le_onFrames (s : Session) (pdus : List RequestPdu) :
    s.calls.length ≤ (s.onFrames channels (pdus.map alone)).calls.length := by
  induction pdus generalizing s with
  | nil => exact Nat.le_refl _
  | cons pdu rest ih =>
    rw [map_cons, onFrames, foldl_cons, onFrame_alone]
    exact Nat.le_trans (length_calls_le_served s _) (ih _)

theorem served_of_no_call {s : Session} {request : Option Request}
    (h : (served s request).calls.length ≤ s.calls.length) :
    served s request = s ∨
    s.displayUpdatesAllowed = true ∧
    served s request = { s with displayUpdatesAllowed := false } := by
  obtain ⟨allowed, calls⟩ := s
  cases request with
  | none => exact .inl rfl
  | some request =>
    have hnone : requestCalls allowed request = [] := by
      simp only [served, serve, length_append] at h
      exact length_eq_zero_iff.mp (by omega)
    have hserved : served ⟨allowed, calls⟩ (some request) = ⟨allowedAfter allowed request, calls⟩ := by
      simp only [served, serve, hnone, append_nil]
    rw [hserved]
    cases request with
    | suppressOutput allow =>
      cases allow <;> cases allowed
      · exact .inl rfl
      · exact .inr ⟨rfl, rfl⟩
      · exact absurd hnone (by decide)
      · exact .inl rfl
    | input events => exact .inl rfl
    | refreshRect rects => exact .inl rfl
    | channelData handler data => exact .inl rfl

theorem onFrames_of_suppressed {s : Session}
    (hoff : s.displayUpdatesAllowed = false)
    (pdus : List RequestPdu)
    (h : (s.onFrames channels (pdus.map alone)).calls.length ≤ s.calls.length) :
    s.onFrames channels (pdus.map alone) = s := by
  induction pdus with
  | nil => rfl
  | cons pdu rest ih =>
    rw [map_cons, onFrames, foldl_cons, onFrame_alone] at h ⊢
    have hfirst := Nat.le_trans (length_calls_le_onFrames channels _ rest) h
    rcases served_of_no_call hfirst with hsame | ⟨hon, -⟩
    · rw [hsame] at h ⊢
      exact ih h
    · rw [hoff] at hon
      cases hon

theorem onFrames_eq_self_iff (s : Session) (pdus : List RequestPdu) :
    s.onFrames channels (pdus.map alone) = s ↔
      ∀ pdu ∈ pdus, Inert channels s.displayUpdatesAllowed pdu.sendData := by
  induction pdus with
  | nil => simp [onFrames]
  | cons pdu rest ih =>
    rw [forall_mem_cons, inert_iff, ← ih]
    rw [map_cons, onFrames, foldl_cons, onFrame_alone]
    constructor
    · intro hsame
      have hcalls : ((served s (requestOf channels pdu.sendData)).onFrames channels
          (rest.map alone)).calls.length ≤ s.calls.length := (congrArg (·.calls.length) hsame).le
      have hfirst := Nat.le_trans (length_calls_le_onFrames channels _ rest) hcalls
      rcases served_of_no_call hfirst with hpdu | ⟨hon, hpdu⟩
      · rw [hpdu] at hsame
        exact ⟨hpdu, hsame⟩
      · -- switched off, and nothing can switch them on again without a call
        rw [hpdu] at hcalls hsame
        have hoff := onFrames_of_suppressed channels rfl rest hcalls
        rw [show foldl _ _ _ = _ from hoff] at hsame
        have hallowed := congrArg displayUpdatesAllowed hsame
        rw [hon] at hallowed
        cases hallowed
    · rintro ⟨hpdu, hrest⟩
      rw [hpdu]
      exact hrest

end Runs

/-- Packing is harmless exactly if every request behind the first does nothing where the first
one leaves the session. -/
theorem packed_eq_iff (channels : StaticChannels) (s : Session) (pdus : List RequestPdu) :
    s.onFrame channels (packed pdus) = s.onFrames channels (pdus.map RequestPdu.alone) ↔
      ∀ pdu ∈ pdus.tail,
        Inert channels
          (s.onFrames channels ((pdus.take 1).map RequestPdu.alone)).displayUpdatesAllowed
          pdu.sendData := by
  cases pdus with
  | nil =>
    have hnil : s.onFrame channels (packed []) = s := rfl
    simp [hnil, onFrames]
  | cons first later =>
    rw [onFrame_packed_cons]
    rw [eq_comm]
    exact onFrames_eq_self_iff channels _ later

/-! Two clipboard messages in one unit: the second one never arrives. -/

def clipboardOnly : StaticChannels := ⟨none, some 1004, none, none⟩

def firstCopy : RequestPdu := .of 1002 1004 [1] (by decide)

def secondCopy : RequestPdu := .of 1002 1004 [2] (by decide)

theorem packed_drops_second :
    (Session.mk true []).onFrame clipboardOnly (packed [firstCopy, secondCopy]) =
      ⟨true, [.channelData .cliprdr [1]]⟩ ∧
    (Session.mk true []).onFrames clipboardOnly ([firstCopy, secondCopy].map RequestPdu.alone) =
      ⟨true, [.channelData .cliprdr [1], .channelData .cliprdr [2]]⟩ :=
  ⟨rfl, rfl⟩

end Kmsrdp.Guarantees.PackedRequests
