import Kmsrdp.Guarantees.PduPacking

/-!
# Confirm Active in several MCS segments

`confirm_active_buf` puts together a Confirm Active that comes in several Send Data Requests. Each
request is first read as if a PDU started there, so that PDUs of other types are ignored.
-/
namespace Kmsrdp.Guarantees.ConfirmActiveSegments
open Library.ByteString Source.Pdu Source.Connector Guarantees.ReactivationErrors
  Guarantees.PduPacking List Acceptor
open Source.Connector.Acceptor (onSendData onSendData_turn reactivationLoop
  step_eq_stepReactivation)

structure SegmentUnit extends DataUnit where
  sendData : SendData
  request : SendData.decodeRequestFromCursor payload = .ok (sendData, [])

/-- Segments on the I/O channel, with the end flag on the last. -/
structure Split (pdu : Bytes) where
  front : List SegmentUnit
  last : SegmentUnit
  joined : (front ++ [last]).flatMap (·.sendData.data) = pdu
  onIoChannel : ∀ segment ∈ front ++ [last], segment.sendData.channelId = ioChannelId
  unfinished : ∀ segment ∈ front, segment.sendData.complete = false
  finished : last.sendData.complete = true

def Split.segments {pdu : Bytes} (split : Split pdu) : List SegmentUnit :=
  split.front ++ [split.last]

def Split.units {pdu : Bytes} (split : Split pdu) : List DataUnit :=
  split.segments.map SegmentUnit.toDataUnit

def dropped (data : Bytes) : Bool := (Acceptor.shareControlType data).any (· ≠ .confirmActive)

/-- What the segments leave in the buffer. -/
def keptData (segments : List SegmentUnit) : Bytes :=
  segments.flatMap fun segment => if dropped segment.sendData.data then [] else segment.sendData.data

def negotiated (confirm : ConfirmActive) : Option NsCodecNegotiated × Option Nat :=
  (parseClientNscodec confirm.capabilities 3, parseClientMaxRequestSize confirm.capabilities)

def activated (a : Acceptor) (confirm : ConfirmActive) : Acceptor :=
  { a with
    confirmActiveBuf := []
    nscodec := (negotiated confirm).1
    maxRequestSize := (negotiated confirm).2
    phase := .waitFinalization false }

variable {a : Acceptor}

theorem step_segment (h : a.Reactivating) (segment : SegmentUnit) :
    a.step segment.input = onSendData a segment.sendData := by
  obtain ⟨⟨input, payload, hcarries⟩, sendData, hrequest⟩ := segment
  obtain ⟨byte, rest, rfl, -⟩ := choice_of_ok hrequest
  rw [step_eq_stepReactivation h, stepReactivation, hcarries]
  dsimp only [length_cons]
  rw [reactivationLoop, h.not_finished, if_neg (by simp), hrequest]
  have houtcome := (onSendData_turn a sendData).does h
  dsimp only
  generalize onSendData a sendData = outcome at houtcome
  cases houtcome with
  | failed error b phase settings => rfl
  | accepted answer connection b hanswer phase settings => rfl
  | goesOn answer b hanswer phase settings =>
    exact reactivationLoop_nil _ b answer

theorem step_confirmActive (hphase : a.phase = .waitConfirmActive) (segment : SegmentUnit) :
    a.step segment.input = a.onConfirmActiveSendData segment.sendData := by
  rw [step_segment (.inl hphase), onSendData, hphase]

section Segment
variable {a : Acceptor} (hphase : a.phase = .waitConfirmActive) (segment : SegmentUnit)
  (hchannel : segment.sendData.channelId = ioChannelId)
  (hroom : a.confirmActiveBuf.length + segment.sendData.data.length ≤ maxConfirmActiveLen)
include hphase hchannel

theorem step_dropped (hdropped : dropped segment.sendData.data = true) :
    a.step segment.input = (.ok (.just []), a) := by
  rw [dropped] at hdropped
  rw [step_confirmActive hphase, onConfirmActiveSendData, if_neg (not_not.mpr hchannel),
    if_pos hdropped]

include hroom

theorem step_kept (hkept : dropped segment.sendData.data = false) :
    a.step segment.input =
      if segment.sendData.complete = false then
        (.ok (.just []), { a with confirmActiveBuf := a.confirmActiveBuf ++ segment.sendData.data })
      else
        match tryDecodeConfirmActive (a.confirmActiveBuf ++ segment.sendData.data) with
        | .error error => ({ a with confirmActiveBuf := [] } : Acceptor).failDecode error
        | .ok confirm => (.ok (.just [.synchronize, .cooperate]), activated a confirm) := by
  rw [dropped] at hkept
  rw [step_confirmActive hphase, onConfirmActiveSendData, if_neg (not_not.mpr hchannel),
    if_neg (Bool.eq_false_iff.mp hkept), if_neg (Nat.not_lt.mpr hroom)]
  rfl

theorem step_unfinished (hunfinished : segment.sendData.complete = false) :
    a.step segment.input =
      (.ok (.just []),
        { a with confirmActiveBuf := a.confirmActiveBuf ++ keptData [segment] }) := by
  cases hdropped : dropped segment.sendData.data with
  | true =>
    rw [step_dropped hphase segment hchannel hdropped]
    simp [keptData, hdropped]
  | false =>
    rw [step_kept hphase segment hchannel hroom hdropped, if_pos hunfinished]
    simp [keptData, hdropped]

theorem course_last (hfinished : segment.sendData.complete = true) :
    course a [segment.toDataUnit] =
      if dropped segment.sendData.data then some ⟨[], [], a⟩
      else
        match tryDecodeConfirmActive (a.confirmActiveBuf ++ segment.sendData.data) with
        | .error _ => none
        | .ok confirm => some ⟨[.synchronize, .cooperate], [], activated a confirm⟩ := by
  rw [course]
  cases hdropped : dropped segment.sendData.data with
  | true =>
    rw [step_dropped hphase segment hchannel hdropped, if_pos rfl]
    rfl
  | false =>
    rw [step_kept hphase segment hchannel hroom hdropped, if_neg (by simp [hfinished]),
      if_neg Bool.false_ne_true]
    cases tryDecodeConfirmActive (a.confirmActiveBuf ++ segment.sendData.data) with
    | error error => rfl
    | ok confirm => rfl

end Segment

theorem keptData_cons (segment : SegmentUnit) (rest : List SegmentUnit) :
    keptData (segment :: rest) = keptData [segment] ++ keptData rest := by
  simp [keptData]

theorem length_keptData_le (segments : List SegmentUnit) :
    (keptData segments).length ≤ (segments.flatMap (·.sendData.data)).length := by
  induction segments with
  | nil => exact Nat.le_refl _
  | cons segment rest ih =>
    rw [keptData_cons, flatMap_cons, length_append, length_append]
    have hfirst : (keptData [segment]).length ≤ segment.sendData.data.length := by
      simp only [keptData, flatMap_cons, flatMap_nil, append_nil]
      split <;> simp
    exact Nat.add_le_add hfirst ih

theorem course_front (front : List SegmentUnit)
    (hphase : a.phase = .waitConfirmActive)
    (hchannel : ∀ segment ∈ front, segment.sendData.channelId = ioChannelId)
    (hunfinished : ∀ segment ∈ front, segment.sendData.complete = false)
    (hroom :
      a.confirmActiveBuf.length + (front.flatMap (·.sendData.data)).length ≤ maxConfirmActiveLen)
    (rest : List DataUnit) :
    course a (front.map SegmentUnit.toDataUnit ++ rest) =
      course { a with confirmActiveBuf := a.confirmActiveBuf ++ keptData front } rest := by
  induction front generalizing a with
  | nil => simp [keptData]
  | cons segment front ih =>
    rw [flatMap_cons, length_append] at hroom
    have hkept : (keptData [segment]).length ≤ segment.sendData.data.length := by
      simpa using length_keptData_le [segment]
    have hstep := step_unfinished hphase segment (hchannel segment mem_cons_self) (by omega)
      (hunfinished segment mem_cons_self)
    have hlater :=
      ih (a := { a with confirmActiveBuf := a.confirmActiveBuf ++ keptData [segment] }) hphase
      (fun other hmem => hchannel other (mem_cons_of_mem _ hmem))
      (fun other hmem => hunfinished other (mem_cons_of_mem _ hmem))
      (by rw [length_append]; omega)
    rw [map_cons, cons_append, course, hstep]
    dsimp only [StepResult.just, eventsOf, nil_append]
    rw [hlater, keptData_cons segment front, append_assoc]
    exact Option.map_id'

theorem course_split (hphase : a.phase = .waitConfirmActive) (hempty : a.confirmActiveBuf = [])
    {pdu : Bytes} (hsize : pdu.length ≤ maxConfirmActiveLen) (split : Split pdu) :
    course a split.units =
      if dropped split.last.sendData.data
        then some ⟨[], [], { a with confirmActiveBuf := keptData split.front }⟩
      else
        match tryDecodeConfirmActive (keptData split.segments) with
        | .error _ => none
        | .ok confirm => some ⟨[.synchronize, .cooperate], [], activated a confirm⟩ := by
  have htotal := congrArg length split.joined
  rw [flatMap_append, length_append, flatMap_cons, flatMap_nil, append_nil] at htotal
  have hkept := length_keptData_le split.front
  have hunits : split.units = split.front.map SegmentUnit.toDataUnit ++ [split.last.toDataUnit] := by
    rw [Split.units, Split.segments, map_append, map_singleton]
  rw [hunits, course_front split.front hphase
    (fun segment hmem => split.onIoChannel segment (mem_append_left _ hmem)) split.unfinished
    (by rw [hempty, length_nil]; omega), hempty, nil_append]
  rw [course_last (a := { a with confirmActiveBuf := keptData split.front }) hphase split.last
    (split.onIoChannel _ (by simp)) (by dsimp only; omega) split.finished]
  cases hdropped : dropped split.last.sendData.data with
  | true => rfl
  | false =>
    have hall : keptData split.segments = keptData split.front ++ split.last.sendData.data := by
      simp [Split.segments, keptData, hdropped]
    rw [if_neg Bool.false_ne_true, if_neg Bool.false_ne_true, hall]
    rfl

theorem activated_eq_iff (a : Acceptor) (confirm confirm' : ConfirmActive) :
    activated a confirm = activated a confirm' ↔ negotiated confirm = negotiated confirm' := by
  simp only [activated, mk.injEq, Prod.ext_iff]
  simp

/-- A Confirm Active that is accepted unsplit is accepted with the same acceptor, capabilities and
replies in segments exactly if the last segment is not dropped and the segments that are not dropped
decode to the same negotiated capabilities. -/
theorem segments_accepted_iff {a : Acceptor}
    (hphase : a.phase = .waitConfirmActive)
    (hempty : a.confirmActiveBuf = [])
    {pdu : Bytes}
    (hsize : pdu.length ≤ maxConfirmActiveLen)
    {confirm : ConfirmActive}
    (hconfirm : tryDecodeConfirmActive pdu = .ok confirm)
    (hkept : dropped pdu = false)
    (split unsplit : Split pdu)
    (hunsplit : unsplit.front = []) :
    course a split.units = course a unsplit.units ↔
      dropped split.last.sendData.data = false ∧
      (tryDecodeConfirmActive (keptData split.segments)).map negotiated =
        .ok (negotiated confirm) := by
  have hdata : unsplit.last.sendData.data = pdu := by
    have hjoined := unsplit.joined
    rw [hunsplit] at hjoined
    simpa using hjoined
  have hwhole : keptData unsplit.segments = pdu := by
    simp [Split.segments, keptData, hunsplit, hdata, hkept]
  have hone : course a unsplit.units = some ⟨[.synchronize, .cooperate], [], activated a confirm⟩ := by
    rw [course_split hphase hempty hsize, hdata, hkept, if_neg Bool.false_ne_true, hwhole, hconfirm]
  rw [hone, course_split hphase hempty hsize]
  cases dropped split.last.sendData.data with
  | true =>
    rw [if_pos rfl]
    exact iff_of_false (fun hsame => by cases hsame) (fun hgood => by cases hgood.1)
  | false =>
    rw [if_neg Bool.false_ne_true]
    cases tryDecodeConfirmActive (keptData split.segments) with
    | error error => exact iff_of_false (fun hsame => by cases hsame) (fun hgood => by cases hgood.2)
    | ok read => simp [Except.map, activated_eq_iff]

/-! A Confirm Active with two capability sets: updates of up to 0x170000 bytes, and a pointer cache.
-/

def segmentBytes (flags : UInt8) (data : Bytes) : Bytes :=
  [0x64, 0, 1, 3, 0xEB, flags, UInt8.ofNat data.length] ++ data

def header : Bytes := [42, 0, 0x13, 0, 0xEA, 3, 0xEA, 3, 1, 0]

def descriptor : Bytes :=
  [0xEA, 3, 6, 0, 20, 0, 0x4D, 0x53, 0x54, 0x53, 0x43, 0, 2, 0, 0, 0, 0x1A, 0, 8, 0]

def requestSize : Bytes := [0, 0, 0x17, 0, 8, 0, 8, 0, 20, 0, 20, 0]

def confirmActive : Bytes := header ++ descriptor ++ requestSize

def unfinished (data : Bytes) (h : SendData.decodeRequestFromCursor (segmentBytes 0x60 data) =
    .ok (⟨1002, 1003, data, false⟩, [])) : SegmentUnit :=
  ⟨.of (segmentBytes 0x60 data), _, h⟩

def finished (data : Bytes) (h : SendData.decodeRequestFromCursor (segmentBytes 0x70 data) =
    .ok (⟨1002, 1003, data, true⟩, [])) : SegmentUnit :=
  ⟨.of (segmentBytes 0x70 data), _, h⟩

def whole : Split confirmActive where
  front := []
  last := finished confirmActive rfl
  joined := rfl
  onIoChannel := by simp [finished, ioChannelId, userChannelId, baseChannelId]
  unfinished := by simp
  finished := rfl

def behindHeader : Split confirmActive where
  front := [unfinished header rfl]
  last := finished (descriptor ++ requestSize) rfl
  joined := rfl
  onIoChannel := by simp [unfinished, finished, ioChannelId, userChannelId, baseChannelId]
  unfinished := by simp [unfinished]
  finished := rfl

def atRequestSize : Split confirmActive where
  front := [unfinished (header ++ descriptor) rfl]
  last := finished requestSize rfl
  joined := rfl
  onIoChannel := by simp [unfinished, finished, ioChannelId, userChannelId, baseChannelId]
  unfinished := by simp [unfinished]
  finished := rfl

theorem accepted_behind_header :
    course demanded behindHeader.units = course demanded whole.units := by
  cases hdecode : tryDecodeConfirmActive confirmActive with
  | error error =>
    have hread : (tryDecodeConfirmActive confirmActive).isOk = true := by decide +kernel
    rw [hdecode] at hread
    cases hread
  | ok confirm =>
    have hkept : keptData behindHeader.segments = confirmActive := by decide +kernel
    refine (segments_accepted_iff rfl rfl (by decide) hdecode (by decide +kernel) behindHeader whole
      rfl).mpr ?_
    rw [hkept, hdecode]
    exact ⟨by decide +kernel, rfl⟩

/-- The second segment reads as a share data header, and the server never answers. -/
theorem lost_at_request_size :
    (course demanded whole.units).map (·.response) = some [.synchronize, .cooperate] ∧
    (course demanded whole.units).map (·.acceptor.maxRequestSize) = some (some 0x170000) ∧
    (course demanded atRequestSize.units).map (·.response) = some [] ∧
    (course demanded atRequestSize.units).map (·.acceptor.phase) = some .waitConfirmActive := by
  refine ⟨?_, ?_, ?_, ?_⟩ <;> decide +kernel

end Kmsrdp.Guarantees.ConfirmActiveSegments
