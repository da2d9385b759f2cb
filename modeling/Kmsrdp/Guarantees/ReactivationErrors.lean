import Kmsrdp.Source.Connector.Acceptor

/-!
# Units that fail in the middle of a reactivation

When `step_reactivation` fails, the session loop drops the frame and goes on, so a failed step
should leave the phase as it was. But the phase changes request by request, and an error discards
the replies collected so far. `handleAll` is the loop over the requests that decode, with the
replies kept. The phase survives exactly when no request ahead of the failure completes a Confirm
Active or asks for control for the first time.
-/
namespace Kmsrdp.Guarantees.ReactivationErrors
open Library.ByteString Source.Pdu Source.Connector Acceptor StepResult
open Source.Connector.Acceptor (onSendData onSendData_turn reactivationLoop
  step_eq_stepReactivation)

def requestsUpTo : Nat → Bytes → List SendData
  | 0, _ => []
  | fuel + 1, buf =>
    if buf.isEmpty then []
    else
      match SendData.decodeRequestFromCursor buf with
      | .error _ => []
      | .ok (sendData, rest) => sendData :: requestsUpTo fuel rest

def unitRequests (input : Bytes) : List SendData :=
  match unwrapData input with
  | .error _ => []
  | .ok payload => requestsUpTo payload.length payload

/-- How the loop went: the replies collected, the acceptor, and whether a request accepted the
connection. -/
structure Progress where
  response : List ServerPdu
  acceptor : Acceptor
  accepted : Bool

/-- The requests in turn, up to an error or the acceptance. -/
def handleAll (a : Acceptor) (response : List ServerPdu) : List SendData → Progress
  | [] => ⟨response, a, false⟩
  | sendData :: rest =>
    match onSendData a sendData with
    | (.error _, b) => ⟨response, b, false⟩
    | (.ok result, b) =>
      match result.event with
      | .accepted _ => ⟨response ++ result.response, b, true⟩
      | _ => handleAll b (response ++ result.response) rest

def completesConfirmActive : Bytes → List SendData → Bool
  | _, [] => false
  | buffered, sendData :: rest =>
    if sendData.channelId ≠ ioChannelId then completesConfirmActive buffered rest
    else if (Acceptor.shareControlType sendData.data).any (· ≠ .confirmActive) then
      completesConfirmActive buffered rest
    else if maxConfirmActiveLen < buffered.length + sendData.data.length then false
    else if sendData.complete = false then completesConfirmActive (buffered ++ sendData.data) rest
    else (tryDecodeConfirmActive (buffered ++ sendData.data)).isOk

def requestsControl (sendData : SendData) : Bool :=
  if sendData.channelId ≠ ioChannelId then false
  else if (Acceptor.shareControlType sendData.data).any (· ≠ .data) then false
  else
    match DataPdu.decode sendData.data with
    | .error _ => false
    | .ok dataPdu => dataPdu.pduType2 = .control && Acceptor.asksForControl dataPdu.body false

def movesOn (a : Acceptor) (requests : List SendData) : Bool :=
  match a.phase with
  | .waitConfirmActive => completesConfirmActive a.confirmActiveBuf requests
  | .waitFinalization false => requests.any requestsControl
  | _ => false

/-- The outcome of a step against the way its requests went: an error keeps the acceptor and
drops the replies. -/
structure Follows (outcome : Outcome) (progress : Progress) : Prop where
  acceptor : outcome.2 = progress.acceptor
  response : ∀ result, outcome.1 = .ok result → result.response = progress.response
  running : ∀ error, outcome.1 = .error error → progress.accepted = false

theorem follows_ok (result : StepResult) (b : Acceptor) (accepted : Bool) :
    Follows (.ok result, b) ⟨result.response, b, accepted⟩ where
  acceptor := rfl
  response _ hresult := by cases hresult; rfl
  running _ herror := by cases herror

theorem follows_error (error : ConnectorError) (b : Acceptor) (response : List ServerPdu) :
    Follows (.error error, b) ⟨response, b, false⟩ where
  acceptor := rfl
  response _ hresult := by cases hresult
  running _ _ := rfl

variable {a : Acceptor}

theorem reactivationLoop_handleAll (fuel : Nat)
    (h : a.Reactivating)
    (response : List ServerPdu) (buf : Bytes) :
    Follows (reactivationLoop fuel a response buf)
      (handleAll a response (requestsUpTo fuel buf)) := by
  induction fuel generalizing a response buf with
  | zero => exact follows_ok (.just response) a false
  | succ fuel ih =>
    rw [requestsUpTo]
    by_cases hempty : buf.isEmpty = true
    · rw [if_pos hempty, reactivationLoop, if_pos (by rw [hempty]; rfl)]
      exact follows_ok (.just response) a false
    rw [if_neg hempty, reactivationLoop, h.not_finished, Bool.or_false, if_neg hempty]
    cases SendData.decodeRequestFromCursor buf with
    | error error => exact follows_error _ a response
    | ok decoded =>
      obtain ⟨sendData, rest⟩ := decoded
      have houtcome := (onSendData_turn a sendData).does h
      dsimp only
      rw [handleAll]
      generalize onSendData a sendData = outcome at houtcome ⊢
      cases houtcome with
      | failed error b phase settings => exact follows_error _ b response
      | accepted answer connection b hanswer phase settings =>
        exact follows_ok ⟨response ++ answer, .accepted connection⟩ b true
      | goesOn answer b hanswer phase settings => exact ih phase (response ++ answer) rest

theorem step_handleAll (h : a.Reactivating) (input : Bytes) :
    Follows (a.step input) (handleAll a [] (unitRequests input)) := by
  rw [step_eq_stepReactivation h, stepReactivation, unitRequests]
  cases unwrapData input with
  | error error => exact follows_error _ a []
  | ok payload => exact reactivationLoop_handleAll payload.length h [] payload

/-- Everything a request can do in the finalization phase. -/
inductive FinalizationTurn (a : Acceptor) (granted : Bool) (sendData : SendData) : Outcome → Prop
  | kept (hrequest : granted = true ∨ requestsControl sendData = false) :
      FinalizationTurn a granted sendData (.ok (.just []), a)
  | granted (hgranted : granted = false) (hrequest : requestsControl sendData = true) :
      FinalizationTurn a granted sendData
        (.ok (.just [.grantedControl]), { a with phase := .waitFinalization true })
  | accepted (response : List ServerPdu) (connection : AcceptedConnection) (b : Acceptor) :
      FinalizationTurn a granted sendData (.ok ⟨response, .accepted connection⟩, b)

theorem onFinalizationSendData_turn (a : Acceptor) (granted : Bool) (sendData : SendData) :
    FinalizationTurn a granted sendData (a.onFinalizationSendData sendData granted) := by
  unfold onFinalizationSendData
  split
  · next hchannel => exact .kept (.inr (if_pos hchannel))
  · next hchannel =>
    split
    · next htype => exact .kept (.inr (by rw [requestsControl, if_neg hchannel, if_pos htype]))
    · next htype =>
      have hrequests : requestsControl sendData =
          match DataPdu.decode sendData.data with
          | .error _ => false
          | .ok dataPdu => dataPdu.pduType2 = .control && asksForControl dataPdu.body false := by
        rw [requestsControl, if_neg hchannel, if_neg htype]
      cases hdecode : DataPdu.decode sendData.data with
      | error error => exact .kept (.inr (by rw [hrequests, hdecode]))
      | ok dataPdu =>
        rw [hdecode] at hrequests
        dsimp only at hrequests ⊢
        cases hkind : dataPdu.pduType2 with
        | control =>
          rw [hkind, decide_eq_true rfl, Bool.true_and] at hrequests
          dsimp only
          cases granted with
          | true =>
            have hnot : asksForControl dataPdu.body true = false := by
              unfold asksForControl
              split <;> simp
            rw [if_neg (by simp [hnot])]
            exact .kept (.inl rfl)
          | false =>
            split
            · next hasks => exact .granted rfl (hrequests.trans hasks)
            · next hasks => exact .kept (.inr (hrequests.trans (Bool.eq_false_iff.mpr hasks)))
        | fontList => exact .accepted _ _ _
        | synchronize | fontMap | refreshRect | suppressOutput | saveSessionInfo | monitorLayout
        | input =>
          refine .kept (.inr ?_)
          rw [hrequests, hkind]
          rfl

/-- Everything a request can do in the Confirm Active phase, with what it means for the requests
behind it. -/
inductive ConfirmActiveTurn (a : Acceptor) (sendData : SendData) : Outcome → Prop
  | kept (buf : Bytes)
      (hrest : ∀ rest, completesConfirmActive a.confirmActiveBuf (sendData :: rest) =
        completesConfirmActive buf rest) :
      ConfirmActiveTurn a sendData (.ok (.just []), { a with confirmActiveBuf := buf })
  | failed (error : ConnectorError) (b : Acceptor) (hphase : b.phase = a.phase)
      (hrest : ∀ rest, completesConfirmActive a.confirmActiveBuf (sendData :: rest) = false) :
      ConfirmActiveTurn a sendData (.error error, b)
  | completed (b : Acceptor) (hphase : b.phase = .waitFinalization false)
      (hrest : ∀ rest, completesConfirmActive a.confirmActiveBuf (sendData :: rest) = true) :
      ConfirmActiveTurn a sendData (.ok (.just [.synchronize, .cooperate]), b)

theorem onConfirmActiveSendData_turn (a : Acceptor) (sendData : SendData) :
    ConfirmActiveTurn a sendData (a.onConfirmActiveSendData sendData) := by
  unfold onConfirmActiveSendData
  split
  · next hchannel =>
    exact .kept a.confirmActiveBuf fun rest => by rw [completesConfirmActive, if_pos hchannel]
  · next hchannel =>
    split
    · next htype =>
      exact .kept a.confirmActiveBuf fun rest => by
        rw [completesConfirmActive, if_neg hchannel, if_pos htype]
    · next htype =>
      split
      · next hlong =>
        exact .failed _ _ rfl fun rest => by
          rw [completesConfirmActive, if_neg hchannel, if_neg htype, if_pos hlong]
      · next hlong =>
        have hrest : ∀ rest, completesConfirmActive a.confirmActiveBuf (sendData :: rest) =
            if sendData.complete = false then
              completesConfirmActive (a.confirmActiveBuf ++ sendData.data) rest
            else (tryDecodeConfirmActive (a.confirmActiveBuf ++ sendData.data)).isOk := by
          intro rest
          rw [completesConfirmActive, if_neg hchannel, if_neg htype, if_neg hlong]
        dsimp only
        split
        · next hincomplete => exact .kept _ fun rest => by rw [hrest, if_pos hincomplete]
        · next hcomplete =>
          cases hdecode : tryDecodeConfirmActive (a.confirmActiveBuf ++ sendData.data) with
          | error error =>
            exact .failed _ _ rfl fun rest => by rw [hrest, if_neg hcomplete, hdecode]; rfl
          | ok confirm =>
            exact .completed _ rfl fun rest => by rw [hrest, if_neg hcomplete, hdecode]; rfl

theorem handleAll_finalization (requests : List SendData) {granted : Bool}
    (hphase : a.phase = .waitFinalization granted)
    (response : List ServerPdu)
    (hrunning : (handleAll a response requests).accepted = false) :
    (handleAll a response requests).acceptor.phase =
      .waitFinalization (granted || requests.any requestsControl) ∧
    (handleAll a response requests).response =
      response ++ if !granted && requests.any requestsControl then [.grantedControl] else [] := by
  induction requests generalizing a granted response with
  | nil => simp [handleAll, hphase]
  | cons sendData rest ih =>
    have hturn := onFinalizationSendData_turn a granted sendData
    have honSendData : onSendData a sendData = a.onFinalizationSendData sendData granted := by
      rw [onSendData, hphase]
    rw [handleAll, honSendData] at hrunning ⊢
    generalize a.onFinalizationSendData sendData granted = outcome at hturn hrunning ⊢
    cases hturn with
    | kept hrequest =>
      obtain ⟨hfinal, hresponse⟩ := ih hphase _ hrunning
      refine ⟨hfinal.trans ?_, hresponse.trans ?_⟩
      · rcases hrequest with rfl | hrequest
        · simp
        · simp [hrequest]
      · rcases hrequest with rfl | hrequest
        · simp [just]
        · simp [hrequest, just]
    | granted hgranted hrequest =>
      obtain ⟨hfinal, hresponse⟩ := ih rfl _ hrunning
      subst hgranted
      refine ⟨hfinal.trans ?_, hresponse.trans ?_⟩
      · simp [hrequest]
      · simp [hrequest, just]
    | accepted answer connection b => cases hrunning

theorem handleAll_confirmActive (requests : List SendData) (hphase : a.phase = .waitConfirmActive)
    (response : List ServerPdu) (hrunning : (handleAll a response requests).accepted = false) :
    if completesConfirmActive a.confirmActiveBuf requests then
      (handleAll a response requests).acceptor.phase ≠ .waitConfirmActive ∧
        ∃ later, (handleAll a response requests).response =
          response ++ [.synchronize, .cooperate] ++ later
    else
      (handleAll a response requests).acceptor.phase = .waitConfirmActive ∧
        (handleAll a response requests).response = response := by
  induction requests generalizing a response with
  | nil => exact ⟨hphase, rfl⟩
  | cons sendData rest ih =>
    have hturn := onConfirmActiveSendData_turn a sendData
    have honSendData : onSendData a sendData = a.onConfirmActiveSendData sendData := by
      rw [onSendData, hphase]
    rw [handleAll, honSendData] at hrunning ⊢
    generalize a.onConfirmActiveSendData sendData = outcome at hturn hrunning ⊢
    cases hturn with
    | kept buf hrest =>
      rw [hrest rest]
      have hlater := ih (a := { a with confirmActiveBuf := buf }) hphase _ hrunning
      simpa [just] using hlater
    | failed error b hkept hrest =>
      rw [hrest rest, if_neg Bool.false_ne_true]
      exact ⟨hkept.trans hphase, rfl⟩
    | completed b hfinal hrest =>
      rw [hrest rest, if_pos rfl]
      obtain ⟨hlast, hresponse⟩ := handleAll_finalization rest hfinal _ hrunning
      refine ⟨?_, _, hresponse⟩
      show (handleAll b _ rest).acceptor.phase ≠ _
      rw [hlast]
      exact fun h => by cases h

/-- A failed step in the Confirm Active or finalization phase keeps the phase and loses no reply
exactly when no request that it handled completes a Confirm Active or asks for control for the
first time. -/
theorem failed_step_keeps_phase_iff {a b : Acceptor} {input : Bytes} {error : ConnectorError}
    (h : a.Reactivating)
    (hstep : a.step input = (.error error, b)) :
    (b.phase = a.phase ∧ (handleAll a [] (unitRequests input)).response = []) ↔
      movesOn a (unitRequests input) = false := by
  have hfollows := step_handleAll h input
  rw [hstep] at hfollows
  have hrunning := hfollows.running error rfl
  obtain rfl : b = (handleAll a [] (unitRequests input)).acceptor := hfollows.acceptor
  rcases h with hphase | ⟨granted, hphase⟩
  · have hall := handleAll_confirmActive (unitRequests input) hphase [] hrunning
    rw [movesOn, hphase]
    cases hcompletes : completesConfirmActive a.confirmActiveBuf (unitRequests input) with
    | true =>
      rw [hcompletes, if_pos rfl] at hall
      exact ⟨fun hkept => absurd hkept.1 hall.1, fun h => by cases h⟩
    | false =>
      rw [hcompletes, if_neg Bool.false_ne_true] at hall
      exact ⟨fun _ => rfl, fun _ => hall⟩
  · obtain ⟨hfinal, hresponse⟩ := handleAll_finalization (unitRequests input) hphase [] hrunning
    rw [movesOn, hphase, hfinal, hresponse]
    cases granted with
    | true => simp
    | false => cases (unitRequests input).any requestsControl <;> simp

def demanded : Acceptor := { Acceptor.new 1024 768 false with phase := .waitConfirmActive }

theorem garbage_keeps_phase :
    ∃ error b,
      demanded.step (wrapData [0xFF]) = (.error error, b) ∧
      b.phase = demanded.phase ∧
      (handleAll demanded [] (unitRequests (wrapData [0xFF]))).response = [] := by
  have hfails : (demanded.step (wrapData [0xFF])).1.toOption = none := by decide +kernel
  have hphase : demanded.Reactivating := .inl rfl
  cases hstep : demanded.step (wrapData [0xFF]) with
  | mk outcome b =>
    rw [hstep] at hfails
    cases outcome with
    | ok result => cases hfails
    | error error =>
      exact ⟨error, b, rfl, (failed_step_keeps_phase_iff hphase hstep).mpr (by decide +kernel)⟩

def confirmActiveRequest : Bytes :=
  [0x64, 0, 1, 3, 0xEB, 0x70, 10] ++ [10, 0, 0x13, 0, 0xEA, 3, 0xEA, 3, 1, 0]

/-- A Confirm Active with a byte of garbage behind it: the step fails, the phase has moved on, and
Synchronize and Cooperate are lost; sending the Confirm Active again brings no answer. -/
theorem confirmActive_reply_lost :
    ∃ error b,
      demanded.step (wrapData (confirmActiveRequest ++ [0xFF])) = (.error error, b) ∧
      b.phase = .waitFinalization false ∧
      (handleAll demanded [] (unitRequests (wrapData (confirmActiveRequest ++ [0xFF])))).response =
        [.synchronize, .cooperate] ∧
      b.step (wrapData confirmActiveRequest) = (.ok (.just []), b) := by
  refine ⟨_, _, rfl, ?_, ?_, ?_⟩ <;> decide +kernel

end Kmsrdp.Guarantees.ReactivationErrors
