import Kmsrdp.Source.Pdu.ServerGcc
import Kmsrdp.Source.Pdu.Share
import Kmsrdp.Source.Pdu.X224

/-!
# The connection sequence

Model of `Acceptor` in `rdpcore-connector/src/lib.rs`, with the re-entry for a resize. Every call
returns the new acceptor also when it fails, since the source changes its state before some of its
errors.
-/
namespace Kmsrdp.Source.Connector
open Library.ByteString Source.Pdu

def userChannelId : Nat := baseChannelId + 1
def ioChannelId : Nat := userChannelId + 1
def maxConfirmActiveLen : Nat := 1024 * 1024

inductive ConnectorError where
  | decode (error : DecodeError)
  | alreadyFinished
  | notReady
  deriving DecidableEq

structure ClientCredentials where
  (domain username password : String)
  deriving DecidableEq

structure AcceptedConnection where
  ioChannelId : Nat
  userChannelId : Nat
  staticChannels : List (Bytes × Nat)
  desktopWidth : Nat
  desktopHeight : Nat
  clientName : String
  nscodec : Option NsCodecNegotiated
  maxRequestSize : Option Nat
  deriving DecidableEq

inductive ServerPdu where
  | connectionConfirm (protocol : SecurityProtocol)
  | connectionFailure (code : Nat)
  | connectResponse (clientRequestedProtocols : Nat) (channelIds : List Nat)
      (messageChannelId : Option Nat)
  | attachUserConfirm (result initiator : Nat)
  | channelJoinConfirm (result initiator requestedChannelId channelId : Nat)
  | licenseValidClient
  | demandActive (desktopWidth desktopHeight : Nat)
  | deactivateAll
  | synchronize
  | cooperate
  | grantedControl
  | fontMap
  | saveSessionInfo
  deriving DecidableEq

inductive AcceptorEvent where
  | none
  | rejected
  | tlsUpgrade
  | clientInfoReceived (credentials : ClientCredentials)
  | accepted (connection : AcceptedConnection)
  deriving DecidableEq

structure StepResult where
  response : List ServerPdu
  event : AcceptorEvent
  deriving DecidableEq

def StepResult.just (response : List ServerPdu) : StepResult := ⟨response, .none⟩

inductive Phase where
  | waitConnectionRequest
  | waitConnectInitial
  | waitErectDomainRequest
  | waitAttachUserRequest
  | waitChannelJoinRequest (remaining : Nat)
  | waitClientInfo
  | waitAuthApproval
  | waitConfirmActive
  | waitFinalization (grantedControlSent : Bool)
  | accepted
  | rejected
  deriving DecidableEq

structure Acceptor where
  phase : Phase
  desktopWidth : Nat
  desktopHeight : Nat
  staticChannelNames : List Bytes
  messageChannelId : Option Nat
  clientName : String
  clientRequestedProtocols : Nat
  selectedProtocol : SecurityProtocol
  requireNla : Bool
  confirmActiveBuf : Bytes
  nscodec : Option NsCodecNegotiated
  maxRequestSize : Option Nat
  deriving DecidableEq

abbrev Outcome := Except ConnectorError StepResult × Acceptor

namespace Acceptor

def new (desktopWidth desktopHeight : Nat) (requireNla : Bool) : Acceptor where
  phase := .waitConnectionRequest
  desktopWidth := desktopWidth
  desktopHeight := desktopHeight
  staticChannelNames := []
  messageChannelId := none
  clientName := ""
  clientRequestedProtocols := SecurityProtocol.ssl
  selectedProtocol := SecurityProtocol.ssl
  requireNla := requireNla
  confirmActiveBuf := []
  nscodec := none
  maxRequestSize := none

def requiresCredssp (a : Acceptor) : Bool := SecurityProtocol.contains a.selectedProtocol .hybrid

def isFinished (a : Acceptor) : Bool := a.phase = .accepted || a.phase = .rejected

def approveClientInfo (a : Acceptor) : Except ConnectorError (List ServerPdu) × Acceptor :=
  if a.phase = .waitAuthApproval then
    (.ok [.demandActive a.desktopWidth a.desktopHeight], { a with phase := .waitConfirmActive })
  else (.error .notReady, a)

def rejectClientInfo (a : Acceptor) : Acceptor :=
  if a.phase = .waitAuthApproval then { a with phase := .rejected } else a

def beginResize (a : Acceptor) (desktopWidth desktopHeight : Nat) :
    Except ConnectorError (List ServerPdu) × Acceptor :=
  if a.phase = .accepted then
    (.ok [.deactivateAll, .demandActive desktopWidth desktopHeight],
      { a with desktopWidth := desktopWidth, desktopHeight := desktopHeight,
               confirmActiveBuf := [], phase := .waitConfirmActive })
  else (.error .notReady, a)

def failDecode (a : Acceptor) (error : DecodeError) : Outcome := (.error (.decode error), a)

def onConnectionRequest (a : Acceptor) (input : Bytes) : Outcome :=
  match ConnectionRequest.decode input with
  | .error error => a.failDecode error
  | .ok request =>
    let select (protocol : SecurityProtocol) : Outcome :=
      (.ok ⟨[.connectionConfirm protocol], .tlsUpgrade⟩,
        { a with clientRequestedProtocols := request.protocol, selectedProtocol := protocol,
                 phase := .waitConnectInitial })
    if SecurityProtocol.contains request.protocol .hybrid then select .hybrid
    else if !a.requireNla && SecurityProtocol.contains request.protocol .ssl then select .ssl
    else
      -- HYBRID_REQUIRED_BY_SERVER or SSL_REQUIRED_BY_SERVER
      (.ok ⟨[.connectionFailure (if a.requireNla then 5 else 1)], .rejected⟩,
        { a with phase := .rejected })

def decodeClientBlocks (input : Bytes) : Except DecodeError ClientGccBlocks := do
  let payload ← unwrapData input
  let initial ← decodeFrom ConnectInitial.decode payload
  let blocks ← decodeConferenceCreateRequest initial.userData
  ClientGccBlocks.decode blocks

def onConnectInitial (a : Acceptor) (input : Bytes) : Outcome :=
  match decodeClientBlocks input with
  | .error error => a.failDecode error
  | .ok blocks =>
    let names := blocks.network.getD []
    let messageChannelId :=
      if blocks.messageChannel then some (ioChannelId + 1 + names.length) else none
    let channelIds := (List.range names.length).map (ioChannelId + 1 + ·)
    (.ok (.just [.connectResponse a.clientRequestedProtocols channelIds messageChannelId]),
      { a with clientName := blocks.clientName, staticChannelNames := names,
               messageChannelId := messageChannelId, phase := .waitErectDomainRequest })

def encodeConnectResponse (clientRequestedProtocols : Nat) (channelIds : List Nat)
    (messageChannelId : Option Nat) :
    Bytes :=
  let serverBlocks : ServerGccBlocks :=
    { core := ⟨0x00080004, some clientRequestedProtocols, none⟩
      network := ⟨ioChannelId, channelIds⟩
      messageChannel := messageChannelId }
  let response : ConferenceCreateResponse := ⟨userChannelId, serverBlocks.encode⟩
  wrapData (ConnectResponse.encode ⟨0, .target, response.encode⟩)

def decodeClientInfo (input : Bytes) : Except DecodeError ClientInfo := do
  let payload ← unwrapData input
  let sendData ← SendData.decodeRequest payload
  decodeClientInfoPdu sendData.data

def onClientInfo (a : Acceptor) (input : Bytes) : Outcome :=
  match decodeClientInfo input with
  | .error error => a.failDecode error
  | .ok info =>
    (.ok ⟨[.licenseValidClient],
        .clientInfoReceived ⟨info.domain, info.username, info.password⟩⟩,
      { a with phase := .waitAuthApproval })

def peekDomainPdu : Bytes → Option DomainMcsPdu
  | [] => none
  | byte :: _ => DomainMcsPdu.fromU8 (byte >>> 2)

def handleDomainPdu (a : Acceptor) (phase : Phase) :
    Bytes → Except ConnectorError ((List ServerPdu × Phase) × Bytes) := fun buf =>
  match phase with
  | .waitErectDomainRequest =>
    match ErectDomainRequest.decode buf with
    | .error error => .error (.decode error)
    | .ok (_, rest) => .ok (([], .waitAttachUserRequest), rest)
  | .waitAttachUserRequest =>
    match decodeAttachUserRequest buf with
    | .error error => .error (.decode error)
    | .ok (_, rest) =>
      let joins := 2 + a.staticChannelNames.length + (if a.messageChannelId.isSome then 1 else 0)
      .ok (([.attachUserConfirm 0 userChannelId], .waitChannelJoinRequest joins), rest)
  | .waitChannelJoinRequest remaining =>
    match ChannelJoinRequest.decode buf with
    | .error error => .error (.decode error)
    | .ok (request, rest) =>
      let next := if remaining - 1 = 0 then .waitClientInfo else .waitChannelJoinRequest (remaining - 1)
      .ok (([.channelJoinConfirm 0 request.initiator request.channelId request.channelId], next), rest)
  | _ => .error .notReady

/-- `step_mcs_domain_pdus`: answer every domain PDU packed into the unit. A PDU that does not
decode leaves the acceptor rejected. -/
def domainLoop : Nat → Acceptor → List ServerPdu → Bytes → Outcome
  | 0, a, response, _ => (.ok (.just response), a)
  | fuel + 1, a, response, buf =>
    if buf.isEmpty then (.ok (.just response), a)
    else if peekDomainPdu buf = some .disconnectProviderUltimatum then
      (.error (.decode (.invalidValue "mcs.domain_pdu" "client disconnected during MCS domain setup")),
        { a with phase := .rejected })
    else
      match a.handleDomainPdu a.phase buf with
      | .error .notReady => (.error .notReady, a)
      | .error error => (.error error, { a with phase := .rejected })
      | .ok ((answer, phase), rest) =>
        let a := { a with phase := phase }
        if phase = .waitClientInfo then (.ok (.just (response ++ answer)), a)
        else domainLoop fuel a (response ++ answer) rest

def stepMcsDomainPdus (a : Acceptor) (input : Bytes) : Outcome :=
  match unwrapData input with
  | .error error => a.failDecode error
  | .ok payload => domainLoop payload.length a [] payload

def shareControlType (data : Bytes) : Option ShareControlPduType :=
  match decodeFrom ShareControlHeader.decode data with
  | .ok (header, _) => some header.pduType
  | .error _ => none

def onConfirmActiveSendData (a : Acceptor) (sendData : SendData) : Outcome :=
  -- static channel traffic is skipped here: only the I/O channel carries Confirm Active
  if sendData.channelId ≠ ioChannelId then (.ok (.just []), a)
  else if (shareControlType sendData.data).any (· ≠ .confirmActive) then (.ok (.just []), a)
  else if maxConfirmActiveLen < a.confirmActiveBuf.length + sendData.data.length then
    ({ a with confirmActiveBuf := [] } : Acceptor).failDecode
      (.invalidValue "confirm_active.reassembly" "exceeded maximum allowed reassembled size")
  else
    let data := a.confirmActiveBuf ++ sendData.data
    if sendData.complete = false then (.ok (.just []), { a with confirmActiveBuf := data })
    else
      let a := { a with confirmActiveBuf := [] }
      match tryDecodeConfirmActive data with
      | .error error => a.failDecode error
      | .ok confirm =>
        (.ok (.just [.synchronize, .cooperate]),
          { a with nscodec := parseClientNscodec confirm.capabilities 3,
                   maxRequestSize := parseClientMaxRequestSize confirm.capabilities,
                   phase := .waitFinalization false })

def acceptedConnection (a : Acceptor) : AcceptedConnection where
  ioChannelId := ioChannelId
  userChannelId := userChannelId
  staticChannels := a.staticChannelNames.zipIdx.map fun (name, i) => (name, ioChannelId + 1 + i)
  desktopWidth := a.desktopWidth
  desktopHeight := a.desktopHeight
  clientName := a.clientName
  nscodec := a.nscodec
  maxRequestSize := a.maxRequestSize

def asksForControl (body : Bytes) (grantedControlSent : Bool) : Bool :=
  match ControlPdu.decodeBody body with
  | .ok control => control.action = ControlPdu.requestControl && !grantedControlSent
  | .error _ => false

def onFinalizationSendData (a : Acceptor) (sendData : SendData) (grantedControlSent : Bool) :
    Outcome :=
  -- static channel traffic is skipped here as well
  if sendData.channelId ≠ ioChannelId then (.ok (.just []), a)
  else if (shareControlType sendData.data).any (· ≠ .data) then (.ok (.just []), a)
  else
    match DataPdu.decode sendData.data with
    | .error _ => (.ok (.just []), a)
    | .ok dataPdu =>
      match dataPdu.pduType2 with
      | .control =>
        if asksForControl dataPdu.body grantedControlSent then
          (.ok (.just [.grantedControl]), { a with phase := .waitFinalization true })
        else (.ok (.just []), a)
      | .fontList =>
        let a := { a with phase := .accepted }
        (.ok ⟨[.fontMap, .saveSessionInfo], .accepted a.acceptedConnection⟩, a)
      | _ => (.ok (.just []), a)

def onSendData (a : Acceptor) (sendData : SendData) : Outcome :=
  match a.phase with
  | .waitConfirmActive => a.onConfirmActiveSendData sendData
  | .waitFinalization grantedControlSent => a.onFinalizationSendData sendData grantedControlSent
  | _ => (.error .notReady, a)

/-- `step_reactivation` on the user data: every Send Data Request packed into the unit, until
the connection is accepted. -/
def reactivationLoop : Nat → Acceptor → List ServerPdu → Bytes → Outcome
  | 0, a, response, _ => (.ok (.just response), a)
  | fuel + 1, a, response, buf =>
    if buf.isEmpty || a.isFinished then (.ok (.just response), a)
    else
      match SendData.decodeRequestFromCursor buf with
      | .error error => a.failDecode error
      | .ok (sendData, rest) =>
        match a.onSendData sendData with
        | (.error error, a) => (.error error, a)
        | (.ok result, a) =>
          match result.event with
          | .accepted connection => (.ok ⟨response ++ result.response, .accepted connection⟩, a)
          | _ => reactivationLoop fuel a (response ++ result.response) rest

def stepReactivation (a : Acceptor) (input : Bytes) : Outcome :=
  match unwrapData input with
  | .error error => a.failDecode error
  | .ok payload => reactivationLoop payload.length a [] payload

def step (a : Acceptor) (input : Bytes) : Outcome :=
  match a.phase with
  | .waitErectDomainRequest | .waitAttachUserRequest | .waitChannelJoinRequest _ =>
    a.stepMcsDomainPdus input
  | .accepted | .rejected => (.error .alreadyFinished, a)
  | .waitConfirmActive | .waitFinalization _ => a.stepReactivation input
  | .waitConnectionRequest => a.onConnectionRequest input
  | .waitConnectInitial => a.onConnectInitial input
  | .waitClientInfo => a.onClientInfo input
  | .waitAuthApproval => (.error .notReady, a)

def Reactivating (a : Acceptor) : Prop :=
  a.phase = .waitConfirmActive ∨ ∃ grantedControlSent, a.phase = .waitFinalization grantedControlSent

def SameSettings (a b : Acceptor) : Prop :=
  b.selectedProtocol = a.selectedProtocol ∧ b.requireNla = a.requireNla

def IsFinalizationAnswer (response : List ServerPdu) : Prop :=
  ∀ pdu ∈ response, pdu ∈ [.synchronize, .cooperate, .grantedControl, .fontMap, .saveSessionInfo]

inductive ReactivationOutcome (a : Acceptor) : Outcome → Prop
  | goesOn (response : List ServerPdu) (b : Acceptor) (answer : IsFinalizationAnswer response)
      (phase : b.Reactivating) (settings : SameSettings a b) :
      ReactivationOutcome a (.ok (.just response), b)
  | accepted (response : List ServerPdu) (connection : AcceptedConnection) (b : Acceptor)
      (answer : IsFinalizationAnswer response) (phase : b.phase = .accepted)
      (settings : SameSettings a b) :
      ReactivationOutcome a (.ok ⟨response, .accepted connection⟩, b)
  | failed (error : DecodeError) (b : Acceptor) (phase : b.Reactivating)
      (settings : SameSettings a b) : ReactivationOutcome a (.error (.decode error), b)

theorem SameSettings.refl (a : Acceptor) : SameSettings a a := ⟨rfl, rfl⟩

variable {a b : Acceptor}

theorem SameSettings.trans {c : Acceptor} (h : SameSettings a b) (h' : SameSettings b c) :
    SameSettings a c := ⟨h'.1.trans h.1, h'.2.trans h.2⟩

variable {response : List ServerPdu} {outcome : Outcome}

theorem IsFinalizationAnswer.append {more : List ServerPdu}
    (hfirst : IsFinalizationAnswer response)
    (hmore : IsFinalizationAnswer more) : IsFinalizationAnswer (response ++ more) := by
  intro pdu h
  rcases List.mem_append.mp h with h | h
  · exact hfirst pdu h
  · exact hmore pdu h

inductive RequestTurn (a : Acceptor) : Outcome → Prop
  | skipped : RequestTurn a (.ok (.just []), a)
  | failed (error : DecodeError) :
      RequestTurn a (.error (.decode error), { a with confirmActiveBuf := [] })
  | buffered (buf : Bytes) (hfits : buf.length ≤ maxConfirmActiveLen) :
      RequestTurn a (.ok (.just []), { a with confirmActiveBuf := buf })
  | confirmed (nscodec : Option NsCodecNegotiated) (maxRequestSize : Option Nat) :
      RequestTurn a (.ok (.just [.synchronize, .cooperate]),
        { a with confirmActiveBuf := [], nscodec := nscodec, maxRequestSize := maxRequestSize,
                 phase := .waitFinalization false })
  | granted : RequestTurn a (.ok (.just [.grantedControl]), { a with phase := .waitFinalization true })
  | accepted :
      RequestTurn a (.ok ⟨[.fontMap, .saveSessionInfo],
        .accepted ({ a with phase := .accepted } : Acceptor).acceptedConnection⟩,
        { a with phase := .accepted })
  | notReady (hphase : ¬ a.Reactivating) : RequestTurn a (.error .notReady, a)

theorem onSendData_turn (a : Acceptor) (sendData : SendData) :
    RequestTurn a (a.onSendData sendData) := by
  unfold onSendData
  split
  · unfold onConfirmActiveSendData
    split
    · exact .skipped
    · split
      · exact .skipped
      · split
        · exact .failed _
        · next hroom =>
          dsimp only
          split
          · exact .buffered _ (by rw [List.length_append]; exact Nat.not_lt.mp hroom)
          · split
            · exact .failed _
            · exact .confirmed _ _
  · unfold onFinalizationSendData
    split
    · exact .skipped
    · split
      · exact .skipped
      · split
        · exact .skipped
        · split
          · split
            · exact .granted
            · exact .skipped
          · exact .accepted
          · exact .skipped
  · next hconfirm hfinalization =>
    refine .notReady ?_
    rintro (hphase | ⟨granted, hphase⟩)
    · exact hconfirm hphase
    · exact hfinalization granted hphase

theorem RequestTurn.does (hturn : RequestTurn a outcome) (h : a.Reactivating) :
    ReactivationOutcome a outcome := by
  cases hturn with
  | skipped => exact .goesOn [] a (by simp [IsFinalizationAnswer]) h (.refl a)
  | failed error => exact .failed error _ h ⟨rfl, rfl⟩
  | buffered buf hfits => exact .goesOn [] _ (by simp [IsFinalizationAnswer]) h ⟨rfl, rfl⟩
  | confirmed nscodec maxRequestSize =>
    exact .goesOn _ _ (by simp [IsFinalizationAnswer]) (.inr ⟨false, rfl⟩) ⟨rfl, rfl⟩
  | granted => exact .goesOn _ _ (by simp [IsFinalizationAnswer]) (.inr ⟨true, rfl⟩) ⟨rfl, rfl⟩
  | accepted => exact .accepted _ _ _ (by simp [IsFinalizationAnswer]) rfl ⟨rfl, rfl⟩
  | notReady hphase => exact absurd h hphase

/-- What one request keeps, the loop over a unit keeps. -/
theorem reactivationLoop_induction (inv : Acceptor → List ServerPdu → Prop) (post : Outcome → Prop)
    (done : ∀ a response, inv a response → post (.ok (.just response), a))
    (undecoded : ∀ a response error, inv a response → post (.error (.decode error), a))
    (turn : ∀ a response outcome, inv a response → RequestTurn a outcome →
      match outcome with
      | (.error error, b) => post (.error error, b)
      | (.ok ⟨answer, .accepted connection⟩, b) =>
        post (.ok ⟨response ++ answer, .accepted connection⟩, b)
      | (.ok result, b) => inv b (response ++ result.response))
    (fuel : Nat) (h : inv a response) (buf : Bytes) : post (reactivationLoop fuel a response buf) := by
  induction fuel generalizing a response buf with
  | zero => exact done a response h
  | succ fuel ih =>
    rw [reactivationLoop]
    split
    · exact done a response h
    · split
      · exact undecoded a response _ h
      · next sendData rest _ =>
        have hturn := turn a response _ h (a.onSendData_turn sendData)
        generalize a.onSendData sendData = outcome at hturn
        obtain ⟨result, b⟩ := outcome
        cases result with
        | error error => exact hturn
        | ok result =>
          obtain ⟨answer, event⟩ := result
          cases event with
          | accepted connection => exact hturn
          | none | rejected | tlsUpgrade | clientInfoReceived => exact ih hturn rest

theorem reactivationLoop_outcome (fuel : Nat) (h : a.Reactivating) (buf : Bytes) :
    ReactivationOutcome a (reactivationLoop fuel a [] buf) := by
  refine reactivationLoop_induction
    (fun b response => IsFinalizationAnswer response ∧ b.Reactivating ∧ SameSettings a b) _ ?_
      ?_ ?_ fuel
    ⟨by simp [IsFinalizationAnswer], h, .refl a⟩ buf
  · rintro b response ⟨hresponse, hb, hsame⟩
    exact .goesOn response b hresponse hb hsame
  · rintro b response error ⟨-, hb, hsame⟩
    exact .failed error b hb hsame
  · rintro b response outcome ⟨hresponse, hb, hsame⟩ hturn
    cases hturn.does hb with
    | failed error c phase settings => exact .failed error c phase (hsame.trans settings)
    | accepted answer connection c hanswer phase settings =>
      exact .accepted _ _ c (hresponse.append hanswer) phase (hsame.trans settings)
    | goesOn answer c hanswer phase settings =>
      exact ⟨hresponse.append hanswer, phase, hsame.trans settings⟩

theorem Reactivating.not_finished (h : a.Reactivating) : a.isFinished = false := by
  rcases h with h | ⟨granted, h⟩ <;> simp [isFinished, h]

theorem step_eq_stepReactivation (h : a.Reactivating) (input : Bytes) :
    a.step input = a.stepReactivation input := by
  rcases h with h | ⟨grantedControlSent, h⟩ <;> simp only [step, h]

theorem step_outcome_of_reactivating (h : a.Reactivating) (input : Bytes) :
    ReactivationOutcome a (a.step input) := by
  rw [step_eq_stepReactivation h, stepReactivation]
  split
  · exact .failed _ a h (.refl a)
  · exact reactivationLoop_outcome _ h _

def Admitted (a : Acceptor) : Prop := a.Reactivating ∨ a.phase = .accepted

def NoDemandActive (response : List ServerPdu) : Prop :=
  ∀ desktopWidth desktopHeight, ServerPdu.demandActive desktopWidth desktopHeight ∉ response

/-- A step neither sends Demand Active nor admits the client; only Client Info makes the acceptor
wait for approval. -/
inductive StepOutcome (a : Acceptor) : Outcome → Prop
  | failed (error : ConnectorError) (b : Acceptor) (admitted : b.Admitted → a.Admitted)
      (waiting : b.phase = .waitAuthApproval → a.phase = .waitAuthApproval) :
      StepOutcome a (.error error, b)
  | answered (response : List ServerPdu) (event : AcceptorEvent) (b : Acceptor)
      (quiet : NoDemandActive response)
      (unasked : ∀ credentials, event ≠ .clientInfoReceived credentials)
      (accepted : ∀ connection, event = .accepted connection → a.Admitted)
      (admitted : b.Admitted → a.Admitted) (waiting : b.phase ≠ .waitAuthApproval) :
      StepOutcome a (.ok ⟨response, event⟩, b)
  | clientInfo (credentials : ClientCredentials) (b : Acceptor) (phase : b.phase = .waitAuthApproval) :
      StepOutcome a (.ok ⟨[.licenseValidClient], .clientInfoReceived credentials⟩, b)

def InDomainSetup (phase : Phase) : Prop :=
  phase = .waitErectDomainRequest ∨ phase = .waitAttachUserRequest ∨
    (∃ remaining, phase = .waitChannelJoinRequest remaining) ∨ phase = .waitClientInfo ∨
    phase = .rejected

theorem InDomainSetup.not_admitted (h : InDomainSetup a.phase) : ¬ a.Admitted := by
  rintro ((hphase | ⟨granted, hphase⟩) | hphase) <;> rw [hphase] at h <;> simp [InDomainSetup] at h

variable {phase : Phase}

theorem InDomainSetup.not_waiting (h : InDomainSetup phase) : phase ≠ .waitAuthApproval := by
  rintro rfl
  simp [InDomainSetup] at h

inductive DomainTurn (a : Acceptor) (buf rest : Bytes) : Phase → List ServerPdu → Phase → Prop
  | erected (request : ErectDomainRequest)
      (hdecode : ErectDomainRequest.decode buf = .ok (request, rest)) :
      DomainTurn a buf rest .waitErectDomainRequest [] .waitAttachUserRequest
  | attached (hdecode : decodeAttachUserRequest buf = .ok ((), rest)) :
      DomainTurn a buf rest .waitAttachUserRequest [.attachUserConfirm 0 userChannelId]
        (.waitChannelJoinRequest
          (2 + a.staticChannelNames.length + if a.messageChannelId.isSome then 1 else 0))
  | joined (remaining : Nat) (request : ChannelJoinRequest)
      (hdecode : ChannelJoinRequest.decode buf = .ok (request, rest)) :
      DomainTurn a buf rest (.waitChannelJoinRequest remaining)
        [.channelJoinConfirm 0 request.initiator request.channelId request.channelId]
        (if remaining - 1 = 0 then .waitClientInfo else .waitChannelJoinRequest (remaining - 1))

variable {next : Phase} {buf rest : Bytes} {answer : List ServerPdu}

theorem domainTurn_of_ok (h : a.handleDomainPdu phase buf = .ok ((answer, next), rest)) :
    DomainTurn a buf rest phase answer next := by
  unfold handleDomainPdu at h
  split at h
  · split at h
    · cases h
    · next hdecode =>
      cases h
      exact .erected _ hdecode
  · split at h
    · cases h
    · next hdecode =>
      cases h
      exact .attached hdecode
  · split at h
    · cases h
    · next hdecode =>
      cases h
      exact .joined _ _ hdecode
  · cases h

theorem DomainTurn.inDomainSetup (h : DomainTurn a buf rest phase answer next) :
    InDomainSetup next := by
  cases h with
  | erected => exact .inr (.inl rfl)
  | attached => exact .inr (.inr (.inl ⟨_, rfl⟩))
  | joined =>
    split
    · exact .inr (.inr (.inr (.inl rfl)))
    · exact .inr (.inr (.inl ⟨_, rfl⟩))

theorem DomainTurn.noDemandActive (h : DomainTurn a buf rest phase answer next) :
    NoDemandActive answer := by
  cases h <;> simp [NoDemandActive]

theorem NoDemandActive.append {first second : List ServerPdu}
    (hfirst : NoDemandActive first)
    (hsecond : NoDemandActive second) : NoDemandActive (first ++ second) := by
  intro desktopWidth desktopHeight hmem
  rcases List.mem_append.mp hmem with hmem | hmem
  · exact hfirst _ _ hmem
  · exact hsecond _ _ hmem

theorem domainLoop_outcome (a : Acceptor) (fuel : Nat)
    (hb : InDomainSetup b.phase)
    {response : List ServerPdu}
    (hresponse : NoDemandActive response)
    (buf : Bytes) : StepOutcome a (domainLoop fuel b response buf) := by
  have hanswer : ∀ (c : Acceptor) (pdus : List ServerPdu), InDomainSetup c.phase →
      NoDemandActive pdus → StepOutcome a (.ok (.just pdus), c) := by
    intro c pdus hc hpdus
    exact .answered pdus .none c hpdus (fun _ h => by cases h) (fun _ h => by cases h)
      (fun h => absurd h hc.not_admitted) hc.not_waiting
  have hfailure : ∀ (c : Acceptor) (error : ConnectorError), InDomainSetup c.phase →
      StepOutcome a (.error error, c) := by
    intro c error hc
    exact .failed error c (fun h => absurd h hc.not_admitted) (fun h => absurd h hc.not_waiting)
  have hrejected : InDomainSetup .rejected := .inr (.inr (.inr (.inr rfl)))
  induction fuel generalizing b response buf with
  | zero => exact hanswer b response hb hresponse
  | succ fuel ih =>
    unfold domainLoop
    split
    · exact hanswer b response hb hresponse
    · split
      · exact hfailure _ _ hrejected
      · split
        · exact hfailure _ _ hb
        · exact hfailure _ _ hrejected
        · next answer next rest hpdu =>
          have hturn := domainTurn_of_ok hpdu
          split
          · exact hanswer _ _ hturn.inDomainSetup (hresponse.append hturn.noDemandActive)
          · exact ih hturn.inDomainSetup (hresponse.append hturn.noDemandActive) rest

theorem stepOutcome_keep (error : ConnectorError) : StepOutcome a (.error error, a) :=
  .failed error a id id

theorem onConnectionRequest_outcome (a : Acceptor) (input : Bytes) :
    StepOutcome a (a.onConnectionRequest input) := by
  have hselect : ∀ (pdus : List ServerPdu) (event : AcceptorEvent) (b : Acceptor), NoDemandActive pdus →
      event = .tlsUpgrade ∨ event = .rejected →
      b.phase = .waitConnectInitial ∨ b.phase = .rejected → StepOutcome a (.ok ⟨pdus, event⟩, b) := by
    intro pdus event b hquiet hevent hphase
    refine .answered pdus event b hquiet ?_ ?_ ?_ ?_
    · rintro credentials rfl
      simp at hevent
    · rintro connection rfl
      simp at hevent
    · rintro ((h | ⟨granted, h⟩) | h) <;> rw [h] at hphase <;> simp at hphase
    · intro h
      rw [h] at hphase
      simp at hphase
  unfold onConnectionRequest
  split
  · exact stepOutcome_keep _
  · split
    · exact hselect _ _ _ (by simp [NoDemandActive]) (.inl rfl) (.inl rfl)
    · split
      · exact hselect _ _ _ (by simp [NoDemandActive]) (.inl rfl) (.inl rfl)
      · exact hselect _ _ _ (by simp [NoDemandActive]) (.inr rfl) (.inr rfl)

theorem onConnectInitial_outcome (a : Acceptor) (input : Bytes) :
    StepOutcome a (a.onConnectInitial input) := by
  unfold onConnectInitial
  split
  · exact stepOutcome_keep _
  · exact .answered _ .none _ (by simp [NoDemandActive]) (fun _ h => by cases h) (fun _ h => by cases h)
      (fun h => absurd h (InDomainSetup.not_admitted (.inl rfl))) (fun h => by cases h)

theorem onClientInfo_outcome (a : Acceptor) (input : Bytes) :
    StepOutcome a (a.onClientInfo input) := by
  unfold onClientInfo
  split
  · exact stepOutcome_keep _
  · exact .clientInfo _ _ rfl

theorem Reactivating.not_waiting (h : a.Reactivating) : a.phase ≠ .waitAuthApproval := by
  rcases h with h | ⟨granted, h⟩ <;> rw [h] <;> simp

theorem IsFinalizationAnswer.noDemandActive {response : List ServerPdu}
    (h : IsFinalizationAnswer response) : NoDemandActive response := by
  intro desktopWidth desktopHeight hmem
  have := h _ hmem
  simp at this

theorem ReactivationOutcome.stepOutcome
    (ha : a.Reactivating)
    {outcome : Outcome}
    (h : ReactivationOutcome a outcome) : StepOutcome a outcome := by
  cases h with
  | goesOn response b answer phase settings =>
    exact .answered response .none b answer.noDemandActive (fun _ h => by cases h)
      (fun _ h => by cases h) (fun _ => .inl ha) phase.not_waiting
  | accepted response connection b answer phase settings =>
    exact .answered response _ b answer.noDemandActive (fun _ h => by cases h) (fun _ _ => .inl ha)
      (fun _ => .inl ha) (by rw [phase]; simp)
  | failed error b phase settings =>
    exact .failed _ b (fun _ => .inl ha) (fun h => absurd h phase.not_waiting)

theorem step_outcome (a : Acceptor) (input : Bytes) : StepOutcome a (a.step input) := by
  have hdomain : InDomainSetup a.phase → StepOutcome a (a.stepMcsDomainPdus input) := by
    intro h
    unfold stepMcsDomainPdus
    split
    · exact stepOutcome_keep _
    · exact domainLoop_outcome a _ h (by simp [NoDemandActive]) _
  have hreactivation : a.Reactivating → StepOutcome a (a.stepReactivation input) := by
    intro h
    rw [← step_eq_stepReactivation h]
    exact (step_outcome_of_reactivating h input).stepOutcome h
  unfold step
  split
  · next hphase => exact hdomain (.inl hphase)
  · next hphase => exact hdomain (.inr (.inl hphase))
  · next remaining hphase => exact hdomain (.inr (.inr (.inl ⟨remaining, hphase⟩)))
  · exact stepOutcome_keep _
  · exact stepOutcome_keep _
  · next hphase => exact hreactivation (.inl hphase)
  · next granted hphase => exact hreactivation (.inr ⟨granted, hphase⟩)
  · exact onConnectionRequest_outcome a input
  · exact onConnectInitial_outcome a input
  · exact onClientInfo_outcome a input
  · exact stepOutcome_keep _

theorem onConnectionRequest_tlsUpgrade {input : Bytes} {result : StepResult}
    (h : a.onConnectionRequest input = (.ok result, b))
    (hevent : result.event = .tlsUpgrade) :
    (b.requiresCredssp = true ∧ result.response = [.connectionConfirm .hybrid]) ∨
    (b.requiresCredssp = false ∧
     result.response = [.connectionConfirm .ssl] ∧
     a.requireNla = false) := by
  have hhybrid : SecurityProtocol.contains .hybrid .hybrid = true := by decide
  have hssl : SecurityProtocol.contains .ssl .hybrid = false := by decide
  unfold onConnectionRequest at h
  split at h
  · cases h
  · split at h
    · cases h
      exact .inl ⟨hhybrid, rfl⟩
    · split at h
      · next hallowed =>
        cases h
        rw [Bool.and_eq_true] at hallowed
        exact .inr ⟨hssl, rfl, by simpa using hallowed.1⟩
      · cases h
        cases hevent

def PastConnect (phase : Phase) : Prop :=
  phase ≠ .waitConnectionRequest ∧ phase ≠ .waitConnectInitial

/-- Behind Connect-Initial a step writes the phase, the buffer for Confirm Active, within its limit,
and what Confirm Active negotiates; a property that survives these is an invariant. -/
structure Kept (inv : Acceptor → Prop) : Prop where
  phase : ∀ a phase, PastConnect phase → inv a → inv { a with phase := phase }
  buffer : ∀ a buf, buf.length ≤ maxConfirmActiveLen → inv a → inv { a with confirmActiveBuf := buf }
  capabilities : ∀ a nscodec maxRequestSize,
    inv a → inv { a with nscodec := nscodec, maxRequestSize := maxRequestSize }

theorem pastConnect_rejected : PastConnect .rejected := ⟨by decide, by decide⟩

theorem InDomainSetup.pastConnect (h : InDomainSetup phase) : PastConnect phase := by
  constructor
  · rintro rfl
    simp [InDomainSetup] at h
  · rintro rfl
    simp [InDomainSetup] at h

section Kept
variable {inv : Acceptor → Prop}

theorem Kept.domainLoop
    (h : Kept inv)
    (fuel : Nat)
    (ha : inv a)
    (response : List ServerPdu) (buf : Bytes) : inv (domainLoop fuel a response buf).2 := by
  induction fuel generalizing a response buf with
  | zero => exact ha
  | succ fuel ih =>
    unfold Acceptor.domainLoop
    split
    · exact ha
    · split
      · exact h.phase a _ pastConnect_rejected ha
      · split
        · exact ha
        · exact h.phase a _ pastConnect_rejected ha
        · next answer next rest hpdu =>
          have hnext := h.phase a next (domainTurn_of_ok hpdu).inDomainSetup.pastConnect ha
          split
          · exact hnext
          · exact ih hnext _ _

theorem Kept.requestTurn (h : Kept inv) (ha : inv a) (hturn : RequestTurn a outcome) :
    inv outcome.2 := by
  have hempty : inv { a with confirmActiveBuf := [] } := h.buffer a [] (Nat.zero_le _) ha
  cases hturn with
  | skipped => exact ha
  | failed error => exact hempty
  | buffered buf hfits => exact h.buffer a buf hfits ha
  | confirmed nscodec maxRequestSize =>
    exact h.phase _ _ ⟨by simp, by simp⟩ (h.capabilities _ _ _ hempty)
  | granted => exact h.phase a _ ⟨by simp, by simp⟩ ha
  | accepted => exact h.phase a _ ⟨by simp, by simp⟩ ha
  | notReady hphase => exact ha

theorem Kept.reactivationLoop (h : Kept inv) (fuel : Nat) (ha : inv a) (buf : Bytes) :
    inv (reactivationLoop fuel a [] buf).2 := by
  refine reactivationLoop_induction (fun b _ => inv b) (fun outcome => inv outcome.2) (fun _ _ hb => hb)
    (fun _ _ _ hb => hb) ?_ fuel ha buf
  intro b response outcome hb hturn
  have hafter := h.requestTurn hb hturn
  cases hturn <;> exact hafter

theorem Kept.step (h : Kept inv) (hpast : PastConnect a.phase) (ha : inv a) (input : Bytes) :
    inv (a.step input).2 := by
  have hdomain : inv (a.stepMcsDomainPdus input).2 := by
    unfold stepMcsDomainPdus
    split
    · exact ha
    · exact h.domainLoop _ ha _ _
  have hreactivation : inv (a.stepReactivation input).2 := by
    unfold stepReactivation
    split
    · exact ha
    · exact h.reactivationLoop _ ha _
  unfold Acceptor.step
  split
  · exact hdomain
  · exact hdomain
  · exact hdomain
  · exact ha
  · exact ha
  · exact hreactivation
  · exact hreactivation
  · next hphase => exact absurd hphase hpast.1
  · next hphase => exact absurd hphase hpast.2
  · unfold onClientInfo
    split
    · exact ha
    · exact h.phase a _ ⟨by simp, by simp⟩ ha
  · exact ha

end Kept

structure KeptThroughout (inv : Acceptor → Prop) : Prop extends Kept inv where
  negotiated : ∀ a protocols selected, inv a → inv
    { a with clientRequestedProtocols := protocols, selectedProtocol := selected,
             phase := .waitConnectInitial }
  connected : ∀ a name names channel, inv a → inv
    { a with clientName := name, staticChannelNames := names, messageChannelId := channel,
             phase := .waitErectDomainRequest }

theorem KeptThroughout.step {inv : Acceptor → Prop}
    (h : KeptThroughout inv)
    (ha : inv a)
    (input : Bytes) : inv (a.step input).2 := by
  by_cases hrequest : a.phase = .waitConnectionRequest
  · rw [Acceptor.step, hrequest]
    dsimp only
    unfold onConnectionRequest
    split
    · exact ha
    · split
      · exact h.negotiated a _ _ ha
      · split
        · exact h.negotiated a _ _ ha
        · exact h.phase a _ pastConnect_rejected ha
  · by_cases hinitial : a.phase = .waitConnectInitial
    · rw [Acceptor.step, hinitial]
      dsimp only
      unfold onConnectInitial
      split
      · exact ha
      · exact h.connected a _ _ _ ha
    · exact h.toKept.step ⟨hrequest, hinitial⟩ ha input

def desktop (a : Acceptor) : Nat × Nat := (a.desktopWidth, a.desktopHeight)

theorem kept_desktop (size : Nat × Nat) : KeptThroughout fun a => a.desktop = size where
  phase _ _ _ h := h
  buffer _ _ _ h := h
  capabilities _ _ _ h := h
  negotiated _ _ _ h := h
  connected _ _ _ _ h := h

def Describes (outcome : Outcome) : Prop :=
  ∀ response connection, outcome.1 = .ok ⟨response, .accepted connection⟩ →
    connection = outcome.2.acceptedConnection

theorem describes_of_error (error : ConnectorError) (a : Acceptor) :
    Describes (.error error, a) := by
  intro response connection h
  cases h

theorem describes_just (response : List ServerPdu) (a : Acceptor) :
    Describes (.ok (.just response), a) := by
  intro response' connection h
  cases h

theorem describes_reactivationLoop (fuel : Nat) (a : Acceptor) (buf : Bytes) :
    Describes (reactivationLoop fuel a [] buf) := by
  refine reactivationLoop_induction (fun _ _ => True) _ (fun b response _ => describes_just response b)
    (fun b _ error _ => describes_of_error _ b) ?_ fuel trivial buf
  intro b response outcome _ hturn
  cases hturn with
  | accepted =>
    intro response' connection h
    cases h
    rfl
  | failed error => exact describes_of_error _ _
  | notReady hphase => exact describes_of_error _ _
  | skipped | buffered | confirmed | granted => trivial

theorem describes_step (a : Acceptor) (input : Bytes) : Describes (a.step input) := by
  by_cases hreactivating : a.Reactivating
  · rw [step_eq_stepReactivation hreactivating, stepReactivation]
    split
    · exact describes_of_error _ _
    · exact describes_reactivationLoop _ _ _
  · -- in the other phases nothing is accepted
    intro response connection h
    have houtcome := a.step_outcome input
    generalize hstep : a.step input = outcome at h houtcome
    cases houtcome with
    | failed error b admitted waiting => cases h
    | answered response' event b quiet unasked accepted admitted waiting =>
      cases h
      rcases accepted connection rfl with hphase | hphase
      · exact absurd hphase hreactivating
      · rw [step, hphase] at hstep
        cases hstep
    | clientInfo credentials b phase => cases h

end Acceptor
end Kmsrdp.Source.Connector
