import Kmsrdp.Library.Execution
import Kmsrdp.Source.Server.Handshake

/-!
# No Demand Active without authentication

`negotiate` sends Demand Active, and returns an accepted connection, only for an authenticated
client: by CredSSP and a Client Info that names no other account under HYBRID, by the validator
under SSL, and never under SSL when NLA is required.
-/
namespace Kmsrdp.Guarantees.Authentication
open Library.ByteString Library.Execution Source.Connector Source.Pdu Source.Server.Authorization
  List Acceptor
  Source.Server.Handshake

def clientUser (credentials : ClientCredentials) : String :=
  (normalizeClientIdentity credentials.username credentials.domain).2

/-- CredSSP has succeeded under HYBRID, and the Client Info does not name another account. -/
def NlaAuthenticated (trace : Trace) (credentials : ClientCredentials) : Prop :=
  Event.sent [.connectionConfirm .hybrid] ∈ trace ∧ ∃ user, Event.credsspSucceeded user ∈ trace ∧
    (clientUser credentials = "" ∨ SameIgnoringCase (clientUser credentials) user)

/-- Under SSL, which is only for servers that do not require NLA, the validator has accepted the
Client Info. -/
def ValidatorAuthenticated (params : HandshakeParams) (trace : Trace)
    (credentials : ClientCredentials) : Prop :=
  Event.sent [.connectionConfirm .ssl] ∈ trace ∧ params.requireNla = false ∧
    ∃ validate, params.credentialValidator = some validate ∧
      validate credentials.username credentials.password credentials.domain = true

def Authenticated (params : HandshakeParams) (trace : Trace) : Prop :=
  ∃ credentials, Event.clientInfo credentials ∈ trace ∧
    (NlaAuthenticated trace credentials ∨ ValidatorAuthenticated params trace credentials)

def DemandsAfter (params : HandshakeParams) (trace : Trace) : Prop :=
  ∀ before pdus after, trace = before ++ Event.sent pdus :: after →
    (∃ desktopWidth desktopHeight, ServerPdu.demandActive desktopWidth desktopHeight ∈ pdus) →
    Authenticated params before

variable {params : HandshakeParams} {trace : Trace}

theorem Authenticated.append (h : Authenticated params trace) (more : Trace) :
    Authenticated params (trace ++ more) := by
  obtain ⟨credentials, hinfo, ⟨hconfirm, user, huser, hname⟩ | ⟨hconfirm, hnla, hvalid⟩⟩ := h
  · exact ⟨credentials, mem_append_left _ hinfo,
      .inl ⟨mem_append_left _ hconfirm, user, mem_append_left _ huser, hname⟩⟩
  · exact ⟨credentials, mem_append_left _ hinfo, .inr ⟨mem_append_left _ hconfirm, hnla, hvalid⟩⟩

theorem demandsAfter_nil (params : HandshakeParams) : DemandsAfter params [] := by
  intro before pdus after htrace
  simp at htrace

theorem DemandsAfter.snoc
    (h : DemandsAfter params trace)
    {event : Event}
    (hevent :
      ∀ pdus, event = .sent pdus → Acceptor.NoDemandActive pdus ∨ Authenticated params trace) :
    DemandsAfter params (trace ++ [event]) := by
  intro before pdus after htrace hdemand
  rcases eq_nil_or_concat after with rfl | ⟨front, last, rfl⟩
  · obtain ⟨rfl, heq⟩ := append_inj' htrace rfl
    obtain ⟨desktopWidth, desktopHeight, hmem⟩ := hdemand
    rcases hevent pdus (by simpa using heq) with hquiet | hauthenticated
    · exact absurd hmem (hquiet _ _)
    · exact hauthenticated
  · rw [concat_eq_append, ← cons_append, ← append_assoc] at htrace
    exact h before pdus front (append_inj' htrace rfl).1 hdemand

variable {response : List ServerPdu}

theorem DemandsAfter.answer
    (h : DemandsAfter params trace)
    (hquiet : Acceptor.NoDemandActive response) :
    DemandsAfter params (trace ++ sentIfAny response) := by
  unfold sentIfAny
  split
  · rwa [append_nil]
  · refine h.snoc fun pdus heq => .inl ?_
    cases heq
    exact hquiet

/-- How the account of CredSSP came about, or why there is none. -/
def Bound (params : HandshakeParams) (nlaUser : Option String) (trace : Trace) : Prop :=
  (∃ user, nlaUser = some user ∧ Event.sent [.connectionConfirm .hybrid] ∈ trace ∧
      Event.credsspSucceeded user ∈ trace) ∨
    (nlaUser = none ∧ Event.sent [.connectionConfirm .ssl] ∈ trace ∧ params.requireNla = false)

variable {nlaUser : Option String}

theorem Bound.append (h : Bound params nlaUser trace) (more : Trace) :
    Bound params nlaUser (trace ++ more) := by
  rcases h with ⟨user, huser, hconfirm, hsucceeded⟩ | ⟨hnone, hconfirm, hnla⟩
  · exact .inl ⟨user, huser, mem_append_left _ hconfirm, mem_append_left _ hsucceeded⟩
  · exact .inr ⟨hnone, mem_append_left _ hconfirm, hnla⟩

theorem authenticated_of_authorized
    (hbound : Bound params nlaUser trace)
    {credentials : ClientCredentials}
    (h : clientInfoIsAuthorized nlaUser params.credentialValidator credentials.username
        credentials.password credentials.domain =
        true) : Authenticated params (trace ++ [.clientInfo credentials]) := by
  have hinfo : Event.clientInfo credentials ∈ trace ++ [Event.clientInfo credentials] := by simp
  refine ⟨credentials, hinfo, ?_⟩
  rcases hbound with ⟨user, rfl, hconfirm, hsucceeded⟩ | ⟨rfl, hconfirm, hnla⟩
  · refine .inl ⟨mem_append_left _ hconfirm, user, mem_append_left _ hsucceeded, ?_⟩
    simp only [clientInfoIsAuthorized] at h
    split at h
    · next hempty => exact .inl hempty
    · exact .inr ((eqIgnoreAsciiCaseCt_iff _ _).mp h)
  · refine .inr ⟨mem_append_left _ hconfirm, hnla, ?_⟩
    simp only [clientInfoIsAuthorized] at h
    split at h
    · next validate hvalidator => exact ⟨validate, hvalidator, h⟩
    · cases h

structure LoopInv (params : HandshakeParams) (nlaUser : Option String) (a : Acceptor)
    (trace : Trace) : Prop where
  bound : Bound params nlaUser trace
  demands : DemandsAfter params trace
  admitted : a.Admitted → Authenticated params trace

def Sound (params : HandshakeParams) (run : Run) : Prop :=
  DemandsAfter params run.2 ∧
    ∀ acceptor connection, run.1 = .ok (some (acceptor, connection)) → Authenticated params run.2

theorem sound_of_demands
    (h : DemandsAfter params trace)
    {result : Except ServerError (Option (Acceptor × AcceptedConnection))}
    (hresult : ∀ accepted, result ≠ .ok (some accepted)) : Sound params (result, trace) :=
  ⟨h, fun _ _ hok => absurd hok (hresult _)⟩

theorem sound_handshakeLoop (fuel : Nat) {a : Acceptor}
    (h : LoopInv params nlaUser a trace)
    (stream : Bytes) : Sound params (handshakeLoop params nlaUser fuel a stream trace) := by
  induction fuel generalizing a trace stream with
  | zero => exact sound_of_demands h.demands (by simp)
  | succ fuel ih =>
    unfold handshakeLoop
    split
    · exact sound_of_demands h.demands (by simp)
    · next frame rest _ =>
      have houtcome := a.step_outcome frame
      generalize a.step frame = outcome at houtcome
      cases houtcome with
      | failed error b admitted waiting => exact sound_of_demands h.demands (by simp)
      | answered response event b quiet unasked accepted admitted waiting =>
        have hdemands := h.demands.answer quiet
        have hnext : LoopInv params nlaUser b (trace ++ sentIfAny response) :=
          ⟨h.bound.append _, hdemands, fun hb => (h.admitted (admitted hb)).append _⟩
        cases event with
        | none => exact ih hnext rest
        | tlsUpgrade => exact ih hnext rest
        | rejected => exact sound_of_demands h.demands (by simp)
        | accepted connection =>
          exact ⟨hdemands, fun _ _ _ => (h.admitted (accepted connection rfl)).append _⟩
        | clientInfoReceived credentials => exact absurd rfl (unasked credentials)
      | clientInfo credentials b phase =>
        have hinfo : DemandsAfter params (trace ++ [.clientInfo credentials]) :=
          h.demands.snoc fun pdus heq => by cases heq
        dsimp only
        split
        · next hauthorized =>
          have hauthenticated := authenticated_of_authorized h.bound hauthorized
          have hlicense : DemandsAfter params (trace ++ [.clientInfo credentials] ++ [.authenticated] ++
              sentIfAny [.licenseValidClient]) := by
            refine (hinfo.snoc fun pdus heq => by cases heq).answer ?_
            simp [Acceptor.NoDemandActive]
          rw [approveClientInfo, if_pos phase]
          refine ih ⟨?_, ?_, fun _ => ?_⟩ rest
          · exact (((h.bound.append _).append _).append _).append _
          · exact hlicense.snoc fun _ _ => .inr ((hauthenticated.append _).append _)
          · exact ((hauthenticated.append _).append _).append _
        · refine sound_of_demands (hinfo.snoc fun pdus heq => by cases heq) (by simp)

theorem demandsAfter_sent (hquiet : Acceptor.NoDemandActive response) :
    DemandsAfter params [.sent response] := by
  refine (demandsAfter_nil params).snoc fun pdus heq => .inl ?_
  cases heq
  exact hquiet

theorem sound_negotiateTls (client : Client) {a : Acceptor}
    (hquiet : Acceptor.NoDemandActive response)
    (ha : ¬ a.Admitted)
    (hselected : (a.requiresCredssp = true ∧ response = [.connectionConfirm .hybrid]) ∨
      (a.requiresCredssp = false ∧
       response = [.connectionConfirm .ssl] ∧
       params.requireNla = false))
    (stream : Bytes) : Sound params (negotiateTls params client a stream [.sent response]) := by
  have hdemands : DemandsAfter params [.sent response] := demandsAfter_sent hquiet
  unfold negotiateTls
  rcases hselected with ⟨hcredssp, rfl⟩ | ⟨hcredssp, rfl, hnla⟩
  · rw [if_pos hcredssp]
    split
    · exact sound_of_demands hdemands (by simp)
    · split
      · exact sound_of_demands hdemands (by simp)
      · split
        · next user rest _ =>
          refine sound_handshakeLoop _
            ⟨.inl ⟨user, rfl, by simp, by simp⟩, ?_, fun h => absurd h ha⟩ rest
          exact hdemands.snoc fun pdus heq => by cases heq
        · exact sound_of_demands (hdemands.snoc fun pdus heq => by cases heq) (by simp)
  · rw [if_neg (by simp [hcredssp])]
    exact sound_handshakeLoop _ ⟨.inr ⟨rfl, by simp, hnla⟩, hdemands, fun h => absurd h ha⟩ stream

theorem sound_negotiate (params : HandshakeParams) (client : Client) :
    Sound params (negotiate params client) := by
  unfold negotiate
  dsimp only
  split
  · exact sound_of_demands (demandsAfter_nil params) (by simp)
  · next frame _ _ =>
    generalize hnew : new params.desktopWidth params.desktopHeight params.requireNla = a
    have hphase : a.phase = .waitConnectionRequest := by rw [← hnew]; rfl
    have hrequire : a.requireNla = params.requireNla := by rw [← hnew]; rfl
    have hstep : a.step frame = a.onConnectionRequest frame := by rw [step, hphase]
    have houtcome := a.step_outcome frame
    split
    · exact sound_of_demands (demandsAfter_nil params) (by simp)
    · next result b hresult =>
      rw [hresult] at houtcome
      cases houtcome with
      | clientInfo credentials b phase =>
        exact sound_of_demands (demandsAfter_sent (by simp [Acceptor.NoDemandActive])) (by simp)
      | answered response event b quiet unasked accepted admitted waiting =>
        have hdemands : DemandsAfter params [.sent response] := demandsAfter_sent quiet
        cases event with
        | tlsUpgrade =>
          dsimp only
          split
          · exact sound_of_demands hdemands (by simp)
          · next stream _ =>
            have hselected := onConnectionRequest_tlsUpgrade (hstep ▸ hresult) rfl
            rw [hrequire] at hselected
            refine sound_negotiateTls client quiet (fun hb => ?_) hselected stream
            have ha := admitted hb
            rcases ha with (h | ⟨granted, h⟩) | h <;> rw [hphase] at h <;> cases h
        | none => exact sound_of_demands hdemands (by simp)
        | rejected => exact sound_of_demands hdemands (by simp)
        | clientInfoReceived credentials => exact sound_of_demands hdemands (by simp)
        | accepted connection => exact sound_of_demands hdemands (by simp)

inductive Call where
  | step (input : Bytes)
  | approve
  | reject
  | beginResize (desktopWidth desktopHeight : Nat)

/-- What a call has come to; a call that fails is one of the others. -/
inductive Entry where
  | event (event : AcceptorEvent)
  | approved
  | other

structure Driven where
  acceptor : Acceptor
  log : List Entry

namespace Driven

def start (desktopWidth desktopHeight : Nat) (requireNla : Bool) : Driven :=
  ⟨Acceptor.new desktopWidth desktopHeight requireNla, []⟩

def entryOf (result : Except ConnectorError StepResult) : Entry :=
  match result with
  | .ok result => .event result.event
  | .error _ => .other

def step (s : Driven) : Call → Option Driven
  | .step input =>
    let (result, acceptor) := s.acceptor.step input
    some ⟨acceptor, s.log ++ [entryOf result]⟩
  | .approve =>
    match s.acceptor.approveClientInfo with
    | (.ok _, acceptor) => some ⟨acceptor, s.log ++ [.approved]⟩
    | (.error _, acceptor) => some ⟨acceptor, s.log ++ [.other]⟩
  | .reject => some ⟨s.acceptor.rejectClientInfo, s.log ++ [.other]⟩
  | .beginResize desktopWidth desktopHeight =>
    some ⟨(s.acceptor.beginResize desktopWidth desktopHeight).2, s.log ++ [.other]⟩

end Driven

def Informed (log : List Entry) : Prop :=
  ∃ before after credentials, log = before ++ Entry.event (.clientInfoReceived credentials) :: after

/-- An approval that was granted after a Client Info. -/
def Approved (log : List Entry) : Prop :=
  ∃ before after, log = before ++ Entry.approved :: after ∧ Informed before

theorem Informed.append {log : List Entry} (h : Informed log) (more : List Entry) :
    Informed (log ++ more) := by
  obtain ⟨before, after, credentials, rfl⟩ := h
  exact ⟨before, after ++ more, credentials, by simp⟩

theorem Approved.append {log : List Entry} (h : Approved log) (more : List Entry) :
    Approved (log ++ more) := by
  obtain ⟨before, after, rfl, hinformed⟩ := h
  exact ⟨before, after ++ more, by simp, hinformed⟩

structure DrivenInv (s : Driven) : Prop where
  waiting : s.acceptor.phase = .waitAuthApproval → Informed s.log
  admitted : s.acceptor.Admitted → Approved s.log

theorem Driven.inv_step {s t : Driven} {call : Call}
    (h : DrivenInv s)
    (hstep : s.step call = some t) : DrivenInv t := by
  cases call with
  | step input =>
    have houtcome := s.acceptor.step_outcome input
    simp only [Driven.step] at hstep
    generalize s.acceptor.step input = outcome at houtcome hstep
    cases hstep
    cases houtcome with
    | failed error b admitted waiting =>
      exact ⟨fun hb => (h.waiting (waiting hb)).append _, fun hb => (h.admitted (admitted hb)).append _⟩
    | answered response event b quiet unasked accepted admitted waiting =>
      exact ⟨fun hb => absurd hb waiting, fun hb => (h.admitted (admitted hb)).append _⟩
    | clientInfo credentials b phase =>
      refine ⟨fun _ => ⟨s.log, [], credentials, rfl⟩, fun hb => ?_⟩
      rcases hb with (hb | ⟨granted, hb⟩) | hb <;> rw [phase] at hb <;> cases hb
  | approve =>
    simp only [Driven.step, approveClientInfo] at hstep
    split at hstep
    · next hok =>
      split at hok
      · next hphase =>
        cases hok
        cases hstep
        exact ⟨fun hb => (by cases hb), fun _ => ⟨s.log, [], rfl, h.waiting hphase⟩⟩
      · cases hok
    · next herror =>
      split at herror
      · cases herror
      · cases herror
        cases hstep
        exact ⟨fun hb => (h.waiting hb).append _, fun hb => (h.admitted hb).append _⟩
  | reject =>
    cases hstep
    unfold rejectClientInfo
    split
    · refine ⟨fun hb => (by cases hb), fun hb => ?_⟩
      rcases hb with (hb | ⟨granted, hb⟩) | hb <;> cases hb
    · exact ⟨fun hb => (h.waiting hb).append _, fun hb => (h.admitted hb).append _⟩
  | beginResize desktopWidth desktopHeight =>
    cases hstep
    unfold beginResize
    split
    · next hphase =>
      exact ⟨fun hb => (by cases hb), fun _ => (h.admitted (.inr hphase)).append _⟩
    · exact ⟨fun hb => (h.waiting hb).append _, fun hb => (h.admitted hb).append _⟩

theorem Driven.inv_start (desktopWidth desktopHeight : Nat) (requireNla : Bool) :
    DrivenInv (Driven.start desktopWidth desktopHeight requireNla) := by
  refine ⟨fun hb => (by cases hb), fun hb => ?_⟩
  rcases hb with (hb | ⟨granted, hb⟩) | hb <;> cases hb

/-- Under CredSSP the Client Info is to have no user name, or one that names the account. -/
def NamesNoOther (nlaUser username domain : String) : Prop :=
  username = "" ∨ SameIgnoringCase (normalizeClientIdentity username domain).2 nlaUser

theorem eq_empty_of_sameIgnoringCase {user : String} (h : SameIgnoringCase "" user) :
    user = "" := by
  have hlength : (lowercaseBytes user).length = (lowercaseBytes "").length := congrArg length h.symm
  simpa [lowercaseBytes] using hlength

theorem authorized_names_no_other_iff (nlaUser : String) (validator : Option CredentialValidator)
    (username password domain : String) :
    (clientInfoIsAuthorized (some nlaUser) validator username password domain = true →
       NamesNoOther nlaUser username domain) ↔
      (username ≠ "" → (normalizeClientIdentity username domain).2 = "" → nlaUser = "") := by
  simp only [clientInfoIsAuthorized, NamesNoOther]
  constructor
  · intro h hname hempty
    rw [hempty, if_pos rfl] at h
    exact eq_empty_of_sameIgnoringCase ((h rfl).resolve_left hname)
  · intro h hauthorized
    by_cases hname : username = ""
    · exact .inl hname
    · refine .inr ?_
      split at hauthorized
      · next hempty =>
        rw [hempty, h hname hempty]
        rfl
      · exact (eqIgnoreAsciiCaseCt_iff _ _).mp hauthorized

/-- For every client, Demand Active and the accepted connection come only after authentication, and
under any calls the acceptor is accepted only after an approval that followed a Client Info. After
CredSSP a Client Info that is let in has no user name or names the account, exactly if its user name
is not one with an empty user part behind a domain. -/
theorem admitted_only_after_authentication (params : HandshakeParams) (client : Client) :
    (∀ before pdus after, (negotiate params client).2 = before ++ Event.sent pdus :: after →
       (∃ desktopWidth desktopHeight, ServerPdu.demandActive desktopWidth desktopHeight ∈ pdus) →
         Authenticated params before) ∧
    (∀ acceptor connection, (negotiate params client).1 = .ok (some (acceptor, connection)) →
       Authenticated params (negotiate params client).2) ∧
    (∀ desktopWidth desktopHeight requireNla calls s,
       exec Driven.step (Driven.start desktopWidth desktopHeight requireNla) calls = some s →
       s.acceptor.phase = .accepted →
         Approved s.log) ∧
    ∀ nlaUser username password domain,
      (clientInfoIsAuthorized (some nlaUser) params.credentialValidator username password domain =
         true →
         NamesNoOther nlaUser username domain) ↔
        (username ≠ "" → (normalizeClientIdentity username domain).2 = "" → nlaUser = "") := by
  obtain ⟨hdemands, haccepted⟩ := sound_negotiate params client
  refine ⟨hdemands, haccepted, ?_, fun _ _ _ _ => authorized_names_no_other_iff ..⟩
  intro desktopWidth desktopHeight requireNla calls s hexec hphase
  have hinv : DrivenInv s := exec_invariant DrivenInv (fun _ _ _ => Driven.inv_step) calls
    (Driven.inv_start desktopWidth desktopHeight requireNla) hexec
  exact hinv.admitted (.inr hphase)

/-! A client with no static channels that asks for HYBRID, from the Connection Request to the
Font List. -/

def connectionRequest : Bytes := [0x03, 0, 0, 19, 14, 0xE0, 0, 0, 0, 0, 0, 1, 0, 8, 0, 2, 0, 0, 0]

def domainParameters : Bytes := [0x30, 0x18] ++ (List.replicate 8 [0x02, 0x01, 0x01]).flatten

def conferenceRequest : Bytes :=
  [0, 5, 0, 0x14, 0x7C, 0, 1, 0x2A, 0, 8, 0, 0x10, 0, 1, 0xC0, 0, 0x44, 0x75, 0x63, 0x61, 0x80, 0x90] ++
    ([0x01, 0xC0, 0x84, 0x00] ++ List.replicate 128 0) ++
    ([0x02, 0xC0, 0x0C, 0x00] ++ List.replicate 8 0)

def connectInitial : Bytes :=
  wrapData ([0x7F, 0x65, 0x82, 0x01, 0x00, 4, 1, 1, 4, 1, 1, 1, 1, 0xFF] ++ domainParameters ++
    domainParameters ++ domainParameters ++ [4, 0x81, 0xA6] ++ conferenceRequest)

def domainUnit : Bytes := wrapData [4, 1, 0, 1, 0, 0x28, 0x38, 0, 1, 3, 0xEA, 0x38, 0, 1, 3, 0xEB]

def ioUnit (data : Bytes) : Bytes :=
  wrapData ([0x64, 0, 1, 3, 0xEB, 0x70, UInt8.ofNat data.length] ++ data)

def clientInfoUnit (name : Bytes) : Bytes :=
  ioUnit ([0x40, 0, 0, 0, 0, 0, 0, 0, 0x10, 0, 0, 0] ++
    [0, 0, UInt8.ofNat (2 * name.length), 0, 0, 0, 0, 0, 0, 0] ++
    [0, 0] ++ (name.flatMap fun byte => [byte, 0]) ++ [0, 0, 0, 0, 0, 0, 0, 0] ++ [2, 0, 0, 0, 0, 0])

def confirmActiveUnit : Bytes := ioUnit [10, 0, 0x13, 0, 0xEA, 3, 0xEA, 3, 1, 0]

def fontListUnit : Bytes :=
  ioUnit [18, 0, 0x17, 0, 0xEA, 3, 0xEA, 3, 1, 0, 0, 1, 0, 0, 0x27, 0, 0, 0]

def nlaParams : HandshakeParams :=
  ⟨1024, 768, true, [1], some ⟨"alice", "secret", none⟩, none⟩

def nlaClient (name : Bytes) : Client :=
  ⟨connectionRequest,
    some (connectInitial ++ domainUnit ++ clientInfoUnit name ++ confirmActiveUnit ++ fontListUnit),
    fun _ _ stream => some ("alice", stream)⟩

def handshakeCalls (name : Bytes) : List Call :=
  [.step connectionRequest, .step connectInitial, .step domainUnit, .step (clientInfoUnit name),
    .approve, .step confirmActiveUnit, .step fontListUnit]

def beforeDemandActive (username : String) : Trace :=
  [.sent [.connectionConfirm .hybrid], .credsspSucceeded "alice", .sent [.connectResponse 2 [] none],
    .sent [.attachUserConfirm 0 1002, .channelJoinConfirm 0 1002 1002 1002,
      .channelJoinConfirm 0 1002 1003 1003],
    .clientInfo ⟨"", username, ""⟩, .authenticated, .sent [.licenseValidClient]]

/-- `ALiCE` after CredSSP for `alice`. -/
theorem admitted_after_nla :
    (∃ after,
       (negotiate nlaParams (nlaClient [65, 76, 105, 67, 69])).2 =
         beforeDemandActive "ALiCE" ++ Event.sent [.demandActive 1024 768] :: after) ∧
    Authenticated nlaParams (beforeDemandActive "ALiCE") ∧
    Authenticated nlaParams (negotiate nlaParams (nlaClient [65, 76, 105, 67, 69])).2 ∧
    ∃ s,
      exec Driven.step (Driven.start 1024 768 true) (handshakeCalls [65, 76, 105, 67, 69]) =
        some s ∧
      Approved s.log := by
  have htrace : (negotiate nlaParams (nlaClient [65, 76, 105, 67, 69])).2 =
      beforeDemandActive "ALiCE" ++ Event.sent [.demandActive 1024 768] ::
        [.sent [.synchronize, .cooperate], .sent [.fontMap, .saveSessionInfo]] := by
    decide +kernel
  obtain ⟨hdemand, haccepted, hcalls, -⟩ :=
    admitted_only_after_authentication nlaParams (nlaClient [65, 76, 105, 67, 69])
  refine ⟨⟨_, htrace⟩, hdemand _ _ _ htrace ⟨1024, 768, by simp⟩, ?_, ?_⟩
  · have hok : ((negotiate nlaParams (nlaClient [65, 76, 105, 67, 69])).1.toOption.bind id).isSome =
        true := by
      decide +kernel
    cases hresult : (negotiate nlaParams (nlaClient [65, 76, 105, 67, 69])).1 with
    | error error =>
      rw [hresult] at hok
      cases hok
    | ok handshake =>
      cases handshake with
      | none =>
        rw [hresult] at hok
        cases hok
      | some accepted => exact haccepted accepted.1 accepted.2 hresult
  · have hrun : (exec Driven.step (Driven.start 1024 768 true)
        (handshakeCalls [65, 76, 105, 67, 69])).any (fun s => s.acceptor.phase = .accepted) = true := by
      decide +kernel
    obtain ⟨s, hexec, hs⟩ := (Option.any_eq_true _ _).mp hrun
    exact ⟨s, hexec, hcalls 1024 768 true _ s hexec (of_decide_eq_true hs)⟩

/-- A user name that is a domain only is let in for `alice`. -/
theorem domain_without_user_is_admitted :
    (∃ after,
       (negotiate nlaParams (nlaClient [67, 79, 82, 80, 92])).2 =
         beforeDemandActive "CORP\\" ++ Event.sent [.demandActive 1024 768] :: after) ∧
    ∀ credentials, Event.clientInfo credentials ∈ beforeDemandActive "CORP\\" →
      credentials.username ≠ "" ∧
      ¬ SameIgnoringCase credentials.username "alice" ∧
      ¬ SameIgnoringCase (clientUser credentials) "alice" := by
  refine ⟨⟨[.sent [.synchronize, .cooperate], .sent [.fontMap, .saveSessionInfo]], ?_⟩, ?_⟩
  · decide +kernel
  · intro credentials hmem
    have hcredentials : credentials = ⟨"", "CORP\\", ""⟩ := by
      simpa [beforeDemandActive] using hmem
    subst hcredentials
    exact ⟨by decide, by unfold SameIgnoringCase; decide +kernel,
      by unfold SameIgnoringCase; decide +kernel⟩

end Kmsrdp.Guarantees.Authentication
