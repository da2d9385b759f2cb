import Kmsrdp.Guarantees.ReactivationErrors

/-!
# MCS PDUs packed into X.224 units while connecting

`step_mcs_domain_pdus` and `step_reactivation` peel the PDUs of a unit off one by one; the first
stops behind the last channel join, the second behind the Font List.
-/
namespace Kmsrdp.Guarantees.PduPacking
open Library.ByteString Source.Pdu Source.Connector List Option Acceptor SendData
open Source.Connector.Acceptor (domainLoop reactivationLoop onSendData onSendData_turn
  step_eq_stepReactivation DomainTurn domainTurn_of_ok)
/-- Bytes that the decoder of the kind takes as a whole. -/
inductive IsPdu : DomainMcsPdu → Bytes → Prop
  | erectDomain {bytes : Bytes} (pdu : ErectDomainRequest)
      (h : ErectDomainRequest.decode bytes = .ok (pdu, [])) :
      IsPdu .erectDomainRequest bytes
  | attachUser {bytes : Bytes} (h : decodeAttachUserRequest bytes = .ok ((), [])) :
      IsPdu .attachUserRequest bytes
  | channelJoin {bytes : Bytes} (pdu : ChannelJoinRequest)
      (h : ChannelJoinRequest.decode bytes = .ok (pdu, [])) :
      IsPdu .channelJoinRequest bytes
  | sendData {bytes : Bytes} (pdu : SendData)
      (h : SendData.decodeRequestFromCursor bytes = .ok (pdu, [])) :
      IsPdu .sendDataRequest bytes

structure ClientPdu where
  kind : DomainMcsPdu
  bytes : Bytes
  isPdu : IsPdu kind bytes

structure DataUnit where
  input : Bytes
  payload : Bytes
  carries : unwrapData input = .ok payload

def DataUnit.of (payload : Bytes) : DataUnit :=
  ⟨wrapData payload, payload, unwrapData_wrapData payload⟩

/-- What a sequence of units leads to: all replies, the events, and the acceptor. -/
structure Course where
  response : List ServerPdu
  events : List AcceptorEvent
  acceptor : Acceptor

def eventsOf : AcceptorEvent → List AcceptorEvent
  | .none => []
  | event => [event]

/-- What the units lead to if no step fails. -/
def course (a : Acceptor) : List DataUnit → Option Course
  | [] => some ⟨[], [], a⟩
  | unit :: rest =>
    match a.step unit.input with
    | (.error _, _) => none
    | (.ok result, b) =>
      (course b rest).map fun later =>
        ⟨result.response ++ later.response, eventsOf result.event ++ later.events, later.acceptor⟩

def inDomain (a : Acceptor) : Bool :=
  match a.phase with
  | .waitErectDomainRequest | .waitAttachUserRequest | .waitChannelJoinRequest _ => true
  | _ => false

def inReactivation (a : Acceptor) : Bool :=
  match a.phase with
  | .waitConfirmActive | .waitFinalization _ => true
  | _ => false

def staysOpen (a : Acceptor) : List DataUnit → Bool
  | [] => true
  | unit :: rest => (inDomain a || inReactivation a) && staysOpen (a.step unit.input).2 rest

variable {a : Acceptor}

theorem reactivating_of_inReactivation (h : inReactivation a = true) : a.Reactivating := by
  unfold inReactivation at h
  split at h
  · next hphase => exact .inl hphase
  · next granted hphase => exact .inr ⟨granted, hphase⟩
  · cases h

theorem inReactivation_of_reactivating (h : a.Reactivating) : inReactivation a = true := by
  rcases h with hphase | ⟨granted, hphase⟩ <;> rw [inReactivation, hphase]

theorem IsPdu.choice {kind : DomainMcsPdu} {bytes : Bytes} (h : IsPdu kind bytes) :
    ∃ byte rest, bytes = byte :: rest ∧ DomainMcsPdu.fromU8 (byte >>> 2) = some kind := by
  cases h with
  | erectDomain pdu hdecode => exact choice_of_ok hdecode
  | attachUser hdecode => exact choice_of_ok hdecode
  | channelJoin pdu hdecode => exact choice_of_ok hdecode
  | sendData pdu hdecode => exact choice_of_ok hdecode

variable (pdu : ClientPdu)

theorem ClientPdu.bytes_ne_nil : pdu.bytes ≠ [] := by
  obtain ⟨byte, rest, hbytes, -⟩ := pdu.isPdu.choice
  rw [hbytes]
  exact cons_ne_nil _ _

theorem IsPdu.kind_eq {kind expected : DomainMcsPdu} {bytes : Bytes}
    (h : IsPdu kind bytes)
    {α : Type} {next : UInt8 → Decoder α} {result : α × Bytes}
    (hdecode : (readChoiceByte expected >>= next) bytes = .ok result) : kind = expected := by
  obtain ⟨byte, rest, hbytes, hkind⟩ := h.choice
  obtain ⟨byte', rest', hbytes', hexpected⟩ := choice_of_ok hdecode
  rw [hbytes] at hbytes'
  cases hbytes'
  exact some.inj (hkind.symm.trans hexpected)

variable {rest : Bytes}

theorem handleDomainPdu_pdu {phase next : Phase} {answer : List ServerPdu}
    (h : a.handleDomainPdu phase pdu.bytes = .ok ((answer, next), rest)) :
    rest = [] ∧
    ∀ more, a.handleDomainPdu phase (pdu.bytes ++ more) = .ok ((answer, next), more) := by
  obtain ⟨kind, bytes, hpdu⟩ := pdu
  cases domainTurn_of_ok h with
  | erected request hdecode =>
    obtain rfl := hpdu.kind_eq hdecode
    cases hpdu with
    | erectDomain value hvalue =>
      cases hdecode.symm.trans hvalue
      refine ⟨rfl, fun more => ?_⟩
      simp only [handleDomainPdu, ErectDomainRequest.extends_decode _ _ _ hdecode more, nil_append]
  | attached hdecode =>
    obtain rfl := hpdu.kind_eq hdecode
    cases hpdu with
    | attachUser hvalue =>
      cases hdecode.symm.trans hvalue
      refine ⟨rfl, fun more => ?_⟩
      simp only [handleDomainPdu, extends_decodeAttachUserRequest _ _ _ hdecode more, nil_append]
  | joined remaining request hdecode =>
    obtain rfl := hpdu.kind_eq hdecode
    cases hpdu with
    | channelJoin value hvalue =>
      cases hdecode.symm.trans hvalue
      refine ⟨rfl, fun more => ?_⟩
      simp only [handleDomainPdu, ChannelJoinRequest.extends_decode _ _ _ hdecode more, nil_append]

theorem decodeRequest_pdu {sendData : SendData}
    (h : decodeRequestFromCursor pdu.bytes = .ok (sendData, rest)) :
    rest = [] ∧ ∀ more, decodeRequestFromCursor (pdu.bytes ++ more) = .ok (sendData, more) := by
  obtain ⟨kind, bytes, hpdu⟩ := pdu
  obtain rfl := hpdu.kind_eq h
  cases hpdu with
  | sendData value hvalue =>
    rw [h] at hvalue
    cases hvalue
    exact ⟨rfl, fun more => extends_decodeFromCursor _ _ _ _ h more⟩

/-- What the loop does with a PDU that it accepts alone: it goes on behind the PDU, or it stops
there and the phase is over. -/
inductive Turn (loop : Nat → Acceptor → List ServerPdu → Bytes → Outcome)
    (running : Acceptor → Bool)
    (a : Acceptor) (bytes : Bytes) : StepResult → Acceptor → Prop
  | goesOn (answer : List ServerPdu) (b : Acceptor) (hrunning : running b = true)
      (hloop : ∀ fuel response rest,
        loop (fuel + 1) a response (bytes ++ rest) = loop fuel b (response ++ answer) rest) :
      Turn loop running a bytes (.just answer) b
  | ends (result : StepResult) (b : Acceptor) (hover : (inDomain b || inReactivation b) = false)
      (hloop : ∀ fuel response rest,
        loop (fuel + 1) a response (bytes ++ rest) =
          (.ok ⟨response ++ result.response, result.event⟩, b)) :
      Turn loop running a bytes result b

/-- A loop that peels PDUs off in its phases. -/
structure Peels (loop : Nat → Acceptor → List ServerPdu → Bytes → Outcome)
    (running : Acceptor → Bool) : Prop where
  step : ∀ a (unit : DataUnit), running a = true →
    a.step unit.input = loop unit.payload.length a [] unit.payload
  done : ∀ fuel a response, loop fuel a response [] = (.ok (.just response), a)
  turn : ∀ a (pdu : ClientPdu) fuel result b, running a = true →
    loop (fuel + 1) a [] pdu.bytes = (.ok result, b) → Turn loop running a pdu.bytes result b

theorem inDomain_of_domainTurn {phase next : Phase} {buf : Bytes} {answer : List ServerPdu}
    (h : DomainTurn a buf rest phase answer next)
    (hnext : next ≠ .waitClientInfo) : inDomain { a with phase := next } = true := by
  cases h with
  | erected => rfl
  | attached => rfl
  | joined remaining =>
    split
    · next hlast => exact absurd (if_pos hlast) hnext
    · rfl

theorem step_eq_stepMcsDomainPdus (h : inDomain a = true) (input : Bytes) :
    a.step input = a.stepMcsDomainPdus input := by
  unfold inDomain at h
  split at h
  · next hphase => simp only [step, hphase]
  · next hphase => simp only [step, hphase]
  · next remaining hphase => simp only [step, hphase]
  · cases h

theorem domainLoop_peels : Peels domainLoop inDomain where
  step a unit hrunning := by
    rw [step_eq_stepMcsDomainPdus hrunning, stepMcsDomainPdus, unit.carries]
  done fuel a response := by cases fuel <;> rfl
  turn a pdu fuel result b hrunning hloop := by
    have hpeek : ∀ more, peekDomainPdu (pdu.bytes ++ more) = peekDomainPdu pdu.bytes := by
      intro more
      obtain ⟨byte, rest, hbytes, -⟩ := pdu.isPdu.choice
      rw [hbytes]
      rfl
    have hfull : ∀ more, ¬ (pdu.bytes ++ more).isEmpty = true := by simp [pdu.bytes_ne_nil]
    have hbytes : ¬ pdu.bytes.isEmpty = true := by simp [pdu.bytes_ne_nil]
    rw [domainLoop, if_neg hbytes] at hloop
    split at hloop
    · cases hloop
    · next hkind =>
      split at hloop
      · cases hloop
      · cases hloop
      · next answer next rest hpdu =>
        obtain ⟨rfl, hmore⟩ := handleDomainPdu_pdu pdu hpdu
        -- the turn with anything behind the PDU
        have hturn : ∀ fuel response rest, domainLoop (fuel + 1) a response (pdu.bytes ++ rest) =
            if next = .waitClientInfo then (.ok (.just (response ++ answer)), { a with phase := next })
            else domainLoop fuel { a with phase := next } (response ++ answer) rest := by
          intro fuel response rest
          rw [domainLoop, if_neg (hfull rest), hpeek, if_neg hkind, hmore rest]
        split at hloop
        · next hlast =>
          cases hloop
          refine .ends _ _ (by rw [hlast]; rfl) fun fuel response rest => ?_
          rw [hturn, if_pos hlast]
          rfl
        · next hlast =>
          have hempty : domainLoop fuel { a with phase := next } ([] ++ answer) [] =
              (.ok (.just answer), { a with phase := next }) := by cases fuel <;> rfl
          rw [hempty] at hloop
          cases hloop
          refine .goesOn answer _ (inDomain_of_domainTurn (domainTurn_of_ok hpdu) hlast)
            fun fuel response rest => ?_
          rw [hturn, if_neg hlast]

theorem reactivationLoop_nil (fuel : Nat) (a : Acceptor) (response : List ServerPdu) :
    reactivationLoop fuel a response [] = (.ok (.just response), a) := by
  cases fuel with
  | zero => rfl
  | succ fuel => rw [reactivationLoop, if_pos (by rfl)]

theorem reactivationLoop_peels : Peels reactivationLoop inReactivation where
  step a unit hrunning := by
    rw [step_eq_stepReactivation (reactivating_of_inReactivation hrunning), stepReactivation,
      unit.carries]
  done := reactivationLoop_nil
  turn a pdu fuel result b hrunning hloop := by
    have hphase := reactivating_of_inReactivation hrunning
    have hfull : ∀ more, ¬ (pdu.bytes ++ more).isEmpty = true := by simp [pdu.bytes_ne_nil]
    have hbytes : ¬ pdu.bytes.isEmpty = true := by simp [pdu.bytes_ne_nil]
    rw [reactivationLoop, hphase.not_finished, Bool.or_false, if_neg hbytes] at hloop
    cases hdecode : decodeRequestFromCursor pdu.bytes with
    | error error =>
      rw [hdecode] at hloop
      cases hloop
    | ok decoded =>
      obtain ⟨sendData, rest⟩ := decoded
      rw [hdecode] at hloop
      obtain ⟨rfl, hmore⟩ := decodeRequest_pdu pdu hdecode
      have hturn := fun fuel response rest => reactivationLoop.eq_2 a response (pdu.bytes ++ rest) fuel
      simp only [hphase.not_finished, Bool.or_false, if_neg (hfull _), hmore] at hturn
      have houtcome := (onSendData_turn a sendData).does hphase
      dsimp only at hloop
      generalize onSendData a sendData = outcome at houtcome hturn hloop
      cases houtcome with
      | failed error c phase settings => cases hloop
      | accepted answer connection c hanswer phase settings =>
        cases hloop
        refine .ends _ _ (by simp [inDomain, inReactivation, phase]) hturn
      | goesOn answer c hanswer phase settings =>
        dsimp only [StepResult.just] at hloop
        rw [reactivationLoop_nil] at hloop
        cases hloop
        exact .goesOn answer _ (inReactivation_of_reactivating phase) hturn

variable {c : Course}
open ClientPdu

theorem Peels.group {loop : Nat → Acceptor → List ServerPdu → Bytes → Outcome}
    {running : Acceptor → Bool}
    (h : Peels loop running)
    (group : List ClientPdu) {alone : List DataUnit}
    (halone : alone.map DataUnit.payload = group.map bytes)
    (hrunning : running a = true)
    (hopen : staysOpen a alone = true)
    (hcourse : course a alone = some c)
    {fuel : Nat}
    (hfuel : (group.flatMap bytes).length ≤ fuel)
    (response : List ServerPdu) :
    ∃ event,
      loop fuel a response (group.flatMap bytes) =
        (.ok ⟨response ++ c.response, event⟩, c.acceptor) ∧
      eventsOf event = c.events := by
  induction group generalizing a c alone fuel response with
  | nil =>
    rw [map_nil, map_eq_nil_iff] at halone
    subst halone
    cases hcourse
    exact ⟨.none, by rw [flatMap_nil, h.done, append_nil]; rfl, rfl⟩
  | cons pdu group ih =>
    cases alone with
    | nil => cases halone
    | cons unit alone =>
      rw [map_cons, map_cons, cons.injEq] at halone
      obtain ⟨hpayload, halone⟩ := halone
      have hlength := length_pos_iff.mpr pdu.bytes_ne_nil
      obtain ⟨size, hsize⟩ := Nat.exists_eq_succ_of_ne_zero (Nat.pos_iff_ne_zero.mp hlength)
      rw [flatMap_cons, length_append] at hfuel
      obtain ⟨fuel, rfl⟩ := Nat.exists_eq_succ_of_ne_zero (show fuel ≠ 0 by omega)
      have hstep := h.step a unit hrunning
      rw [hpayload, hsize] at hstep
      rw [staysOpen, Bool.and_eq_true] at hopen
      rw [course] at hcourse
      cases hresult : loop (size + 1) a [] pdu.bytes with
      | mk outcome b =>
        rw [hresult] at hstep
        rw [hstep] at hcourse hopen
        cases outcome with
        | error error => cases hcourse
        | ok result =>
          obtain ⟨later, hlater, rfl⟩ := map_eq_some_iff.mp hcourse
          have hturn := h.turn a pdu size result b hrunning hresult
          rw [flatMap_cons]
          cases hturn with
          | goesOn answer b hgoes hloop =>
            have hroom : (group.flatMap bytes).length ≤ fuel := by omega
            obtain ⟨event, heq, hevent⟩ := ih halone hgoes hopen.2 hlater hroom (response ++ answer)
            exact ⟨event, by rw [hloop, heq, append_assoc]; rfl, hevent⟩
          | ends result b hover hloop =>
            -- a PDU behind this one would come when the phase is over
            cases alone with
            | cons next alone =>
              rw [staysOpen, hover] at hopen
              cases hopen.2
            | nil =>
              cases hlater
              exact ⟨result.event, by rw [hloop, append_nil], (append_nil _).symm⟩

theorem step_group {group : List ClientPdu} {alone : List DataUnit}
    (hgroup : group ≠ [])
    (halone : alone.map DataUnit.payload = group.map bytes)
    (hopen : staysOpen a alone = true)
    (hcourse : course a alone = some c)
    {unit : DataUnit}
    (hunit : unit.payload = group.flatMap bytes) :
    ∃ event,
      a.step unit.input = (.ok ⟨c.response, event⟩, c.acceptor) ∧ eventsOf event = c.events := by
  have hphase : inDomain a = true ∨ inReactivation a = true := by
    cases alone with
    | nil => exact absurd (map_eq_nil_iff.mp halone.symm) hgroup
    | cons first alone =>
      rw [staysOpen, Bool.and_eq_true, Bool.or_eq_true] at hopen
      exact hopen.1
  rcases hphase with hdomain | hreactivation
  · rw [domainLoop_peels.step a unit hdomain, hunit]
    exact domainLoop_peels.group group halone hdomain hopen hcourse (Nat.le_refl _) []
  · rw [reactivationLoop_peels.step a unit hreactivation, hunit]
    exact reactivationLoop_peels.group group halone hreactivation hopen hcourse (Nat.le_refl _) []

theorem course_append (a : Acceptor) (front back : List DataUnit) :
    course a (front ++ back) =
      (course a front).bind fun c =>
        (course c.acceptor back).map fun later =>
          ⟨c.response ++ later.response, c.events ++ later.events, later.acceptor⟩ := by
  induction front generalizing a with
  | nil =>
    rw [nil_append, course, bind_some]
    cases course a back <;> rfl
  | cons unit front ih =>
    rw [cons_append, course, course]
    cases a.step unit.input with
    | mk outcome b =>
      cases outcome with
      | error error => rfl
      | ok result =>
        dsimp only
        rw [ih b]
        cases course b front with
        | none => rfl
        | some c =>
          dsimp only [bind_some, map_some]
          cases course c.acceptor back with
          | none => rfl
          | some later => simp only [map_some, append_assoc]

theorem staysOpen_append {front back : List DataUnit}
    (h : staysOpen a (front ++ back) = true)
    (hcourse : course a front = some c) :
    staysOpen a front = true ∧ staysOpen c.acceptor back = true := by
  induction front generalizing a c with
  | nil =>
    cases hcourse
    exact ⟨rfl, h⟩
  | cons unit front ih =>
    rw [cons_append, staysOpen, Bool.and_eq_true] at h
    rw [course] at hcourse
    cases hstep : a.step unit.input with
    | mk outcome b =>
      rw [hstep] at h hcourse
      cases outcome with
      | error error => cases hcourse
      | ok result =>
        obtain ⟨later, hlater, rfl⟩ := map_eq_some_iff.mp hcourse
        obtain ⟨hfront, hback⟩ := ih h.2 hlater
        refine ⟨?_, hback⟩
        rw [staysOpen, hstep, h.1, hfront]
        rfl

/-- PDUs that are accepted one to a unit, the last of them perhaps the end of the phase, lead to the
same acceptor with the same replies and the same event however they are packed into units. -/
theorem packing_makes_no_difference {a : Acceptor} (groups : List (List ClientPdu))
    {alone packed : List DataUnit}
    (halone : alone.map DataUnit.payload = groups.flatten.map ClientPdu.bytes)
    (hopen : staysOpen a alone = true)
    (haccepted : (course a alone).isSome = true)
    (hgroups : ∀ group ∈ groups, group ≠ [])
    (hpacked : packed.map DataUnit.payload = groups.map (·.flatMap ClientPdu.bytes)) :
    course a packed = course a alone := by
  induction groups generalizing a alone packed with
  | nil =>
    rw [flatten_nil, map_nil, map_eq_nil_iff] at halone
    rw [map_nil, map_eq_nil_iff] at hpacked
    rw [halone, hpacked]
  | cons group groups ih =>
    cases packed with
    | nil => cases hpacked
    | cons unit packed =>
      rw [map_cons, map_cons, cons.injEq] at hpacked
      obtain ⟨hunit, hpacked⟩ := hpacked
      rw [flatten_cons, map_append, map_eq_append_iff] at halone
      obtain ⟨front, back, rfl, hfront, hback⟩ := halone
      rw [course_append] at haccepted ⊢
      cases hcourse : course a front with
      | none => rw [hcourse] at haccepted; cases haccepted
      | some c =>
        rw [hcourse, bind_some, isSome_map] at haccepted
        obtain ⟨hopenFront, hopenBack⟩ := staysOpen_append hopen hcourse
        obtain ⟨event, hstep, hevent⟩ :=
          step_group (hgroups group mem_cons_self) hfront hopenFront hcourse hunit
        have hrest := ih hback hopenBack haccepted
          (fun other hmem => hgroups other (mem_cons_of_mem _ hmem)) hpacked
        rw [course, hstep, bind_some]
        dsimp only
        rw [hrest, hevent]

/-! The domain PDUs of a client without static channels. -/

def erectDomain : ClientPdu := ⟨_, ErectDomainRequest.encode ⟨0, 0⟩, .erectDomain ⟨0, 0⟩ rfl⟩

def attachUser : ClientPdu := ⟨_, encodeAttachUserRequest, .attachUser rfl⟩

def joinUserChannel : ClientPdu :=
  ⟨_, ChannelJoinRequest.encode ⟨1002, 1002⟩, .channelJoin ⟨1002, 1002⟩ rfl⟩

def joinIoChannel : ClientPdu :=
  ⟨_, ChannelJoinRequest.encode ⟨1002, 1003⟩, .channelJoin ⟨1002, 1003⟩ rfl⟩

def connected : Acceptor := { Acceptor.new 1024 768 false with phase := .waitErectDomainRequest }

/-- Erect Domain and Attach User in one unit, both joins in another. -/
theorem domain_pdus_in_two_units :
    course connected
      [.of (erectDomain.bytes ++ attachUser.bytes),
        .of (joinUserChannel.bytes ++ joinIoChannel.bytes)] =
      course connected
        [.of erectDomain.bytes, .of attachUser.bytes, .of joinUserChannel.bytes,
          .of joinIoChannel.bytes] ∧
    (course connected
       [.of erectDomain.bytes, .of attachUser.bytes, .of joinUserChannel.bytes,
         .of joinIoChannel.bytes]).map (·.acceptor.phase) =
      some .waitClientInfo := by
  refine ⟨?_, by decide +kernel⟩
  apply packing_makes_no_difference [[erectDomain, attachUser], [joinUserChannel, joinIoChannel]]
  · rfl
  · decide +kernel
  · decide +kernel
  · simp
  · rfl

end Kmsrdp.Guarantees.PduPacking
