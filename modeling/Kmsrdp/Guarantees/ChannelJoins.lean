import Mathlib.Data.List.Perm.Basic
import Kmsrdp.Guarantees.PduPacking
import Kmsrdp.Guarantees.StaticChannelIds

/-!
# Channel joins

The acceptor waits for as many joins as it has channels and confirms each, whatever channel it
names.
-/
namespace Kmsrdp.Guarantees.ChannelJoins
open Library.ByteString Library.Execution Source.Connector Source.Pdu Guarantees.PduPacking List
  Acceptor
open Source.Connector.Acceptor (domainLoop peekDomainPdu domainTurn_of_ok)
open Guarantees.StaticChannelIds (channelIds mem_channelIds nodup_channelIds)

def allocated (a : Acceptor) : List Nat :=
  userChannelId :: ioChannelId :: channelIds a.staticChannelNames.length ++ a.messageChannelId.toList

def joinRequests : Nat → Acceptor → Bytes → List Nat
  | 0, _, _ => []
  | fuel + 1, a, buf =>
    if buf.isEmpty || peekDomainPdu buf = some .disconnectProviderUltimatum then []
    else
      match a.handleDomainPdu a.phase buf with
      | .error _ => []
      | .ok ((_, next), rest) =>
        let later :=
          if next = .waitClientInfo then [] else joinRequests fuel { a with phase := next } rest
        match a.phase, ChannelJoinRequest.decode buf with
        | .waitChannelJoinRequest _, .ok (request, _) => request.channelId :: later
        | _, _ => later

def joined : ServerPdu → Option Nat
  | .channelJoinConfirm 0 _ _ channelId => some channelId
  | _ => none

structure Joins where
  acceptor : Acceptor
  (requested confirmed : List Nat)

def Joins.step (s : Joins) (input : Bytes) : Option Joins :=
  if inDomain s.acceptor then
    let requests := match unwrapData input with
      | .error _ => []
      | .ok payload => joinRequests payload.length s.acceptor payload
    let confirms := match (s.acceptor.step input).1 with
      | .error _ => []
      | .ok result => result.response.filterMap joined
    some ⟨(s.acceptor.step input).2, s.requested ++ requests, s.confirmed ++ confirms⟩
  else none

/-- The allocated channels are asked for once each, and no other channel is. -/
def Orderly (s : Joins) : Prop := s.requested.Nodup ∧ ∀ id ∈ s.requested, id ∈ allocated s.acceptor

/-- Client Info is awaited behind a request for every allocated channel only, and no other channel
is confirmed. -/
def Sound (s : Joins) : Prop :=
  (s.acceptor.phase = .waitClientInfo → ∀ id ∈ allocated s.acceptor, id ∈ s.requested) ∧
    ∀ id ∈ s.confirmed, id ∈ allocated s.acceptor

/-- With `count` channels and these requests taken, the phase is the one of the countdown. -/
def Counted (count : Nat) (requested : List Nat) : Phase → Prop
  | .waitErectDomainRequest | .waitAttachUserRequest => requested = []
  | .waitChannelJoinRequest remaining => 0 < remaining ∧ requested.length + remaining = count
  | .waitClientInfo => requested.length = count
  | _ => True

theorem counted_rejected {count : Nat} {requested : List Nat} : Counted count requested .rejected :=
  trivial

theorem length_allocated (a : Acceptor) :
    (allocated a).length =
      2 + a.staticChannelNames.length + if a.messageChannelId.isSome then 1 else 0 := by
  cases hmessage : a.messageChannelId <;> simp [allocated, channelIds, hmessage] <;> omega

theorem domainLoop_counted (fuel : Nat) (a : Acceptor) (response : List ServerPdu) (buf : Bytes)
    {count : Nat}
    (hcount : (allocated a).length = count)
    {requested : List Nat}
    (h : Counted count requested a.phase) :
    Counted count (requested ++ joinRequests fuel a buf) (domainLoop fuel a response buf).2.phase ∧
    ∀ result, (domainLoop fuel a response buf).1 = .ok result →
      result.response.filterMap joined = response.filterMap joined ++ joinRequests fuel a buf := by
  induction fuel generalizing a response buf requested with
  | zero => simpa [joinRequests, domainLoop, StepResult.just] using h
  | succ fuel ih =>
    unfold domainLoop joinRequests
    by_cases hempty : buf.isEmpty
    · simpa [hempty, StepResult.just] using h
    by_cases hover : peekDomainPdu buf = some .disconnectProviderUltimatum
    · simp [hempty, hover, counted_rejected]
    simp only [hempty, hover, Bool.false_eq_true, if_false, decide_false, Bool.or_false]
    cases hpdu : a.handleDomainPdu a.phase buf with
    | error error => cases error <;> simp [h, counted_rejected]
    | ok turn =>
      obtain ⟨⟨answer, next⟩, rest⟩ := turn
      have hturn := domainTurn_of_ok hpdu
      have hlater := fun requested =>
        @ih { a with phase := next } (response ++ answer) rest hcount requested
      generalize hphase : a.phase = phase at hturn h
      cases hturn with
      | erected request hdecode => simpa [hphase] using hlater requested h
      | attached hdecode =>
        obtain rfl : requested = [] := h
        have hstart : Counted count [] (.waitChannelJoinRequest
            (2 + a.staticChannelNames.length + if a.messageChannelId.isSome then 1 else 0)) := by
          simp only [Counted, ← hcount, length_allocated, length_nil]
          omega
        simpa [hphase, filterMap_cons, joined] using hlater [] hstart
      | joined remaining request hdecode =>
        obtain ⟨hpos, hdown⟩ := h
        by_cases hlast : remaining - 1 = 0
        · simp [hdecode, hlast, joined, StepResult.just, Counted]
          omega
        · have hgoes := hlater (requested ++ [request.channelId])
          simp only [hlast, if_false] at hgoes
          have hnext : Counted count (requested ++ [request.channelId])
              (.waitChannelJoinRequest (remaining - 1)) := by
            simp only [Counted, length_append, length_singleton]
            omega
          simpa [hphase, hdecode, hlast, joined] using hgoes hnext

structure Inv (ids : List Nat) (s : Joins) : Prop where
  past : Acceptor.PastConnect s.acceptor.phase
  allocated_eq : allocated s.acceptor = ids
  counted : Counted ids.length s.requested s.acceptor.phase
  confirmed_subset : ∀ id ∈ s.confirmed, id ∈ s.requested

theorem kept_allocated (ids : List Nat) :
    Acceptor.Kept fun a => Acceptor.PastConnect a.phase ∧ allocated a = ids :=
  ⟨fun _ _ hphase h => ⟨hphase, h.2⟩, fun _ _ _ h => h, fun _ _ _ h => h⟩

theorem inv_step {ids : List Nat} {s t : Joins} {input : Bytes}
    (h : Inv ids s)
    (hstep : s.step input = some t) : Inv ids t := by
  have hkept := (kept_allocated ids).step h.past ⟨h.past, h.allocated_eq⟩ input
  by_cases hdomain : inDomain s.acceptor = true
  · simp only [Joins.step, hdomain, if_true, Option.some.injEq] at hstep
    have hunit := step_eq_stepMcsDomainPdus hdomain input
    cases hpayload : unwrapData input with
    | error error =>
      rw [stepMcsDomainPdus, hpayload] at hunit
      simp only [hunit, hpayload, failDecode, append_nil] at hstep
      exact hstep ▸ h
    | ok payload =>
      rw [stepMcsDomainPdus, hpayload] at hunit
      dsimp only at hunit
      have hloop := domainLoop_counted payload.length s.acceptor [] payload
        (congrArg length h.allocated_eq) h.counted
      rw [← hunit] at hloop
      subst hstep
      apply Inv.mk hkept.1 hkept.2
      · simpa [hpayload] using hloop.1
      · intro id hid
        simp only [hpayload, mem_append] at hid ⊢
        rcases hid with hold | hnew
        · exact .inl (h.confirmed_subset id hold)
        · cases hresult : (s.acceptor.step input).1 with
          | error error => simp [hresult] at hnew
          | ok result =>
            have hconfirms := hloop.2 result hresult
            simp only [hresult, hconfirms] at hnew
            exact .inr hnew
  · simp [Joins.step, hdomain] at hstep

theorem nodup_allocated (a : Acceptor)
    (hmessage : ∀ id ∈ a.messageChannelId, id = ioChannelId + 1 + a.staticChannelNames.length) :
    (allocated a).Nodup := by
  have hio : ioChannelId = 1003 := rfl
  have huser : userChannelId = 1002 := rfl
  cases hid : a.messageChannelId with
  | none => simp [allocated, hid, nodup_channelIds, mem_channelIds, hio, huser]
  | some id =>
    obtain rfl := hmessage id hid
    simp [allocated, hid, nodup_channelIds, mem_channelIds, nodup_append, hio, huser]
    exact ⟨by omega, by omega, fun id _ _ => by omega⟩

/-- Behind an accepted Connect-Initial the countdown does what it is for as long as the client asks
once for each channel, and when it is over the client has done so or channels have been left out. -/
theorem joins_sound_iff (a : Acceptor)
    (hphase : a.phase = .waitConnectInitial)
    (input : Bytes) (client : ClientGccBlocks)
    (hclient : Acceptor.decodeClientBlocks input = .ok client)
    (inputs : List Bytes) (s : Joins)
    (hrun : exec Joins.step ⟨(a.step input).2, [], []⟩ inputs = some s) :
    (Orderly s → Sound s) ∧ (s.acceptor.phase = .waitClientInfo → Sound s → Orderly s) := by
  obtain ⟨hnodup, hstart⟩ : (allocated (a.step input).2).Nodup ∧
      Inv (allocated (a.step input).2) ⟨(a.step input).2, [], []⟩ := by
    rw [step, hphase]
    rw [onConnectInitial, hclient]
    constructor
    · apply nodup_allocated
      intro id hid
      cases hmessage : client.messageChannel <;> simp_all
    · exact ⟨⟨by simp, by simp⟩, rfl, rfl, by simp⟩
  have hinv := exec_invariant (Inv _) (fun _ _ _ => inv_step) inputs hstart hrun
  rw [← hinv.allocated_eq] at hnodup
  constructor
  · rintro ⟨hrequested, hsubset⟩
    constructor
    · intro hlast id hid
      have hcount := hinv.counted
      rw [hlast, ← hinv.allocated_eq] at hcount
      exact (subperm_of_subset hrequested hsubset).perm_of_length_le
        (Nat.le_of_eq hcount.symm) |>.mem_iff.mpr hid
    · exact fun id hid => hsubset id (hinv.confirmed_subset id hid)
  · intro hlast hsound
    have hcount := hinv.counted
    rw [hlast, ← hinv.allocated_eq] at hcount
    have hperm := (subperm_of_subset hnodup (hsound.1 hlast)).perm_of_length_le (Nat.le_of_eq hcount)
    exact ⟨hperm.nodup_iff.mp hnodup, fun id hid => hperm.mem_iff.mpr hid⟩

/-! A client with one static channel and a message channel, which joins the given channels. -/

def waiting : Acceptor := { Acceptor.new 1024 768 false with phase := .waitConnectInitial }

def runJoins (ids : List Nat) : Option Joins :=
  exec Joins.step ⟨(waiting.step StaticChannelIds.cliprdrConnectInitial).2, [], []⟩
    [wrapData (erectDomain.bytes ++ attachUser.bytes),
      wrapData (ids.flatMap fun id => ChannelJoinRequest.encode ⟨userChannelId, id⟩)]

theorem joins_sound_cliprdr :
    ∃ s,
      runJoins [1002, 1003, 1004, 1005] = some s ∧
      s.acceptor.phase = .waitClientInfo ∧
      Sound s := by
  have hrun : (runJoins [1002, 1003, 1004, 1005]).map
      (fun s => (s.acceptor.phase, s.requested, allocated s.acceptor)) =
      some (.waitClientInfo, [1002, 1003, 1004, 1005], [1002, 1003, 1004, 1005]) := by decide +kernel
  obtain ⟨s, hs, hdata⟩ := Option.map_eq_some_iff.mp hrun
  simp only [Prod.mk.injEq] at hdata
  have hclient : decodeClientBlocks StaticChannelIds.cliprdrConnectInitial =
      .ok ⟨"", some [StaticChannelIds.cliprdrName], true⟩ := by decide +kernel
  have hsound := (joins_sound_iff waiting rfl _ _ hclient _ s hs).1
  exact ⟨s, hs, hdata.1, hsound (by simp [Orderly, hdata])⟩

/-- The I/O channel three times and a channel that was never allocated lead to Client Info. -/
theorem joins_of_foreign_channels :
    ∃ s,
      runJoins [1003, 1003, 1003, 9999] = some s ∧
      s.acceptor.phase = .waitClientInfo ∧
      (∃ id ∈ allocated s.acceptor, id ∉ s.requested) ∧
      ∃ id ∈ s.confirmed, id ∉ allocated s.acceptor := by
  have hrun : (runJoins [1003, 1003, 1003, 9999]).map
      (fun s => (s.acceptor.phase, s.requested, s.confirmed, allocated s.acceptor)) =
      some (.waitClientInfo, [1003, 1003, 1003, 9999], [1003, 1003, 1003, 9999],
        [1002, 1003, 1004, 1005]) := by
    decide +kernel
  obtain ⟨s, hs, hdata⟩ := Option.map_eq_some_iff.mp hrun
  simp only [Prod.mk.injEq] at hdata
  exact ⟨s, hs, hdata.1, ⟨1002, by simp [hdata], by simp [hdata]⟩, 9999, by simp [hdata],
    by simp [hdata]⟩

end Kmsrdp.Guarantees.ChannelJoins
