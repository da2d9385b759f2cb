import Kmsrdp.Source.Server.Handshake

/-!
# What one handshake tells the limiter

`negotiate` (`handshake.rs`, lines 30-212) calls `record_failure` and `record_success` of the auth
limiter at three places. A client may send as many Client Info PDUs as it likes; only the first is
answered with a verdict.
-/
namespace Kmsrdp.Guarantees.HandshakeVerdicts
open Library.ByteString Source.Connector Source.Server.Handshake

/-- What the limiter is told, and that a CredSSP exchange finished. -/
inductive Verdict where
  | exchanged
  | failure
  | success
  deriving DecidableEq

def verdictOf : Event → Option Verdict
  | .credsspSucceeded _ => some .exchanged
  | .recordFailure => some .failure
  | .authenticated => some .success
  | .sent _ | .clientInfo _ => none

def verdicts (trace : Trace) : List Verdict := trace.filterMap verdictOf

@[simp] theorem verdicts_append (front back : Trace) :
    verdicts (front ++ back) = verdicts front ++ verdicts back :=
  List.filterMap_append

@[simp] theorem verdicts_nil : verdicts [] = [] := rfl

theorem verdicts_cons (event : Event) (rest : Trace) :
    verdicts (event :: rest) = (verdictOf event).toList ++ verdicts rest := by
  unfold verdicts
  cases h : verdictOf event <;> simp [h]

@[simp] theorem verdicts_sentIfAny (response : List ServerPdu) :
    verdicts (sentIfAny response) = [] := by
  unfold sentIfAny
  split <;> rfl

variable {params : HandshakeParams} {nlaUser : Option String}

theorem verdicts_loop_of_reactivating (fuel : Nat) {a : Acceptor}
    (ha : a.Reactivating)
    (stream : Bytes) (trace : Trace) :
    verdicts (handshakeLoop params nlaUser fuel a stream trace).2 = verdicts trace := by
  induction fuel generalizing a stream trace with
  | zero => rfl
  | succ fuel ih =>
    unfold handshakeLoop
    split
    · rfl
    · next frame rest _ =>
      have houtcome := a.step_outcome_of_reactivating ha frame
      generalize a.step frame = outcome at houtcome
      cases houtcome with
      | goesOn response b answer phase settings =>
        refine (ih phase rest _).trans ?_
        simp [StepResult.just]
      | accepted response connection b answer phase settings => simp
      | failed error b phase settings => rfl

theorem verdicts_loop (fuel : Nat) (a : Acceptor) (stream : Bytes) (trace : Trace) :
    ∃ verdict,
      verdict ∈ [[], [Verdict.failure], [Verdict.success]] ∧
      verdicts (handshakeLoop params nlaUser fuel a stream trace).2 =
        verdicts trace ++ verdict := by
  induction fuel generalizing a stream trace with
  | zero => exact ⟨[], by simp, by simp [handshakeLoop]⟩
  | succ fuel ih =>
    unfold handshakeLoop
    split
    · exact ⟨[], by simp, by simp⟩
    · next frame rest _ =>
      have houtcome := a.step_outcome frame
      generalize a.step frame = outcome at houtcome
      cases houtcome with
      | failed error b admitted waiting => exact ⟨[], by simp, by simp⟩
      | answered response event b quiet unasked accepted admitted waiting =>
        have hgoesOn := ih b rest (trace ++ sentIfAny response)
        rw [verdicts_append, verdicts_sentIfAny, List.append_nil] at hgoesOn
        cases event with
        | none => exact hgoesOn
        | tlsUpgrade => exact hgoesOn
        | rejected => exact ⟨[], by simp, by simp⟩
        | accepted connection => exact ⟨[], by simp, by simp⟩
        | clientInfoReceived credentials => exact absurd rfl (unasked credentials)
      | clientInfo credentials b phase =>
        dsimp only
        split
        · rw [Acceptor.approveClientInfo, if_pos phase]
          refine ⟨[.success], by simp, ?_⟩
          refine (verdicts_loop_of_reactivating fuel (.inl rfl) rest _).trans ?_
          rw [verdicts_append, verdicts_append, verdicts_sentIfAny, verdicts_append, verdicts_append]
          simp [verdicts_cons, verdictOf]
        · refine ⟨[.failure], by simp, ?_⟩
          rw [verdicts_append, verdicts_append]
          simp [verdicts_cons, verdictOf]

/-- At most one verdict, behind at most one exchange. -/
def OneVerdict (trace : Trace) : Prop :=
  verdicts trace ∈
    [[], [.failure], [.success], [.exchanged], [.exchanged, .failure], [.exchanged, .success]]

theorem oneVerdict_loop (fuel : Nat) (a : Acceptor) (stream : Bytes) {trace : Trace}
    (htrace : verdicts trace = [] ∨ verdicts trace = [.exchanged]) :
    OneVerdict (handshakeLoop params nlaUser fuel a stream trace).2 := by
  obtain ⟨verdict, hverdict, heq⟩ := @verdicts_loop params nlaUser fuel a stream trace
  simp only [List.mem_cons, List.not_mem_nil, or_false] at hverdict
  rw [OneVerdict, heq]
  rcases htrace with htrace | htrace <;> rw [htrace] <;> rcases hverdict with rfl | rfl | rfl <;> decide

theorem oneVerdict_tls (client : Client) (a : Acceptor) (stream : Bytes) {trace : Trace}
    (htrace : verdicts trace = []) : OneVerdict (negotiateTls params client a stream trace).2 := by
  have hnone : OneVerdict trace := by
    rw [OneVerdict, htrace]
    decide
  unfold negotiateTls
  split
  swap
  · exact oneVerdict_loop _ _ _ (.inl htrace)
  split
  · exact hnone
  split
  · exact hnone
  split
  · refine oneVerdict_loop _ _ _ (.inr ?_)
    rw [verdicts_append, htrace]
    rfl
  · rw [OneVerdict, verdicts_append, htrace]
    decide

/-- Whatever the client sends, the limiter is told of one failure or one success of a handshake, or
of nothing. -/
theorem negotiate_verdicts (params : HandshakeParams) (client : Client) :
    OneVerdict (negotiate params client).2 := by
  have hnil : OneVerdict [] := List.mem_cons_self
  have hsent : ∀ response, OneVerdict [.sent response] := fun _ => List.mem_cons_self
  unfold negotiate
  dsimp only
  split
  · exact hnil
  split
  · exact hnil
  split
  · split
    · exact hsent _
    · exact oneVerdict_tls client _ _ rfl
  · exact hsent _
  · exact hsent _

end Kmsrdp.Guarantees.HandshakeVerdicts
