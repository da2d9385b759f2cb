import Kmsrdp.Source.Rdpsnd.Capture

/-!
# The pace of the captured audio

The budget is raised to the present after a stall and may run ahead of it, so what is published in
an interval is bounded by the budget at its start, which the first chunk brings within 80 ms of the
time.
-/
namespace Kmsrdp.Guarantees.CapturePace
open Source.Rdpsnd.Capture List

/-- Chunks at times a clock can give, in milliseconds since the capture began: they do not decrease
and are far from the end of the 64-bit range, some 584 million years. -/
structure Captured (times : List Nat) : Prop where
  ordered : times.Pairwise (· ≤ ·)
  small : ∀ time ∈ times, time + maxAheadMs + 1 < 2 ^ 64

/-- At every chunk no more is published than the time gone by and 40 ms, and by the chunks of any
interval no more than its length and 120 ms. -/
def Paced (times : List Nat) : Prop :=
  (∀ front last, front ++ [last] <+: times → publishedMs 0 (front ++ [last]) ≤ last + 40) ∧
    ∀ before during, before ++ during <+: times →
      ∀ start stop, (∀ time ∈ during, start ≤ time ∧ time ≤ stop) →
      publishedMs (sentAfter 0 before) during ≤ stop - start + 120

variable {sentMs elapsedMs next start stop : Nat} {times : List Nat}

theorem le_snapped (sentMs : Nat) (hsmall : elapsedMs + maxAheadMs + 1 < 2 ^ 64) :
    sentMs ≤ snapped sentMs elapsedMs ∧ elapsedMs ≤ snapped sentMs elapsedMs + 80 := by
  unfold snapped saturatingAdd snapBehindMs
  split <;> omega

theorem pcmSendBudget_eq_some
    (hsmall : elapsedMs + maxAheadMs + 1 < 2 ^ 64)
    (h : pcmSendBudget sentMs elapsedMs = some next) :
    sentMs + 20 ≤ next ∧ elapsedMs ≤ next + 60 ∧ next ≤ elapsedMs + 40 := by
  have hsnapped := le_snapped sentMs hsmall
  obtain ⟨hroom, hnext⟩ := Option.ite_none_right_eq_some.mp h
  cases hnext
  simp only [saturatingAdd, chunkMs, maxAheadMs] at hroom hsmall ⊢
  omega

/-- Nothing is published, or no more than from the budget, raised to 80 ms before the start, to 40
ms behind the end. -/
theorem publishedMs_le (sentMs : Nat)
    (hsmall : ∀ time ∈ times, time + maxAheadMs + 1 < 2 ^ 64)
    (hwithin : ∀ time ∈ times, start ≤ time ∧ time ≤ stop) :
    publishedMs sentMs times = 0 ∨
    publishedMs sentMs times + max sentMs (start - 80) ≤ stop + 40 := by
  induction times generalizing sentMs with
  | nil => exact .inl rfl
  | cons elapsedMs times ih =>
    obtain ⟨hhead, htail⟩ := forall_mem_cons.mp hsmall
    obtain ⟨hnow, hlater⟩ := forall_mem_cons.mp hwithin
    unfold publishedMs
    split
    · next next hnext =>
      have hbudget := pcmSendBudget_eq_some hhead hnext
      have hrest := ih next htail hlater
      rw [chunkMs]
      omega
    · exact ih sentMs htail hlater

/-- However the capture stalls, audio is published at the pace of the clock: 40 ms ahead at most,
and 120 ms more than its length in any interval. -/
theorem paced_of_captured (h : Captured times) : Paced times := by
  refine ⟨fun front last hfront => ?_, fun before during hduring start stop hwithin => ?_⟩
  · have hordered := h.ordered.sublist hfront.sublist
    have hlast : ∀ time ∈ front ++ [last], 0 ≤ time ∧ time ≤ last := by
      intro time htime
      refine ⟨Nat.zero_le time, ?_⟩
      rcases mem_append.mp htime with hbefore | hsame
      · exact (pairwise_append.mp hordered).2.2 time hbefore last (mem_singleton.mpr rfl)
      · exact Nat.le_of_eq (mem_singleton.mp hsame)
    have hbound := publishedMs_le 0 (fun time htime => h.small time (hfront.subset htime)) hlast
    omega
  · have hsmall : ∀ time ∈ during, time + maxAheadMs + 1 < 2 ^ 64 := fun time htime =>
      h.small time (hduring.subset (mem_append_right before htime))
    have hbound := publishedMs_le (sentAfter 0 before) hsmall hwithin
    omega

theorem paced_after_stall :
    Captured [0, 20, 5000, 5001, 5002] ∧ Paced [0, 20, 5000, 5001, 5002] := by
  have hcaptured : Captured [0, 20, 5000, 5001, 5002] := ⟨by decide, by decide⟩
  exact ⟨hcaptured, paced_of_captured hcaptured⟩

end Kmsrdp.Guarantees.CapturePace
