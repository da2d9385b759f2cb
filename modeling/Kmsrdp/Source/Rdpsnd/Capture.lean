import Mathlib.Algebra.Ring.Nat

/-!
# The send budget of the audio capture

Model of `pcm_send_budget` in `kmsrdp/src/audio.rs` and of its use in the loop of
`capture_one_server`, in milliseconds. A chunk that the budget does not allow is dropped and leaves
the budget as it was.
-/
namespace Kmsrdp.Source.Rdpsnd.Capture

def chunkMs : Nat := 20
def maxAheadMs : Nat := 40
def snapBehindMs : Nat := 80

def saturatingAdd (a b : Nat) : Nat := min (a + b) (2 ^ 64 - 1)

def snapped (sentMs elapsedMs : Nat) : Nat :=
  if elapsedMs > saturatingAdd sentMs snapBehindMs then elapsedMs else sentMs

def pcmSendBudget (sentMs elapsedMs : Nat) : Option Nat :=
  let sentMs := snapped sentMs elapsedMs
  if saturatingAdd sentMs chunkMs ≤ saturatingAdd elapsedMs maxAheadMs
    then some (saturatingAdd sentMs chunkMs)
  else none

/-- The budget after chunks captured at these times. -/
def sentAfter (sentMs : Nat) (times : List Nat) : Nat :=
  times.foldl (fun sentMs elapsedMs => (pcmSendBudget sentMs elapsedMs).getD sentMs) sentMs

/-- What these chunks add to the audio published. -/
def publishedMs (sentMs : Nat) : List Nat → Nat
  | [] => 0
  | elapsedMs :: times =>
    match pcmSendBudget sentMs elapsedMs with
    | some next => chunkMs + publishedMs next times
    | none => publishedMs sentMs times

end Kmsrdp.Source.Rdpsnd.Capture
