import Mathlib.Tactic.Common
import Mathlib.Data.List.Basic

/-!
# The capture hub

Model of `DisplayHub` and `DisplayUpdates` in `kmsrdp/src/display_hub.rs`, as far as sizes go.
`sent` is everything the hub ever sent on its broadcast channel, which keeps the last
`BROADCAST_CAPACITY` updates; a receiver further behind is moved forward and told that it lagged.
-/
namespace Kmsrdp.Source.Hub

structure DesktopSize where
  width : Nat
  height : Nat
  deriving DecidableEq

inductive DisplayUpdate where
  | bitmap
  | resized (size : DesktopSize)

def broadcastCapacity : Nat := 256

structure DisplayHub where
  size : DesktopSize
  publishing : Option DesktopSize
  latestFull : Bool
  sent : List DisplayUpdate

namespace DisplayHub

def start (size : DesktopSize) : DisplayHub := ⟨size, none, false, []⟩

/-- A turn of the capture loop. `dirty` is the number of bitmaps it publishes, `none` when the frame
is unchanged or has no pixels. The source merges the dirty rectangles of a turn into at most one
bitmap (lines 302-327); any number is allowed here, since only the order of sizes and bitmaps
matters. -/
def capture (hub : DisplayHub) (size : DesktopSize) (dirty : Option Nat) : Option DisplayHub :=
  match hub.publishing with
  | some _ => none
  | none =>
    if size ≠ hub.size then some { hub with size, publishing := some size }
    else
      match dirty with
      | none => some hub
      | some rects =>
        some { hub with latestFull := true, sent := hub.sent ++ List.replicate rects .bitmap }

def publish (hub : DisplayHub) : Option DisplayHub :=
  hub.publishing.map fun size =>
    { hub with publishing := none, latestFull := false, sent := hub.sent ++ [.resized size] }

end DisplayHub

structure DisplayUpdates where
  initial : Bool
  position : Nat

def DisplayHub.subscribe (hub : DisplayHub) : DisplayUpdates := ⟨hub.latestFull, hub.sent.length⟩

namespace DisplayUpdates

def Lagged (hub : DisplayHub) (updates : DisplayUpdates) : Prop :=
  broadcastCapacity < hub.sent.length - updates.position

instance (hub : DisplayHub) (updates : DisplayUpdates) : Decidable (Lagged hub updates) :=
  inferInstanceAs (Decidable (_ < _))

/-- One turn of `next_update`; `none` while it waits. A lag without a frame to make up for it
gives no update, and the source goes round its loop once more. -/
def nextUpdate (hub : DisplayHub) (updates : DisplayUpdates) :
    Option (Option DisplayUpdate × DisplayUpdates) :=
  if updates.initial then some (some .bitmap, { updates with initial := false })
  else if Lagged hub updates then
    some (if hub.latestFull then some .bitmap else none,
      { updates with position := hub.sent.length - broadcastCapacity })
  else
    hub.sent[updates.position]?.map fun update =>
      (some update, { updates with position := updates.position + 1 })

end DisplayUpdates

def lastResized : List DisplayUpdate → Option DesktopSize
  | [] => none
  | .bitmap :: rest => lastResized rest
  | .resized size :: rest => (lastResized rest).or (some size)

theorem lastResized_append (front back : List DisplayUpdate) :
    lastResized (front ++ back) = (lastResized back).or (lastResized front) := by
  induction front with
  | nil => simp [lastResized]
  | cons update rest ih =>
    cases update with
    | bitmap => exact ih
    | resized size =>
      simp only [List.cons_append, lastResized, ih]
      cases lastResized back <;> rfl

theorem lastResized_replicate_bitmap (n : Nat) : lastResized (List.replicate n .bitmap) = none := by
  induction n with
  | zero => rfl
  | succ n ih => exact ih

end Kmsrdp.Source.Hub
