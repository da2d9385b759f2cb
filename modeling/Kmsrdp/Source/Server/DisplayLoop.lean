import Kmsrdp.Library.Execution
import Kmsrdp.Source.Server.BitmapSync

/-!
# The display side of the session loop

The branches of `run_steady_state` (`session_loop.rs`) and `slow_path.rs` that move pixels, for a
session without GFX and without a resize. A turn of the loop is one step; the kernel's send backlog
is an input of each turn that may pump a bitmap.

`queued` records every bitmap handed to the transport. The ghost `notified` says that a dirty
notification was received after the newest capture.

The loop's own sends ignore their error (`slow_path.rs`, lines 61-68, 77-84 and 95-102), and
`send_frames` gives up once a frame has waited 15 s for room in the bulk queue. How far such a send
got is an input.
-/
namespace Kmsrdp.Source.Server.DisplayLoop
open Source.Server.Display Source.Server.BitmapSync BitmapSyncState

def FullFrame (width height : NonZeroU16) : Type := { b : BitmapUpdate // IsFull width height b }

structure InclusiveRect where
  (left top right bottom : U16)

/-- How far a direct send gets. One that gives up leaves the updates that were queued by then,
and each of them carries tiles of the bitmap. -/
inductive Sent where
  | whole
  | upTo (tiles : List InclusiveRect)

/-- The display part of `session_loop`, and the bitmaps queued so far. -/
structure DisplaySide where
  sync : BitmapSyncState
  deferred : Option BitmapUpdate
  (updatesAllowed gateOpen bulkInFlight : Bool)
  latestFull : Option BitmapUpdate
  notified : Bool
  queued : List BitmapUpdate

inductive Action (width height : NonZeroU16) where
  /-- The capture hub publishes a new frame. -/
  | capture (frame : FullFrame width height)
  /-- `updates.next_update()` yields a dirty rectangle. -/
  | notification (backlogHigh : Bool)
  /-- The spawned bulk send has finished. -/
  | bulkSent (backlogHigh : Bool)
  /-- The start-up delay has elapsed. -/
  | gateElapsed (backlogHigh : Bool)
  | catchupTick (backlogHigh : Bool)
  | suppressOutput (allow : Bool) (sent : Sent)
  /-- One direct send for each rectangle; `sent` is by their order. -/
  | refreshRect (rects : List InclusiveRect) (sent : Nat → Sent)

def start (gateOpen : Bool) : DisplaySide where
  sync := .new
  deferred := none
  updatesAllowed := true
  gateOpen := gateOpen
  bulkInFlight := false
  latestFull := none
  notified := false
  queued := []

def inclusiveSpan (first last : U16) : Nat := min (last.val - first.val + 1) 65535

def subRect (b : BitmapUpdate) (rect : InclusiveRect) : Option BitmapUpdate :=
  match NonZeroU16.ofCast (inclusiveSpan rect.left rect.right),
    NonZeroU16.ofCast (inclusiveSpan rect.top rect.bottom) with
  | some width, some height => b.sub rect.left rect.top width height
  | _, _ => none

def refreshBitmaps (full : BitmapUpdate) (rects : List InclusiveRect) : List BitmapUpdate :=
  if rects.isEmpty then [full] else rects.filterMap (subRect full)

def Sent.parts (b : BitmapUpdate) : Sent → List BitmapUpdate
  | .whole => [b]
  | .upTo tiles => tiles.filterMap (subRect b)

namespace DisplaySide

/-- What a turn hands over without a look at the baseline. -/
def directSends (s : DisplaySide) {width height : NonZeroU16} :
    Action width height → List BitmapUpdate
  | .suppressOutput allow sent =>
    match s.latestFull with
    | some full => if allow && !s.updatesAllowed then sent.parts full else []
    | none => []
  | .refreshRect rects sent =>
    match s.latestFull with
    | some full => (refreshBitmaps full rects).zipIdx.flatMap fun (b, i) => (sent i).parts b
    | none => []
  | _ => []

/-- The part of a turn behind the `select!`: defer, or encode, queue and advance the
baseline. Without GFX an encoded bitmap is never empty, since the frame markers around it
are always there; so it is always queued. -/
def pump (width height : NonZeroU16) (s : DisplaySide) (backlogHigh : Bool) :
    Option BitmapUpdate → DisplaySide
  | none => s
  | some bitmap =>
    if s.bulkInFlight || backlogHigh then { s with sync := s.sync.defer, deferred := none }
    else
      let (advanceSynced, sync) := s.sync.takeResyncTarget
      let advanceFull := if coversDesktop bitmap width height then some bitmap else none
      { s with
        bulkInFlight := true
        queued := s.queued ++ [bitmap]
        sync := sync.confirmSend true advanceSynced advanceFull
        deferred := none }

def catchup (width height : NonZeroU16) (s : DisplaySide) (backlogHigh : Bool) : DisplaySide :=
  let (bitmap, deferred, sync) := s.sync.takeCatchup s.deferred s.latestFull
  pump width height { s with sync := sync, deferred := deferred } backlogHigh bitmap

def markDirty (s : DisplaySide) : DisplaySide :=
  { s with sync := s.sync.markDirty, deferred := none }

end DisplaySide

def step (width height : NonZeroU16) (s : DisplaySide) :
    Action width height → Option DisplaySide
  | .capture frame => some { s with latestFull := some frame.val, notified := false }
  | .notification backlogHigh =>
    let s := { s with notified := true }
    if s.gateOpen = false then some s.markDirty
    else if s.updatesAllowed = false then some s
    else some (s.markDirty.catchup width height backlogHigh)
  | .bulkSent backlogHigh =>
    if s.bulkInFlight = false then none
    else
      let s := { s with bulkInFlight := false }
      if s.updatesAllowed && s.gateOpen then some (s.catchup width height backlogHigh) else some s
  | .gateElapsed backlogHigh =>
    if s.gateOpen then none
    else
      let s := { s with gateOpen := true }
      if s.updatesAllowed then some (s.catchup width height backlogHigh) else some s
  | .catchupTick backlogHigh =>
    if s.bulkInFlight = false ∧ s.updatesAllowed = true ∧ s.gateOpen = true ∧
        (s.sync.hasPending = true ∨ s.deferred.isSome = true) then
      some (s.catchup width height backlogHigh)
    else none
  | action@(.suppressOutput allow _) =>
    some { s with updatesAllowed := allow, queued := s.queued ++ s.directSends action }
  | action@(.refreshRect _ _) => some { s with queued := s.queued ++ s.directSends action }

inductive CatchupOutcome (s : DisplaySide) : DisplaySide → Prop
  | idle (pending : s.sync.pendingResync = false) : CatchupOutcome s s
  | noFrame (latest : s.latestFull = none) :
      CatchupOutcome s { s with sync := { s.sync with pendingResync := false } }
  | unchanged (full : BitmapUpdate) (latest : s.latestFull = some full)
      (resync : resyncBitmap s.sync.lastSyncedFull full = none) :
      CatchupOutcome s { s with sync := { s.sync with pendingResync := false } }
  | deferred (full : BitmapUpdate) (latest : s.latestFull = some full) :
      CatchupOutcome s { s with sync := s.sync.defer }
  | sent (full bitmap : BitmapUpdate) (latest : s.latestFull = some full)
      (resync : resyncBitmap s.sync.lastSyncedFull full = some bitmap) :
      CatchupOutcome s { s with
        bulkInFlight := true
        queued := s.queued ++ [bitmap]
        sync := ⟨false, some full, none⟩ }

theorem catchup_outcome (width height : NonZeroU16) (s : DisplaySide) (backlogHigh : Bool)
    (hdeferred : s.deferred = none) : CatchupOutcome s (s.catchup width height backlogHigh) := by
  obtain ⟨sync, deferred, allowed, gate, bulk, latest, notified, queued⟩ := s
  obtain ⟨pending, last, target⟩ := sync
  cases hdeferred
  cases pending with
  | false => exact .idle rfl
  | true =>
    cases latest with
    | none => exact .noFrame rfl
    | some full =>
      simp only [DisplaySide.catchup, takeCatchup, hasPending, if_true,
        takePending, Bool.true_eq_false, if_false]
      cases hresync : resyncBitmap last full with
      | none => exact .unchanged full rfl hresync
      | some bitmap =>
        simp only [DisplaySide.pump]
        split
        · exact .deferred full rfl
        · exact .sent full bitmap rfl hresync

theorem catchup_of_not_pending (width height : NonZeroU16) (s : DisplaySide) (backlogHigh : Bool)
    (hdeferred : s.deferred = none)
    (hpending : s.sync.pendingResync = false) : s.catchup width height backlogHigh = s := by
  obtain ⟨⟨pending, last, target⟩, deferred, allowed, gate, bulk, latest, notified, queued⟩ := s
  cases hdeferred
  cases hpending
  rfl

def screen (blank : Screen) (s : DisplaySide) : Screen := s.queued.foldl paint blank

end Kmsrdp.Source.Server.DisplayLoop
