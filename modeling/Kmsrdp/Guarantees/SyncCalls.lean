import Kmsrdp.Guarantees.SyncBaseline

/-!
# The baseline follows the confirmed sends

`BitmapSyncState` in the order of the pump of `run_steady_state`: a bitmap of `take_catchup` is
given back with `defer`, or its target is taken with `take_resync_target` and `confirm_send` reports
its send.
-/
namespace Kmsrdp.Guarantees.SyncCalls
open Library.Execution Source.Server.Display Source.Server.BitmapSync Source.Server.DisplayLoop
  BitmapSyncState
  Guarantees.SyncBaseline

inductive Phase where
  | idle
  | holding (bitmap : BitmapUpdate)
  | sending (bitmap : BitmapUpdate) (advanceSynced : Option BitmapUpdate)

structure Pump where
  sync : BitmapSyncState
  deferred : Option BitmapUpdate
  phase : Phase
  confirmed : List BitmapUpdate

def Pump.start : Pump := ⟨.new, none, .idle, []⟩

inductive Call (width height : NonZeroU16) where
  | markDirty
  | takeCatchup (latestFull : Option (FullFrame width height))
  | defer
  | takeResyncTarget
  | confirmSend (queued : Bool)

section Calls
variable {width height : NonZeroU16}

def step (s : Pump) : Call width height → Option Pump
  | .markDirty => some { s with sync := s.sync.markDirty, deferred := none }
  | .takeCatchup latestFull =>
    match s.phase with
    | .idle =>
      let (bitmap, deferred, sync) := s.sync.takeCatchup s.deferred (latestFull.map Subtype.val)
      some { s with sync := sync, deferred := deferred, phase := bitmap.elim .idle .holding }
    | _ => none
  | .defer =>
    match s.phase with
    | .holding _ => some { s with sync := s.sync.defer, deferred := none, phase := .idle }
    | _ => none
  | .takeResyncTarget =>
    match s.phase with
    | .holding bitmap =>
      let (advanceSynced, sync) := s.sync.takeResyncTarget
      some { s with sync := sync, phase := .sending bitmap advanceSynced }
    | _ => none
  | .confirmSend queued =>
    match s.phase with
    | .sending bitmap advanceSynced =>
      let advanceFull := if coversDesktop bitmap width height then some bitmap else none
      some { s with
        sync := s.sync.confirmSend queued advanceSynced advanceFull
        deferred := if queued then none else s.deferred
        phase := .idle
        confirmed := if queued then s.confirmed ++ [bitmap] else s.confirmed }
    | _ => none

/-- The bitmap is what a resync to the frame has to send. -/
def IsResync (width height : NonZeroU16) (last : Option BitmapUpdate) (bitmap full : BitmapUpdate) :
    Prop :=
  IsFull width height full ∧ resyncBitmap last full = some bitmap

/-- In every phase the target belongs to the bitmap at hand. -/
def InPhase (width height : NonZeroU16) (sync : BitmapSyncState) : Phase → Prop
  | .idle => sync.resyncTarget = none
  | .holding bitmap => ∃ full, sync.resyncTarget = some full ∧
      IsResync width height sync.lastSyncedFull bitmap full
  | .sending bitmap advanceSynced => sync.resyncTarget = none ∧ ∃ full, advanceSynced = some full ∧
      IsResync width height sync.lastSyncedFull bitmap full

structure Inv (width height : NonZeroU16) (s : Pump) : Prop where
  deferred_none : s.deferred = none
  phase_target : InPhase width height s.sync s.phase
  baseline_full : ∀ full, s.sync.lastSyncedFull = some full → IsFull width height full
  baseline_painted : ∀ blank full, s.sync.lastSyncedFull = some full →
    Shows width height (s.confirmed.foldl paint blank) full

variable {s t : Pump}

theorem inv_start (width height : NonZeroU16) : Inv width height .start where
  deferred_none := rfl
  phase_target := rfl
  baseline_full := fun full h => by cases h
  baseline_painted := fun blank full h => by cases h

theorem takeCatchup_cases (sync : BitmapSyncState) (latestFull : Option BitmapUpdate) :
    (∃ pending,
       sync.takeCatchup none latestFull = (none, none, { sync with pendingResync := pending })) ∨
    ∃ full bitmap,
      latestFull = some full ∧
      resyncBitmap sync.lastSyncedFull full = some bitmap ∧
      sync.takeCatchup none latestFull =
        (some bitmap, none, { sync with pendingResync := false, resyncTarget := some full }) := by
  obtain ⟨pending, last, target⟩ := sync
  cases pending with
  | false => exact .inl ⟨false, rfl⟩
  | true =>
    cases latestFull with
    | none => exact .inl ⟨false, rfl⟩
    | some full =>
      simp only [takeCatchup, hasPending, if_true, takePending,
        Bool.true_eq_false, if_false]
      cases hresync : resyncBitmap last full with
      | none => exact .inl ⟨false, rfl⟩
      | some bitmap => exact .inr ⟨full, bitmap, rfl, hresync, rfl⟩

inductive Turn (s : Pump) : Call width height → Pump → Prop
  | marked : Turn s .markDirty { s with sync := s.sync.markDirty }
  | nothing (latestFull : Option (FullFrame width height)) (pending : Bool) (phase : s.phase = .idle) :
      Turn s (.takeCatchup latestFull) { s with sync := { s.sync with pendingResync := pending } }
  | armed (frame : FullFrame width height) (bitmap : BitmapUpdate)
      (resync : resyncBitmap s.sync.lastSyncedFull frame.val = some bitmap) :
      Turn s (.takeCatchup (some frame)) { s with
        sync := { s.sync with pendingResync := false, resyncTarget := some frame.val }
        phase := .holding bitmap }
  | deferred : Turn s .defer { s with sync := s.sync.defer, phase := .idle }
  | taken (bitmap full : BitmapUpdate)
      (resync : IsResync width height s.sync.lastSyncedFull bitmap full) :
      Turn s .takeResyncTarget { s with
        sync := { s.sync with resyncTarget := none }
        phase := .sending bitmap (some full) }
  | unqueued (target : s.sync.resyncTarget = none) :
      Turn s (.confirmSend false)
        { s with sync := { s.sync with pendingResync := true }, phase := .idle }
  | queued (bitmap full : BitmapUpdate) (phase : s.phase = .sending bitmap (some full))
      (resync : IsResync width height s.sync.lastSyncedFull bitmap full) :
      Turn s (.confirmSend true) { s with
        sync := ⟨false, some full, none⟩
        phase := .idle
        confirmed := s.confirmed ++ [bitmap] }

theorem turn_of_step
    (h : Inv width height s)
    {call : Call width height}
    (hstep : step s call = some t) : Turn s call t := by
  obtain ⟨⟨pending, last, target⟩, deferred, phase, confirmed⟩ := s
  obtain ⟨hdeferred, hphase, -, -⟩ := h
  cases hdeferred
  cases call with
  | markDirty =>
    cases hstep
    exact .marked
  | takeCatchup latestFull =>
    cases phase with
    | idle =>
      rcases takeCatchup_cases ⟨pending, last, target⟩ (latestFull.map Subtype.val) with
        ⟨pending', htake⟩ | ⟨full, bitmap, hlatest, hresync, htake⟩
      · rw [step, htake] at hstep
        cases hstep
        exact .nothing latestFull pending' rfl
      · rw [step, htake] at hstep
        cases hstep
        obtain ⟨frame, rfl, rfl⟩ := Option.map_eq_some_iff.mp hlatest
        exact .armed frame bitmap hresync
    | holding bitmap => cases hstep
    | sending bitmap advanceSynced => cases hstep
  | defer =>
    cases phase with
    | idle => cases hstep
    | holding bitmap =>
      cases hstep
      exact .deferred
    | sending bitmap advanceSynced => cases hstep
  | takeResyncTarget =>
    cases phase with
    | idle => cases hstep
    | holding bitmap =>
      obtain ⟨full, rfl, hresync⟩ := hphase
      cases hstep
      exact .taken bitmap full hresync
    | sending bitmap advanceSynced => cases hstep
  | confirmSend queued =>
    cases phase with
    | idle => cases hstep
    | holding bitmap => cases hstep
    | sending bitmap advanceSynced =>
      obtain ⟨rfl, full, rfl, hresync⟩ := hphase
      cases queued with
      | false =>
        cases hstep
        exact .unqueued rfl
      | true =>
        cases hstep
        exact .queued bitmap full rfl hresync

theorem inv_step (s : Pump) (call : Call width height) (t : Pump)
    (h : Inv width height s)
    (hstep : step s call = some t) : Inv width height t := by
  have hphase := h.phase_target
  cases turn_of_step h hstep with
  | marked =>
    refine ⟨h.deferred_none, ?_, h.baseline_full, h.baseline_painted⟩
    cases hat : s.phase <;> rw [hat] at hphase <;> exact hphase
  | nothing latestFull pending hidle =>
    rw [hidle] at hphase
    exact ⟨h.deferred_none, by rw [hidle]; exact hphase, h.baseline_full, h.baseline_painted⟩
  | armed frame bitmap resync =>
    exact ⟨h.deferred_none, ⟨_, rfl, frame.property, resync⟩, h.baseline_full, h.baseline_painted⟩
  | deferred => exact ⟨h.deferred_none, rfl, h.baseline_full, h.baseline_painted⟩
  | taken bitmap full resync =>
    exact ⟨h.deferred_none, ⟨rfl, full, rfl, resync⟩, h.baseline_full, h.baseline_painted⟩
  | unqueued target => exact ⟨h.deferred_none, target, h.baseline_full, h.baseline_painted⟩
  | queued bitmap full _ resync =>
    refine ⟨h.deferred_none, rfl, fun frame hframe => ?_, fun blank frame hframe => ?_⟩
    · cases hframe
      exact resync.1
    · cases hframe
      rw [List.foldl_append, List.foldl_cons, List.foldl_nil]
      exact shows_paint_resync resync.1 h.baseline_full (h.baseline_painted blank) resync.2

theorem unconfirmed_step
    (h : Inv width height s)
    {call : Call width height}
    (hstep : step s call = some t)
    (hcall : call ≠ .confirmSend true) :
    t.sync.lastSyncedFull = s.sync.lastSyncedFull ∧
    t.confirmed = s.confirmed ∧
    (call = .defer ∨ call = .confirmSend false → t.sync.pendingResync = true) := by
  cases turn_of_step h hstep with
  | marked => exact ⟨rfl, rfl, fun _ => rfl⟩
  | nothing latestFull pending => exact ⟨rfl, rfl, by rintro (h | h) <;> cases h⟩
  | armed frame bitmap resync => exact ⟨rfl, rfl, by rintro (h | h) <;> cases h⟩
  | deferred => exact ⟨rfl, rfl, fun _ => rfl⟩
  | taken bitmap full resync => exact ⟨rfl, rfl, by rintro (h | h) <;> cases h⟩
  | unqueued target => exact ⟨rfl, rfl, fun _ => rfl⟩
  | queued bitmap full phase resync => exact absurd rfl hcall

theorem confirmed_step
    (h : Inv width height s)
    (hstep : step s (.confirmSend true : Call width height) = some t) :
    t.sync.lastSyncedFull.isSome ∧
    ∃ bitmap advanceSynced,
      s.phase = .sending bitmap advanceSynced ∧ t.confirmed = s.confirmed ++ [bitmap] := by
  cases turn_of_step h hstep with
  | queued bitmap full phase resync => exact ⟨rfl, bitmap, _, phase, rfl⟩

theorem takePending_none
    (h : Inv width height s)
    (frame : FullFrame width height)
    (hpending : s.sync.hasPending = true)
    (hnone : (s.sync.takePending (some frame.val)).1 = none) :
    ∃ full,
      s.sync.lastSyncedFull = some full ∧
      ∀ column row, column < width.get → row < height.get →
        full.pixel column row = frame.val.pixel column row := by
  have hresync : resyncBitmap s.sync.lastSyncedFull frame.val = none := by
    unfold takePending at hnone
    rw [if_neg (by rw [show s.sync.pendingResync = true from hpending]; decide)] at hnone
    dsimp only at hnone
    cases hresult : resyncBitmap s.sync.lastSyncedFull frame.val with
    | none => rfl
    | some merged =>
      rw [hresult] at hnone
      cases hnone
  have hcovers := (resyncBitmap_spec frame.property _ h.baseline_full).2
  cases hlast : s.sync.lastSyncedFull with
  | none =>
    rw [hlast] at hresync
    cases hresync
  | some full =>
    refine ⟨full, rfl, fun column row hcolumn hrow => ?_⟩
    rcases hcovers column row hcolumn hrow with ⟨m, hm, -⟩ | ⟨prev, hprev, hsame⟩
    · rw [hresync] at hm
      cases hm
    · rw [hlast] at hprev
      cases hprev
      exact hsame

/-- The baseline, where there is one, is what the confirmed bitmaps paint; only a confirmed send
changes it, and giving up on a bitmap leaves a resync pending; and a frame for which there is
nothing to send is the baseline. -/
structure FollowsSends (width height : NonZeroU16) (s : Pump) : Prop where
  painted : ∀ blank full, s.sync.lastSyncedFull = some full →
    Shows width height (s.confirmed.foldl paint blank) full
  confirmed : ∀ t, step s (.confirmSend true : Call width height) = some t →
    t.sync.lastSyncedFull.isSome ∧
      ∃ bitmap advanceSynced, s.phase = .sending bitmap advanceSynced ∧
        t.confirmed = s.confirmed ++ [bitmap]
  unconfirmed : ∀ (call : Call width height) (t : Pump), step s call = some t →
    call ≠ .confirmSend true →
    t.sync.lastSyncedFull = s.sync.lastSyncedFull ∧ t.confirmed = s.confirmed ∧
      (call = .defer ∨ call = .confirmSend false → t.sync.pendingResync = true)
  nothing_to_send : ∀ frame : FullFrame width height, s.sync.hasPending = true →
    (s.sync.takePending (some frame.val)).1 = none →
    ∃ full, s.sync.lastSyncedFull = some full ∧
      ∀ column row, column < width.get → row < height.get →
        full.pixel column row = frame.val.pixel column row

theorem Inv.followsSends (h : Inv width height s) : FollowsSends width height s where
  painted := h.baseline_painted
  confirmed := fun _ hstep => confirmed_step h hstep
  unconfirmed := fun _ _ hstep hcall => unconfirmed_step h hstep hcall
  nothing_to_send := fun frame => takePending_none h frame

/-- All along any sequence of calls the baseline follows the confirmed sends. -/
theorem baseline_follows_confirmed_sends (width height : NonZeroU16)
    (calls : List (Call width height)) : Always step (FollowsSends width height) .start calls :=
  always_of_invariant (Inv width height) (fun _ h => h.followsSends) inv_step calls
    (inv_start width height)

end Calls

/-- A frame is sent, a newer one is deferred and then comes out empty, and the desktop returns to
the first one: the baseline has not moved, and there is nothing to send. -/
example :
    (exec step .start
      [.markDirty, .takeCatchup (some (greyFrame 10)), .takeResyncTarget, .confirmSend true,
        .markDirty, .takeCatchup (some (greyFrame 20)), .defer, .takeCatchup (some (greyFrame 20)),
        .takeResyncTarget, .confirmSend false, .takeCatchup (some (greyFrame 10))]).map
        (fun s => (s.sync.lastSyncedFull, s.sync.pendingResync, s.confirmed.length)) =
      some (some (greyFrame 10).val, false, 1) :=
  rfl

end Kmsrdp.Guarantees.SyncCalls
