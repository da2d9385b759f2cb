import Kmsrdp.Source.Server.DisplayLoop

/-!
# The resync baseline and the client's screen

`Synced`: whenever `last_synced_full` is a frame, the client that has applied every queued bitmap
shows it; and when updates are allowed, no resync is owed, nothing is in flight and the newest
capture has been notified, it shows that.
-/
namespace Kmsrdp.Guarantees.SyncBaseline
open Library.Execution Source.Server.Display Source.Server.BitmapSync Source.Server.DisplayLoop List
  DisplaySide

def Shows (width height : NonZeroU16) (client : Screen) (frame : BitmapUpdate) : Prop :=
  ∀ column row, column < width.get → row < height.get → client column row = frame.pixel column row

def BaselineShown (width height : NonZeroU16) (blank : Screen) (s : DisplaySide) : Prop :=
  ∀ frame, s.sync.lastSyncedFull = some frame → Shows width height (screen blank s) frame

/-- Once nothing is owed or in flight, the client has caught up. -/
def CaughtUp (width height : NonZeroU16) (blank : Screen) (s : DisplaySide) : Prop :=
  s.updatesAllowed = true → s.sync.pendingResync = false → s.bulkInFlight = false →
    s.notified = true → ∀ frame, s.latestFull = some frame →
      Shows width height (screen blank s) frame

def Synced (width height : NonZeroU16) (blank : Screen) (s : DisplaySide) : Prop :=
  BaselineShown width height blank s ∧ CaughtUp width height blank s

/-- `Synced`, now and once the bulk send in flight has finished. -/
def SyncedOnceSent (width height : NonZeroU16) (blank : Screen) (s : DisplaySide) : Prop :=
  Synced width height blank s ∧
    ∀ after, step width height s (.bulkSent true) = some after → Synced width height blank after

/-- The direct sends of the action only repeat pixels of the baseline. -/
def RepeatsBaseline (width height : NonZeroU16) (s : DisplaySide) (action : Action width height) :
    Prop :=
  ∀ baseline latest, s.sync.lastSyncedFull = some baseline → s.latestFull = some latest →
    ∀ b ∈ s.directSends action, ∀ column row, b.Contains column row →
      latest.pixel column row = baseline.pixel column row

/-- When updates come on again for a frame that has been notified and that no resync is owed for,
the direct send reaches every pixel the client does not show yet: it did not give up before. -/
def ReachesFrame (width height : NonZeroU16) (blank : Screen) (s : DisplaySide) :
    Action width height → Prop
  | .suppressOutput allow sent =>
    allow = true → s.updatesAllowed = false → s.sync.pendingResync = false → s.notified = true →
      ∀ frame, s.latestFull = some frame → ∀ column row, column < width.get → row < height.get →
        (∃ b ∈ sent.parts frame, b.Contains column row) ∨
          screen blank s column row = frame.pixel column row
  | _ => True

def Agreeing (width height : NonZeroU16) (blank : Screen) (s : DisplaySide)
    (action : Action width height) : Prop :=
  RepeatsBaseline width height s action ∧ ReachesFrame width height blank s action

/-- The inductive form: being caught up does not depend on the send in flight, and the
deferred slot and the resync target are empty between two turns. -/
structure Inv (width height : NonZeroU16) (blank : Screen) (s : DisplaySide) : Prop where
  deferred_none : s.deferred = none
  target_none : s.sync.resyncTarget = none
  latest_full : ∀ frame, s.latestFull = some frame → IsFull width height frame
  baseline_full : ∀ frame, s.sync.lastSyncedFull = some frame → IsFull width height frame
  baseline_shown : BaselineShown width height blank s
  caught_up : s.updatesAllowed = true → s.sync.pendingResync = false → s.notified = true →
    ∀ frame, s.latestFull = some frame → Shows width height (screen blank s) frame

variable {baseline : Option BitmapUpdate}
section Session
variable {width height : NonZeroU16} {blank : Screen} {s : DisplaySide}

theorem Inv.synced (h : Inv width height blank s) : Synced width height blank s :=
  ⟨h.baseline_shown, fun hallowed hpending _ => h.caught_up hallowed hpending⟩

theorem inv_start (width height : NonZeroU16) (blank : Screen) (gateOpen : Bool) :
    Inv width height blank (start gateOpen) where
  deferred_none := rfl
  target_none := rfl
  latest_full := fun frame h => by cases h
  baseline_full := fun frame h => by cases h
  baseline_shown := fun frame h => by cases h
  caught_up := fun _ _ h => by cases h

variable {full : BitmapUpdate}

theorem shows_paint_resync {client : Screen} {m : BitmapUpdate}
    (hfull : IsFull width height full)
    (hbaseline : ∀ frame, baseline = some frame → IsFull width height frame)
    (hshown : ∀ frame, baseline = some frame → Shows width height client frame)
    (hresync : resyncBitmap baseline full = some m) : Shows width height (paint client m) full := by
  obtain ⟨hviews, hcovers⟩ := resyncBitmap_spec hfull baseline hbaseline
  intro column row hcolumn hrow
  by_cases hin : m.Contains column row
  · exact (hviews m hresync).1.paint_eq hfull client hin
  · rw [paint_of_not_contains hin]
    rcases hcovers column row hcolumn hrow with ⟨m', hm', hin'⟩ | ⟨prev, hprev, hsame⟩
    · rw [hresync] at hm'
      cases hm'
      exact absurd hin' hin
    · rw [hshown prev hprev column row hcolumn hrow, hsame]

theorem shows_of_resync_none {client : Screen}
    (hfull : IsFull width height full)
    (hbaseline : ∀ frame, baseline = some frame → IsFull width height frame)
    (hshown : ∀ frame, baseline = some frame → Shows width height client frame)
    (hresync : resyncBitmap baseline full = none) : Shows width height client full := by
  intro column row hcolumn hrow
  rcases (resyncBitmap_spec hfull baseline hbaseline).2 column row hcolumn hrow with
    ⟨m, hm, -⟩ | ⟨prev, hprev, hsame⟩
  · rw [hresync] at hm
    cases hm
  · rw [hshown prev hprev column row hcolumn hrow, hsame]

theorem screen_queue_one (blank : Screen) (s : DisplaySide) (b : BitmapUpdate) :
    (s.queued ++ [b]).foldl paint blank = paint (screen blank s) b := by
  simp [screen]

theorem inv_catchup (h : Inv width height blank s) (backlogHigh : Bool) :
    Inv width height blank (s.catchup width height backlogHigh) := by
  have houtcome := catchup_outcome width height s backlogHigh h.deferred_none
  generalize s.catchup width height backlogHigh = after at houtcome ⊢
  cases houtcome with
  | idle pending => exact h
  | noFrame latest =>
    refine ⟨h.deferred_none, h.target_none, h.latest_full, h.baseline_full, h.baseline_shown, ?_⟩
    intro _ _ _ frame hframe
    rw [latest] at hframe
    cases hframe
  | unchanged full latest resync =>
    refine ⟨h.deferred_none, h.target_none, h.latest_full, h.baseline_full, h.baseline_shown, ?_⟩
    intro _ _ _ frame hframe
    obtain rfl : full = frame := Option.some.inj (latest.symm.trans hframe)
    exact shows_of_resync_none (h.latest_full full latest) h.baseline_full h.baseline_shown resync
  | deferred full latest =>
    exact ⟨h.deferred_none, rfl, h.latest_full, h.baseline_full, h.baseline_shown,
      fun _ hpending => by cases hpending⟩
  | sent full bitmap latest resync =>
    have hfull := h.latest_full full latest
    have hshows : Shows width height ((s.queued ++ [bitmap]).foldl paint blank) full := by
      rw [screen_queue_one]
      exact shows_paint_resync hfull h.baseline_full h.baseline_shown resync
    refine ⟨h.deferred_none, rfl, h.latest_full, ?_, ?_, ?_⟩
    · intro frame hframe
      cases hframe
      exact hfull
    · intro frame hframe
      cases hframe
      exact hshows
    · intro _ _ _ frame hframe
      obtain rfl : full = frame := Option.some.inj (latest.symm.trans hframe)
      exact hshows

theorem viewOf_subRect {b v : BitmapUpdate} {rect : InclusiveRect}
    (hfull : IsFull width height full)
    (hb : ViewOf full b)
    (hsub : subRect b rect = some v) : ViewOf full v := by
  unfold subRect at hsub
  split at hsub
  · exact hb.of_sub hfull hsub
  · cases hsub

theorem viewOf_refreshBitmaps (hfull : IsFull width height full) (rects : List InclusiveRect) :
    ∀ b ∈ refreshBitmaps full rects, ViewOf full b := by
  intro b hb
  unfold refreshBitmaps at hb
  split at hb
  · rw [mem_singleton.mp hb]
    exact hfull.viewOf_self
  · obtain ⟨rect, -, hsub⟩ := mem_filterMap.mp hb
    exact viewOf_subRect hfull hfull.viewOf_self hsub

theorem viewOf_parts {b v : BitmapUpdate} {sent : Sent}
    (hfull : IsFull width height full)
    (hb : ViewOf full b)
    (hv : v ∈ sent.parts b) : ViewOf full v := by
  cases sent with
  | whole =>
    rw [mem_singleton.mp hv]
    exact hb
  | upTo tiles =>
    obtain ⟨tile, -, hsub⟩ := mem_filterMap.mp hv
    exact viewOf_subRect hfull hb hsub

theorem directSends_of_none (hlatest : s.latestFull = none) (action : Action width height) :
    s.directSends action = [] := by
  cases action <;> simp [directSends, hlatest]

theorem viewOf_directSends
    (h : Inv width height blank s)
    (hlatest : s.latestFull = some full)
    (action : Action width height) : ∀ b ∈ s.directSends action, ViewOf full b := by
  intro b hb
  have hfull := h.latest_full full hlatest
  cases action with
  | suppressOutput allow sent =>
    simp only [directSends, hlatest] at hb
    split at hb
    · exact viewOf_parts hfull hfull.viewOf_self hb
    · cases hb
  | refreshRect rects sent =>
    simp only [directSends, hlatest] at hb
    obtain ⟨⟨whole, i⟩, hwhole, hpart⟩ := mem_flatMap.mp hb
    have hmem := mem_of_getElem? (mem_zipIdx_iff_getElem?.mp hwhole)
    exact viewOf_parts hfull (viewOf_refreshBitmaps hfull rects whole hmem) hpart
  | _ => cases hb

/-- After views of one frame are painted, a position shows that frame if one of them
contains it, and what it showed before otherwise. -/
theorem foldl_paint_views
    (hfull : IsFull width height full)
    (bitmaps : List BitmapUpdate)
    (hviews : ∀ b ∈ bitmaps, ViewOf full b)
    (client : Screen) (column row : Nat) :
    (∃ b ∈ bitmaps, b.Contains column row) ∧
    bitmaps.foldl paint client column row = full.pixel column row ∨
    (∀ b ∈ bitmaps, ¬ b.Contains column row) ∧
    bitmaps.foldl paint client column row = client column row := by
  induction bitmaps generalizing client with
  | nil => exact Or.inr ⟨by simp, rfl⟩
  | cons head tail ih =>
    rw [foldl_cons]
    rcases ih (fun b hb => hviews b (mem_cons_of_mem _ hb)) (paint client head) with
      ⟨⟨b, hb, hin⟩, heq⟩ | ⟨hout, heq⟩
    · exact Or.inl ⟨⟨b, mem_cons_of_mem _ hb, hin⟩, heq⟩
    · rw [heq]
      by_cases hin : head.Contains column row
      · exact Or.inl
          ⟨⟨head, mem_cons_self, hin⟩, (hviews head mem_cons_self).paint_eq hfull client hin⟩
      · refine Or.inr ⟨fun b hb => ?_, paint_of_not_contains hin client⟩
        rcases mem_cons.mp hb with rfl | hb
        · exact hin
        · exact hout b hb

theorem screen_after_directSends
    (h : Inv width height blank s)
    (action : Action width height) (column row : Nat) :
    (∃ full,
       s.latestFull = some full ∧
       (∃ b ∈ s.directSends action, b.Contains column row) ∧
       (s.queued ++ s.directSends action).foldl paint blank column row = full.pixel column row) ∨
    (∀ b ∈ s.directSends action, ¬ b.Contains column row) ∧
    (s.queued ++ s.directSends action).foldl paint blank column row =
      screen blank s column row := by
  rw [foldl_append]
  cases hlatest : s.latestFull with
  | none =>
    rw [directSends_of_none hlatest]
    exact Or.inr ⟨by simp, rfl⟩
  | some full =>
    have hviews := viewOf_directSends h hlatest action
    rcases foldl_paint_views (h.latest_full full hlatest) _ hviews (screen blank s) column row with
      hin | hout
    · exact Or.inl ⟨full, rfl, hin.1, hin.2⟩
    · exact Or.inr hout

theorem directSends_turnedOn {frame : BitmapUpdate} {allow : Bool} {sent : Sent}
    (hframe : s.latestFull = some frame)
    (hallow : allow = true)
    (hwas : s.updatesAllowed = false) :
    s.directSends (.suppressOutput allow sent : Action width height) = sent.parts frame := by
  simp [directSends, hframe, hallow, hwas]

theorem baseline_shown_after_directSends
    (h : Inv width height blank s)
    (action : Action width height)
    (hagree : RepeatsBaseline width height s action) :
    ∀ frame, s.sync.lastSyncedFull = some frame →
      Shows width height ((s.queued ++ s.directSends action).foldl paint blank) frame := by
  intro frame hframe column row hcolumn hrow
  rcases screen_after_directSends h action column row with
    ⟨full, hlatest, ⟨b, hb, hin⟩, heq⟩ | ⟨-, heq⟩
  · rw [heq, hagree frame full hframe hlatest b hb column row hin]
  · rw [heq, h.baseline_shown frame hframe column row hcolumn hrow]

theorem latest_shown_after_directSends
    (h : Inv width height blank s)
    (action : Action width height) {frame : BitmapUpdate}
    (hlatest : s.latestFull = some frame)
    (hshows : Shows width height (screen blank s) frame) :
    Shows width height ((s.queued ++ s.directSends action).foldl paint blank) frame := by
  intro column row hcolumn hrow
  rcases screen_after_directSends h action column row with ⟨full, hfull, -, heq⟩ | ⟨-, heq⟩
  · obtain rfl : full = frame := Option.some.inj (hfull.symm.trans hlatest)
    exact heq
  · rw [heq, hshows column row hcolumn hrow]

theorem inv_refreshRect
    (h : Inv width height blank s)
    (rects : List InclusiveRect) (sent : Nat → Sent)
    (hagree : Agreeing width height blank s (.refreshRect rects sent)) :
    Inv width height blank
      { s with
        queued := s.queued ++ s.directSends (.refreshRect rects sent : Action width height) } where
  deferred_none := h.deferred_none
  target_none := h.target_none
  latest_full := h.latest_full
  baseline_full := h.baseline_full
  baseline_shown := baseline_shown_after_directSends h _ hagree.1
  caught_up := fun hallowed hpending hnotified frame hframe =>
    latest_shown_after_directSends h _ hframe (h.caught_up hallowed hpending hnotified frame hframe)

theorem inv_suppressOutput
    (h : Inv width height blank s)
    (allow : Bool) (sent : Sent)
    (hagree : Agreeing width height blank s (.suppressOutput allow sent)) :
    Inv width height blank
      { s with
        updatesAllowed := allow
        queued := s.queued ++
          s.directSends (.suppressOutput allow sent : Action width height) } where
  deferred_none := h.deferred_none
  target_none := h.target_none
  latest_full := h.latest_full
  baseline_full := h.baseline_full
  baseline_shown := baseline_shown_after_directSends h _ hagree.1
  caught_up := by
    intro hallowed hpending hnotified frame hframe
    cases hwas : s.updatesAllowed with
    | true =>
      exact latest_shown_after_directSends h _ hframe
        (h.caught_up hwas hpending hnotified frame hframe)
    | false =>
      intro column row hcolumn hrow
      rcases screen_after_directSends h (.suppressOutput allow sent) column row with
        ⟨full, hfull, -, heq⟩ | ⟨hout, heq⟩
      · obtain rfl : full = frame := Option.some.inj (hfull.symm.trans hframe)
        exact heq
      · -- not reached: then the client showed it before
        rcases hagree.2 hallowed hwas hpending hnotified frame hframe column row hcolumn hrow with
          ⟨b, hb, hin⟩ | hshown
        · rw [directSends_turnedOn (s := s) hframe hallowed hwas] at hout
          exact absurd hin (hout b hb)
        · exact heq.trans hshown

theorem Inv.setFlags (h : Inv width height blank s) (gateOpen bulkInFlight : Bool) :
    Inv width height blank { s with gateOpen := gateOpen, bulkInFlight := bulkInFlight } :=
  ⟨h.deferred_none, h.target_none, h.latest_full, h.baseline_full, h.baseline_shown, h.caught_up⟩

theorem inv_notified_markDirty (h : Inv width height blank s) :
    Inv width height blank (markDirty { s with notified := true }) :=
  ⟨rfl, h.target_none, h.latest_full, h.baseline_full, h.baseline_shown,
    fun _ hpending => by cases hpending⟩

theorem inv_step (s : DisplaySide) (action : Action width height) (after : DisplaySide)
    (h : Inv width height blank s)
    (hagree : Agreeing width height blank s action)
    (hstep : step width height s action = some after) : Inv width height blank after := by
  cases action <;> simp only [step] at hstep
  case capture frame =>
    cases hstep
    refine ⟨h.deferred_none, h.target_none, ?_, h.baseline_full, h.baseline_shown, ?_⟩
    · intro full hfull
      cases hfull
      exact frame.property
    · intro _ _ hnotified
      cases hnotified
  case notification backlogHigh =>
    split at hstep
    · cases hstep
      exact inv_notified_markDirty h
    · split at hstep
      · next hoff =>
        cases hstep
        refine ⟨h.deferred_none, h.target_none, h.latest_full, h.baseline_full,
          h.baseline_shown, ?_⟩
        intro hallowed
        rw [show s.updatesAllowed = false from hoff] at hallowed
        cases hallowed
      · cases hstep
        exact inv_catchup (inv_notified_markDirty h) backlogHigh
  case bulkSent backlogHigh =>
    split at hstep
    · cases hstep
    · split at hstep <;> cases hstep
      · exact inv_catchup (h.setFlags s.gateOpen false) backlogHigh
      · exact h.setFlags s.gateOpen false
  case gateElapsed backlogHigh =>
    split at hstep
    · cases hstep
    · split at hstep <;> cases hstep
      · exact inv_catchup (h.setFlags true s.bulkInFlight) backlogHigh
      · exact h.setFlags true s.bulkInFlight
  case catchupTick backlogHigh =>
    split at hstep <;> cases hstep
    exact inv_catchup h backlogHigh
  case suppressOutput allow sent =>
    cases hstep
    exact inv_suppressOutput h allow sent hagree
  case refreshRect rects sent =>
    cases hstep
    exact inv_refreshRect h rects sent hagree

theorem syncedOnceSent_of_inv (s : DisplaySide) (h : Inv width height blank s) :
    SyncedOnceSent width height blank s := by
  refine ⟨h.synced, fun after hstep => ?_⟩
  have hagree : Agreeing width height blank s (.bulkSent true) :=
    ⟨fun _ _ _ _ _ hb => absurd hb not_mem_nil, trivial⟩
  exact (inv_step s _ after h hagree hstep).synced

theorem not_synced_of_overpainted
    (h : Inv width height blank s)
    {action : Action width height}
    (hbad : ¬ RepeatsBaseline width height s action) :
    ∃ after, step width height s action = some after ∧ ¬ Synced width height blank after := by
  simp only [RepeatsBaseline, not_forall] at hbad
  obtain ⟨baseline, latest, hbaseline, hlatest, b, hb, column, row, hin, hne⟩ := hbad
  have hbroken : ¬ Shows width height ((s.queued ++ s.directSends action).foldl paint blank)
      baseline := by
    intro hshows
    have hview := viewOf_directSends h hlatest action b hb
    obtain ⟨hcolumn, hrow⟩ := hview.contains_in (h.latest_full latest hlatest) hin
    rcases screen_after_directSends h action column row with ⟨full', hfull', -, heq⟩ | ⟨hout, -⟩
    · obtain rfl : full' = latest := Option.some.inj (hfull'.symm.trans hlatest)
      exact hne (heq.symm.trans (hshows column row hcolumn hrow))
    · exact hout b hb hin
  cases action with
  | suppressOutput allow sent =>
    exact ⟨_, rfl, fun hsynced => hbroken (hsynced.1 baseline hbaseline)⟩
  | refreshRect rects sent => exact ⟨_, rfl, fun hsynced => hbroken (hsynced.1 baseline hbaseline)⟩
  | _ => cases hb

/-- A client that is behind with nothing owed for it stays behind once the bulk send has finished.
-/
theorem not_syncedOnceSent_of_behind
    (hdeferred : s.deferred = none)
    (hallowed : s.updatesAllowed = true)
    (hpending : s.sync.pendingResync = false)
    (hnotified : s.notified = true)
    {frame : BitmapUpdate}
    (hframe : s.latestFull = some frame)
    (hbehind : ¬ Shows width height (screen blank s) frame) :
    ¬ SyncedOnceSent width height blank s := by
  rintro ⟨hnow, hsent⟩
  cases hbulk : s.bulkInFlight with
  | false => exact hbehind (hnow.2 hallowed hpending hbulk hnotified frame hframe)
  | true =>
    have hstep : step width height s (.bulkSent true) = some { s with bulkInFlight := false } := by
      have hidle :=
        catchup_of_not_pending width height { s with bulkInFlight := false } true hdeferred hpending
      simp [step, hbulk, hidle]
    exact hbehind ((hsent _ hstep).2 hallowed hpending rfl hnotified frame hframe)

theorem not_syncedOnceSent_of_gaveUp
    (h : Inv width height blank s)
    {action : Action width height}
    (hbad : ¬ ReachesFrame width height blank s action) :
    ∃ after,
      step width height s action = some after ∧ ¬ SyncedOnceSent width height blank after := by
  cases action with
  | suppressOutput allow sent =>
    simp only [ReachesFrame, not_forall, not_or] at hbad
    obtain ⟨hallow, hwas, hpending, hnotified, frame, hframe, column, row, hcolumn, hrow, hout,
      hne⟩ := hbad
    refine ⟨_, rfl,
      not_syncedOnceSent_of_behind h.deferred_none hallow hpending hnotified hframe ?_⟩
    intro hshows
    rcases screen_after_directSends h (.suppressOutput allow sent) column row with
      ⟨_, -, hin, -⟩ | ⟨-, heq⟩
    · rw [directSends_turnedOn hframe hallow hwas] at hin
      exact hout hin
    · exact hne (heq.symm.trans (hshows column row hcolumn hrow))
  | _ => exact absurd trivial hbad

theorem disagreeing_step_breaks (s : DisplaySide) (action : Action width height)
    (h : Inv width height blank s)
    (hbad : ¬ Agreeing width height blank s action) :
    ∃ after,
      step width height s action = some after ∧ ¬ SyncedOnceSent width height blank after := by
  rcases not_and_or.mp hbad with hpaints | hgaveUp
  · obtain ⟨after, hstep, hbroken⟩ := not_synced_of_overpainted h hpaints
    exact ⟨after, hstep, fun hsynced => hbroken hsynced.1⟩
  · exact not_syncedOnceSent_of_gaveUp h hgaveUp

/-- The client shows the baseline, and catches up with the newest frame, all along a session and
past the bulk send in flight, if and only if every direct send agrees with the baseline at the
time and none that updates come on with gives up short of the newest frame. -/
theorem synced_always_iff_agreeing (width height : NonZeroU16) (blank : Screen) (gateOpen : Bool)
    (schedule : List (Action width height)) :
    Always (step width height) (SyncedOnceSent width height blank) (start gateOpen) schedule ↔
      Careful (step width height) (Agreeing width height blank) (start gateOpen) schedule :=
  always_iff_careful (Inv width height blank) syncedOnceSent_of_inv inv_step
    disagreeing_step_breaks schedule (inv_start width height blank gateOpen)

end Session

def onePixel : NonZeroU16 := ⟨1, by decide, by decide⟩

def greyFrame (level : UInt8) : FullFrame onePixel onePixel :=
  ⟨{ x := 0, y := 0, width := onePixel, height := onePixel, format := .bgrX32,
     data := [level, level, level, 0], stride := 4, srcX := 0, srcY := 0,
     stride_pos := BitmapUpdate.bytesPerPixel_pos, stride_le := by decide, data_fits := by simp },
   { x_zero := rfl, y_zero := rfl, srcX_zero := rfl, srcY_zero := rfl, width_eq := rfl,
     height_eq := rfl, row_le := Nat.le_refl _, rows_in := by simp [onePixel] }⟩

def refreshedThenReverted : List (Action onePixel onePixel) :=
  [.capture (greyFrame 10), .notification false, .bulkSent false, .capture (greyFrame 20),
    .refreshRect [] fun _ => .whole, .capture (greyFrame 10), .notification false]

def black : Screen := fun _ _ => ⟨0, 0, 0⟩

/-- Updates are allowed, nothing is owed or in flight and the newest frame, grey level 10,
has been notified; the client shows level 20 for good. -/
theorem refreshedThenReverted_stale :
    (exec (step onePixel onePixel) (start true) refreshedThenReverted).map
      (fun s => (s.updatesAllowed, s.sync.pendingResync, s.bulkInFlight, s.notified)) =
      some (true, false, false, true) ∧
    (exec (step onePixel onePixel) (start true) refreshedThenReverted).map
      (fun s => (s.latestFull, screen black s 0 0)) =
      some (some (greyFrame 10).val, ⟨20, 20, 20⟩) ∧
    ¬ Always (step onePixel onePixel) (Synced onePixel onePixel black) (start true)
        refreshedThenReverted := by
  refine ⟨rfl, rfl, fun h => ?_⟩
  have hlast :=
    (h.last (t := _) rfl).2 rfl rfl rfl rfl (greyFrame 10).val rfl 0 0 (by decide) (by decide)
  exact absurd hlast (by decide)

end Kmsrdp.Guarantees.SyncBaseline
