import Kmsrdp.Source.Server.Diff
import Kmsrdp.Source.Server.Display

/-!
# The resync baseline of a session

Model of `resync_bitmap`, `covers_desktop` and `retain_bitmap_during_resize` in
`rdpcore-server/src/encode.rs` and of `BitmapSyncState` in `server/bitmap_sync.rs`.
-/
namespace Kmsrdp.Source.Server.BitmapSync
open Library.Bgrx Source.Server.Display Source.Server.Diff Or

def asU16 (value : Nat) : U16 := ⟨value % 65536, mod_u16_lt value⟩

def mergeRect (current : BitmapUpdate) (merged : Option BitmapUpdate) (rect : Rect) :
    Option BitmapUpdate :=
  match NonZeroU16.ofCast rect.width, NonZeroU16.ofCast rect.height with
  | some width, some height =>
    match current.sub (asU16 rect.x) (asU16 rect.y) width height with
    | none => merged
    | some sub =>
      match merged with
      | some m => some (m.union sub)
      | none => some sub
  | _, _ => merged

def resyncBitmap (lastSyncedFull : Option BitmapUpdate) (current : BitmapUpdate) :
    Option BitmapUpdate :=
  match lastSyncedFull with
  | some prev =>
    if prev.stride = current.stride ∧ prev.width = current.width ∧ prev.height = current.height then
      (findDirtyRects prev.data prev.stride current.data current.stride current.width.get
        current.height.get 4).foldl (mergeRect current) none
    else some current
  | none => some current

def coversDesktop (b : BitmapUpdate) (width height : NonZeroU16) : Bool :=
  b.x.val = 0 && b.y.val = 0 && b.width = width && b.height = height

def retainBitmapDuringResize (pending : Option BitmapUpdate) (bitmap : BitmapUpdate)
    (desktopWidth desktopHeight : NonZeroU16) (mergePartials : Bool) : Option BitmapUpdate :=
  let haveFull := pending.any (coversDesktop · desktopWidth desktopHeight)
  let incomingFull := coversDesktop bitmap desktopWidth desktopHeight
  if !mergePartials then if incomingFull || !haveFull then some bitmap else pending
  else
    match pending, haveFull, incomingFull with
    | some prev, true, false => some prev
    | some prev, _, _ => some (prev.union bitmap)
    | none, _, _ => some bitmap

structure BitmapSyncState where
  pendingResync : Bool
  (lastSyncedFull resyncTarget : Option BitmapUpdate)
  deriving DecidableEq

namespace BitmapSyncState

def new : BitmapSyncState := ⟨false, none, none⟩

def markDirty (s : BitmapSyncState) : BitmapSyncState := { s with pendingResync := true }

def hasPending (s : BitmapSyncState) : Bool := s.pendingResync

def takePending (s : BitmapSyncState) (latestFull : Option BitmapUpdate) :
    Option BitmapUpdate × BitmapSyncState :=
  if s.pendingResync = false then (none, s)
  else
    let taken := { s with pendingResync := false }
    match latestFull with
    | none => (none, taken)
    | some full =>
      match resyncBitmap s.lastSyncedFull full with
      | none => (none, taken)
      | some merged => (some merged, { taken with resyncTarget := some full })

def defer (s : BitmapSyncState) : BitmapSyncState :=
  { s with resyncTarget := none, pendingResync := true }

def takeResyncTarget (s : BitmapSyncState) : Option BitmapUpdate × BitmapSyncState :=
  (s.resyncTarget, { s with resyncTarget := none })

def confirmSend (s : BitmapSyncState) (queued : Bool)
    (advanceSynced advanceFull : Option BitmapUpdate) : BitmapSyncState :=
  if queued = false then
    if advanceSynced.isSome then { s with pendingResync := true } else s
  else
    match advanceSynced, advanceFull with
    | some synced, _ => { s with lastSyncedFull := some synced, pendingResync := false }
    | none, some full => { s with lastSyncedFull := some full, pendingResync := false }
    | none, none => { s with pendingResync := true }

def takeCatchup (s : BitmapSyncState) (deferred latestFull : Option BitmapUpdate) :
    Option BitmapUpdate × Option BitmapUpdate × BitmapSyncState :=
  if s.hasPending then
    let (bitmap, s') := s.takePending latestFull
    (bitmap, none, s')
  else (deferred, none, s)

end BitmapSyncState
section Resync
variable {width height : NonZeroU16} {prev current : BitmapUpdate}

theorem holds_of_isFull (h : IsFull width height current) :
    Holds current.data current.stride current.width.get current.height.get 4 where
  row_le := by simpa [h.width_eq] using h.row_le
  rows_in := by simpa [h.width_eq, h.height_eq] using h.rows_in
  fits := current.data_fits

theorem pixel_eq_of_bytes
    (hprev : IsFull width height prev)
    (hcurrent : IsFull width height current)
    {column row : Nat}
    (h : ∀ k, k < 4 →
        prev.data.getD (row * prev.stride + (column * 4 + k)) 0 =
          current.data.getD (row * current.stride + (column * 4 + k)) 0) :
    prev.pixel column row = current.pixel column row := by
  have h0 := h 0 (by omega)
  have h1 := h 1 (by omega)
  have h2 := h 2 (by omega)
  simp only [Nat.add_zero, ← Nat.add_assoc] at h0 h1 h2
  simp only [BitmapUpdate.pixel, pixelAt, hprev.srcX_zero, hprev.srcY_zero, hcurrent.srcX_zero,
    hcurrent.srcY_zero, Nat.zero_add, h0, h1, h2]

def IsMerged (current : BitmapUpdate) (merged : Option BitmapUpdate) : Prop :=
  ∀ m, merged = some m → ViewOf current m ∧ m.format = current.format

def InMerged (merged : Option BitmapUpdate) (column row : Nat) : Prop :=
  ∃ m, merged = some m ∧ m.Contains column row

theorem mergeRect_spec
    (hcurrent : IsFull width height current)
    {merged : Option BitmapUpdate}
    (hmerged : IsMerged current merged)
    {rect : Rect}
    (hrect : rect.InFrame current.width.get current.height.get) :
    IsMerged current (mergeRect current merged rect) ∧
    (∀ column row,
       InMerged merged column row ∨
       ((rect.x ≤ column ∧ column < rect.x + rect.width) ∧
        (rect.y ≤ row ∧ row < rect.y + rect.height)) →
         InMerged (mergeRect current merged rect) column row) := by
  obtain ⟨⟨hwpos, hright⟩, hhpos, hbottom⟩ := hrect
  have hwlt := current.width.lt
  have hhlt := current.height.lt
  have hx : (asU16 rect.x).val = rect.x := Nat.mod_eq_of_lt (by omega)
  have hy : (asU16 rect.y).val = rect.y := Nat.mod_eq_of_lt (by omega)
  have hw := NonZeroU16.ofCast_of_lt hwpos (by omega)
  have hh := NonZeroU16.ofCast_of_lt hhpos (by omega)
  obtain ⟨sub, hsub, hview, hsx, hsy, hsw, hsh⟩ := hcurrent.viewOf_self.sub_eq hcurrent (asU16 rect.x)
    (asU16 rect.y) ⟨rect.width, hwpos, by omega⟩ ⟨rect.height, hhpos, by omega⟩ (by rwa [hx])
    (by rwa [hy])
  have hcontains : ∀ column row, ((rect.x ≤ column ∧ column < rect.x + rect.width) ∧
      (rect.y ≤ row ∧ row < rect.y + rect.height)) → sub.Contains column row := by
    intro column row h
    simpa only [BitmapUpdate.Contains, hsx, hsy, hsw, hsh, hx, hy, hcurrent.x_zero, hcurrent.y_zero,
      Nat.zero_add] using h
  have hformat : sub.format = current.format := by simp only [PixelFormat.eq_bgrX32]
  cases merged with
  | none =>
    simp only [mergeRect, hw, hh, hsub]
    refine ⟨fun m hm => ?_, fun column row h => ⟨sub, rfl, ?_⟩⟩
    · cases hm
      exact ⟨hview, hformat⟩
    · rcases h with ⟨m, hm, -⟩ | h
      · cases hm
      · exact hcontains column row h
  | some m =>
    obtain ⟨hm, -⟩ := hmerged m rfl
    obtain ⟨hunion, hucontains⟩ := hm.union hcurrent hcurrent rfl hview
    simp only [mergeRect, hw, hh, hsub]
    refine ⟨fun m' hm' => ?_, fun column row h => ⟨_, rfl, hucontains column row ?_⟩⟩
    · cases hm'
      exact ⟨hunion, by simp only [PixelFormat.eq_bgrX32]⟩
    · rcases h with ⟨m', hm', hin⟩ | h
      · cases hm'
        exact inl hin
      · exact inr (hcontains column row h)

theorem foldl_mergeRect_spec
    (hcurrent : IsFull width height current)
    (rects : List Rect)
    (hrects : ∀ rect ∈ rects, rect.InFrame current.width.get current.height.get)
    (merged : Option BitmapUpdate)
    (hmerged : IsMerged current merged) :
    IsMerged current (rects.foldl (mergeRect current) merged) ∧
    (∀ column row,
       InMerged merged column row ∨
       (∃ rect ∈ rects,
          (rect.x ≤ column ∧ column < rect.x + rect.width) ∧
          (rect.y ≤ row ∧ row < rect.y + rect.height)) →
         InMerged (rects.foldl (mergeRect current) merged) column row) := by
  induction rects generalizing merged with
  | nil => exact ⟨hmerged, fun column row h => by simpa using h⟩
  | cons head tail ih =>
    obtain ⟨hnext, hadds⟩ := mergeRect_spec hcurrent hmerged (hrects head List.mem_cons_self)
    obtain ⟨hfinal, hcovers⟩ :=
      ih (fun rect h => hrects rect (List.mem_cons_of_mem _ h)) _ hnext
    refine ⟨hfinal, fun column row h => hcovers column row ?_⟩
    rcases h with h | ⟨rect, hmem, h⟩
    · exact inl (hadds column row (inl h))
    · rcases List.mem_cons.mp hmem with rfl | hmem
      · exact inl (hadds column row (inr h))
      · exact inr ⟨rect, hmem, h⟩

/-- What changed since the last frame lies in the resync bitmap. -/
theorem resyncBitmap_spec
    (hcurrent : IsFull width height current)
    (last : Option BitmapUpdate)
    (hlast : ∀ prev, last = some prev → IsFull width height prev) :
    IsMerged current (resyncBitmap last current) ∧
    (∀ column row, column < width.get → row < height.get →
       InMerged (resyncBitmap last current) column row ∨
       ∃ prev, last = some prev ∧ prev.pixel column row = current.pixel column row) := by
  have hwhole : IsMerged current (some current) ∧ ∀ column row, column < width.get →
      row < height.get → InMerged (some current) column row := by
    refine ⟨fun m hm => ?_, fun column row hc hr => ⟨current, rfl, ?_⟩⟩
    · cases hm
      exact ⟨hcurrent.viewOf_self, rfl⟩
    · exact (hcurrent.contains_iff column row).mpr ⟨hc, hr⟩
  cases last with
  | none => exact ⟨hwhole.1, fun column row hc hr => inl (hwhole.2 column row hc hr)⟩
  | some prev =>
    have hprev := hlast prev rfl
    unfold resyncBitmap
    simp only
    split
    · next hgeometry =>
      obtain ⟨hview, hcovers⟩ := foldl_mergeRect_spec hcurrent _ (findDirtyRects_inFrame)
        none (fun m hm => by cases hm)
      refine ⟨hview, fun column row hc hr => ?_⟩
      by_cases hin : InMerged ((findDirtyRects prev.data prev.stride current.data current.stride
          current.width.get current.height.get 4).foldl (mergeRect current) none) column row
      · exact inl hin
      · refine inr ⟨prev, rfl, pixel_eq_of_bytes hprev hcurrent fun k hk => ?_⟩
        by_contra hne
        have hholds := holds_of_isFull hprev
        rw [hgeometry.2.1, hgeometry.2.2] at hholds
        obtain ⟨rect, hmem, hrect⟩ := findDirtyRects_covers hholds (holds_of_isFull hcurrent)
          (by rwa [hcurrent.width_eq]) (by rwa [hcurrent.height_eq]) hk hne
        exact hin (hcovers column row (inr ⟨rect, hmem, hrect⟩))
    · exact ⟨hwhole.1, fun column row hc hr => inl (hwhole.2 column row hc hr)⟩

end Resync
end Kmsrdp.Source.Server.BitmapSync
