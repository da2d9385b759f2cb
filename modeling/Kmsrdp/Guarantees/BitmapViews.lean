import Mathlib.Data.List.Induction
import Kmsrdp.Source.Server.BitmapSync

/-!
# Views into full-desktop frames

Whatever `sub` and `union` make of views into full-desktop frames is again a view, inside the buffer
of a frame; a union reads the frame of its newer operand.
-/
namespace Kmsrdp.Guarantees.BitmapViews
open Library.ByteString Source.Server.Display Source.Server.BitmapSync Option BitmapUpdate

/-- Frames of one geometry and what `sub` and `union` make of them. -/
inductive Tree (width height : NonZeroU16) (stride : Nat) where
  | frame (full : BitmapUpdate) (isFull : IsFull width height full)
      (stride_eq : full.stride = stride)
  | sub (tree : Tree width height stride) (x y : U16) (w h : NonZeroU16)
  | union (older newer : Tree width height stride)

namespace Tree
variable {width height : NonZeroU16} {stride : Nat}

def eval : Tree width height stride → Option BitmapUpdate
  | .frame full _ _ => some full
  | .sub tree x y w h => tree.eval.bind fun view => view.sub x y w h
  | .union older newer => older.eval.bind fun view => newer.eval.map view.union

def newest : Tree width height stride → BitmapUpdate
  | .frame full _ _ => full
  | .sub tree _ _ _ _ => tree.newest
  | .union _ newer => newer.newest

theorem isFull_newest (tree : Tree width height stride) :
    IsFull width height tree.newest ∧ tree.newest.stride = stride := by
  induction tree with
  | frame full isFull stride_eq => exact ⟨isFull, stride_eq⟩
  | sub tree x y w h ih => exact ih
  | union older newer _ ih => exact ih

theorem viewOf_eval {tree : Tree width height stride} {view : BitmapUpdate}
    (h : tree.eval = some view) : ViewOf tree.newest view := by
  induction tree generalizing view with
  | frame full isFull stride_eq =>
    cases h
    exact isFull.viewOf_self
  | sub tree x y w h' ih =>
    obtain ⟨inner, hinner, hsub⟩ := bind_eq_some_iff.mp h
    exact (ih hinner).of_sub tree.isFull_newest.1 hsub
  | union older newer ihOlder ihNewer =>
    obtain ⟨first, hfirst, hunion⟩ := bind_eq_some_iff.mp h
    obtain ⟨second, hsecond, rfl⟩ := map_eq_some_iff.mp hunion
    obtain ⟨hold, hstride⟩ := older.isFull_newest
    obtain ⟨hnew, hstride'⟩ := newer.isFull_newest
    exact ((ihOlder hfirst).union hold hnew (hstride.trans hstride'.symm) (ihNewer hsecond)).1

end Tree
variable {width height : NonZeroU16} {full v : BitmapUpdate} {column row : Nat}

theorem srcByteOffset_le
    (hfull : IsFull width height full)
    (hv : ViewOf full v)
    (hcolumn : column < v.width.get)
    (hrow : row < v.height.get) : v.srcByteOffset column row + bytesPerPixel ≤ v.data.length := by
  obtain ⟨hdata, hstride, hsrcX, hsrcY, hright, hbottom⟩ := hv
  have hfits := full.data_fits
  have hlast : (v.srcY.val + row) * v.stride + (v.srcX.val + column + 1) * 4 ≤ full.data.length :=
    by
    rw [hstride]
    exact hfull.last_le (by omega) (by omega)
  rw [srcByteOffset, bytesPerPixel, satAdd_satMul (by unfold usizeMax; omega), hdata]
  omega

theorem sub_sub
    (hfull : IsFull width height full)
    (hv : ViewOf full v)
    {x y x' y' : U16} {w h w' h' : NonZeroU16} {u u' : BitmapUpdate}
    (hsub : v.sub x y w h = some u)
    (hsub' : u.sub x' y' w' h' = some u') :
    ∃ left top : U16,
      left.val = x.val + x'.val ∧ top.val = y.val + y'.val ∧ v.sub left top w' h' = some u' := by
  have hin := le_of_sub_eq_some hsub
  have hin' := le_of_sub_eq_some hsub'
  obtain ⟨_, heq, hu, hux, huy, huw, huh⟩ := hv.sub_eq hfull x y w h hin.1 hin.2
  cases hsub.symm.trans heq
  obtain ⟨_, heq', hu', hux', huy', huw', huh'⟩ := hu.sub_eq hfull x' y' w' h' hin'.1 hin'.2
  cases hsub'.symm.trans heq'
  rw [huw, huh] at hin'
  obtain ⟨whole, hwhole, hview, hx, hy, hw, hh⟩ := hv.sub_eq hfull ⟨x.val + x'.val, by omega⟩
    ⟨y.val + y'.val, by omega⟩ w' h' (by dsimp only; omega) (by dsimp only; omega)
  refine ⟨_, _, rfl, rfl, hwhole.trans (congrArg some ?_)⟩
  exact hview.eq hu' (by rw [hx, hux', hux]; dsimp only; omega)
    (by rw [hy, huy', huy]; dsimp only; omega)
    (hw.trans huw'.symm) (hh.trans huh'.symm)

/-- Whatever `sub` and `union` make of full-desktop frames of one geometry is a view of the frame of
the newer operands, and is treated as such by further operations. -/
theorem views_compose {stride : Nat} (tree : Tree width height stride) {view : BitmapUpdate}
    (heval : tree.eval = some view) :
    (∀ column < view.width.get, ∀ row < view.height.get,
       view.srcByteOffset column row + BitmapUpdate.bytesPerPixel ≤ view.data.length) ∧
    (view.srcX = view.x ∧ view.srcY = view.y) ∧
    (∀ screen column row, view.Contains column row →
       paint screen view column row = tree.newest.pixel column row) ∧
    (∀ x y w h,
       (view.sub x y w h).isSome ↔
         x.val + w.get ≤ view.width.get ∧ y.val + h.get ≤ view.height.get) ∧
    (∀ x y w h inner, view.sub x y w h = some inner →
       (inner.x.val = view.x.val + x.val ∧
        inner.y.val = view.y.val + y.val ∧
        inner.width = w ∧
        inner.height = h) ∧
       ∀ x' y' w' h' innermost, inner.sub x' y' w' h' = some innermost → ∃ left top : U16,
         left.val = x.val + x'.val ∧
         top.val = y.val + y'.val ∧
         view.sub left top w' h' = some innermost) ∧
    ∀ newer : Tree width height stride, ∀ other, newer.eval = some other → ∀ column row,
      (view.Contains column row ∨ other.Contains column row →
         (view.union other).Contains column row) ∧
      ((view.union other).Contains column row → ∀ screen,
        paint screen (view.union other) column row = newer.newest.pixel column row) := by
  obtain ⟨hfull, hstride⟩ := tree.isFull_newest
  have hview := Tree.viewOf_eval heval
  refine ⟨?_, ?_, ?_, ?_, ?_, ?_⟩
  · intro column hcolumn row hrow
    exact srcByteOffset_le hfull hview hcolumn hrow
  · exact ⟨Fin.ext hview.srcX_eq, Fin.ext hview.srcY_eq⟩
  · intro screen column row hin
    exact hview.paint_eq hfull screen hin
  · intro x y w h
    constructor
    · intro hsome
      obtain ⟨inner, hinner⟩ := isSome_iff_exists.mp hsome
      exact le_of_sub_eq_some hinner
    · intro hin
      obtain ⟨inner, hinner, -⟩ := hview.sub_eq hfull x y w h hin.1 hin.2
      simp [hinner]
  · intro x y w h inner hsub
    constructor
    · obtain ⟨hx, hy⟩ := le_of_sub_eq_some hsub
      obtain ⟨_, heq, -, hrect⟩ := hview.sub_eq hfull x y w h hx hy
      cases hsub.symm.trans heq
      exact hrect
    · intro x' y' w' h' innermost hsub'
      exact sub_sub hfull hview hsub hsub'
  · intro newer other hother column row
    obtain ⟨hnew, hstride'⟩ := newer.isFull_newest
    obtain ⟨hunion, hcovers⟩ :=
      hview.union hfull hnew (hstride.trans hstride'.symm) (Tree.viewOf_eval hother)
    exact ⟨hcovers column row, fun hin screen => hunion.paint_eq hnew screen hin⟩

/-! Two pixels side by side, and the right one of them. -/

def one : NonZeroU16 := ⟨1, Nat.one_pos, one_lt_u16⟩

def two : NonZeroU16 := ⟨one.get + one.get, by decide, by decide⟩

def pair (colour : UInt8) : BitmapUpdate where
  x := 0
  y := 0
  width := two
  height := one
  format := .bgrX32
  data := List.replicate 8 colour
  stride := 8
  srcX := 0
  srcY := 0
  stride_pos := Nat.succ_pos 7
  stride_le := by decide
  data_fits := by simp

theorem isFull_pair (colour : UInt8) : IsFull two one (pair colour) :=
  ⟨rfl, rfl, rfl, rfl, rfl, rfl, Nat.le_refl 8, by simp [one, two, pair]⟩

theorem views_compose_pair :
    ∃ view,
      (Tree.sub (.union (.frame (pair 1) (isFull_pair 1) rfl) (.frame (pair 2) (isFull_pair 2) rfl))
        1 0 one one : Tree two one 8).eval = some view ∧
      ∀ screen, paint screen view 1 0 = (pair 2).pixel 1 0 := by
  refine ⟨_, rfl, fun screen => ?_⟩
  exact (views_compose
    (.sub (.union (.frame (pair 1) (isFull_pair 1) rfl) (.frame (pair 2) (isFull_pair 2) rfl)) 1 0
    one one) rfl).2.2.1 screen 1 0 (by decide)

/-- A bitmap that comes in, with the frame that is current at its time. -/
structure Received (width height : NonZeroU16) (stride : Nat) where
  (full view : BitmapUpdate)
  isFull : IsFull width height full
  stride_eq : full.stride = stride
  viewOf : ViewOf full view

variable {stride : Nat}

def retained (received : List (Received width height stride)) : Option BitmapUpdate :=
  received.foldl
    (fun pending next => retainBitmapDuringResize pending next.view width height true) none

theorem retained_append (earlier : List (Received width height stride))
    (last : Received width height stride) :
    retained (earlier ++ [last]) =
      retainBitmapDuringResize (retained earlier) last.view width height true := by
  rw [retained, List.foldl_append]
  rfl

def Covers (b : BitmapUpdate) (received : List (Received width height stride)) : Prop :=
  ∀ one ∈ received, ∀ column row, one.view.Contains column row → b.Contains column row

/-- Wherever it is painted, the pixels of the frame appear. -/
def Shows (b full : BitmapUpdate) : Prop :=
  ∀ column row, b.Contains column row → ∀ screen, paint screen b column row = full.pixel column row

variable {b : BitmapUpdate}

theorem contains_of_coversDesktop (h : coversDesktop b width height = true) :
    b.Contains column row ↔ column < width.get ∧ row < height.get := by
  simp only [coversDesktop, Bool.and_eq_true, decide_eq_true_eq] at h
  obtain ⟨⟨⟨hx, hy⟩, hwidth⟩, hheight⟩ := h
  simp [BitmapUpdate.Contains, hx, hy, hwidth, hheight]

/-- A retained full-desktop bitmap makes the partial one that comes in go. -/
def Drops (b : BitmapUpdate) (next : Received width height stride) : Prop :=
  coversDesktop b width height = true ∧ coversDesktop next.view width height = false

variable {next : Received width height stride}

theorem retain_of_drops (h : Drops b next) :
    retainBitmapDuringResize (some b) next.view width height true = some b := by
  simp [retainBitmapDuringResize, h.1, h.2]

theorem retain_of_not_drops (h : ¬ Drops b next) :
    retainBitmapDuringResize (some b) next.view width height true = some (b.union next.view) := by
  cases hb : coversDesktop b width height <;> cases hnext : coversDesktop next.view width height <;>
    simp_all [retainBitmapDuringResize, Drops]

theorem covers_of_drops (h : Drops b next) (hin : next.view.Contains column row) :
    b.Contains column row :=
  (contains_of_coversDesktop h.1).mpr (next.viewOf.contains_in next.isFull hin)

theorem retained_spec {received : List (Received width height stride)} (hne : received ≠ []) :
    ∃ b, retained received = some b ∧ Covers b received ∧ ∃ one ∈ received, ViewOf one.full b := by
  induction received using List.reverseRecOn with
  | nil => exact absurd rfl hne
  | append_singleton earlier last ih =>
    rw [retained_append]
    by_cases hfirst : earlier = []
    · subst hfirst
      exact ⟨last.view, rfl, by simp [Covers], last, by simp, last.viewOf⟩
    obtain ⟨b, hb, hcovers, old, hold, hview⟩ := ih hfirst
    rw [hb]
    by_cases hdrops : Drops b last
    · refine ⟨b, retain_of_drops hdrops, ?_, old, by simp [hold], hview⟩
      simp only [Covers, List.mem_append, List.mem_singleton]
      rintro one (hone | rfl) column row hin
      · exact hcovers one hone column row hin
      · exact covers_of_drops hdrops hin
    · obtain ⟨hunion, hboth⟩ :=
        hview.union old.isFull last.isFull (old.stride_eq.trans last.stride_eq.symm) last.viewOf
      refine ⟨_, retain_of_not_drops hdrops, ?_, last, by simp, hunion⟩
      simp only [Covers, List.mem_append, List.mem_singleton]
      rintro one (hone | rfl) column row hin
      · exact hboth column row (.inl (hcovers one hone column row hin))
      · exact hboth column row (.inr hin)

/-- The retained bitmap covers all that has come in and shows the newest frame if and only if a
partial bitmap is dropped only where the full one retained before it shows that frame already. -/
theorem retained_shows_newest_iff (earlier : List (Received width height stride))
    (last : Received width height stride) :
    (∃ b,
       retained (earlier ++ [last]) = some b ∧ Covers b (earlier ++ [last]) ∧ Shows b last.full) ↔
      ∀ b, retained earlier = some b → Drops b last → Shows b last.full := by
  have hshows : ∀ {b}, ViewOf last.full b → Shows b last.full := fun hview column row hin screen =>
    hview.paint_eq last.isFull screen hin
  obtain ⟨after, hafter, hcovers, -⟩ := retained_spec (by simp : earlier ++ [last] ≠ [])
  simp only [hafter, some.injEq, exists_eq_left', hcovers, true_and]
  rw [retained_append] at hafter
  by_cases hfirst : earlier = []
  · subst hfirst
    cases hafter
    simp [retained, hshows last.viewOf]
  obtain ⟨b, hb, -, old, -, hview⟩ := retained_spec hfirst
  simp only [hb, some.injEq, forall_eq']
  rw [hb] at hafter
  by_cases hdrops : Drops b last
  · rw [retain_of_drops hdrops] at hafter
    cases hafter
    simp [hdrops]
  · rw [retain_of_not_drops hdrops] at hafter
    cases hafter
    have hunion :=
      hview.union old.isFull last.isFull (old.stride_eq.trans last.stride_eq.symm) last.viewOf
    simp [hdrops, hshows hunion.1]

/-- A full frame and then the right pixel of a newer one: the older frame is retained. -/
theorem stale_frame_retained :
    ∃ earlier last : Received two one 8,
      retained [earlier, last] = some (pair 1) ∧
      last.full = pair 2 ∧
      ¬ Shows (pair 1) last.full := by
  refine ⟨⟨pair 1, pair 1, isFull_pair 1, rfl, (isFull_pair 1).viewOf_self⟩,
    ⟨pair 2, { pair 2 with x := 1, width := one, srcX := 1 }, isFull_pair 2, rfl,
      ⟨rfl, rfl, rfl, rfl, by decide, by decide⟩⟩,
    rfl, rfl, fun h => ?_⟩
  exact absurd (h 0 0 (by decide) fun _ _ => ⟨0, 0, 0⟩) (by decide)

end Kmsrdp.Guarantees.BitmapViews
