import Kmsrdp.Source.Pdu.BitmapRect
import Kmsrdp.Source.Pdu.Rdp6
import Kmsrdp.Source.Server.Fragments

/-!
# A client that shows bitmap updates

A client that decodes fast-path frames, puts fragments together and paints the rectangles, with the
decoders of the repository.
-/
namespace Kmsrdp.Client.BitmapPainter
open Library.Bgrx Library.ByteString Source.Pdu Source.Server.Fragments List FastPathOutput

/-- The updates of a sequence of fragments, as update code and body; `pending` is the update
under construction. -/
def reassemble : Option (UInt8 × Bytes) → List FastPathUpdatePdu → Option (List (UInt8 × Bytes))
  | none, [] => some []
  | none, ⟨code, .single, data⟩ :: rest => ((code, data) :: ·) <$> reassemble none rest
  | none, ⟨code, .first, data⟩ :: rest => reassemble (some (code, data)) rest
  | some (code, body), ⟨code', .next, data⟩ :: rest =>
    if code' = code then reassemble (some (code, body ++ data)) rest else none
  | some (code, body), ⟨code', .last, data⟩ :: rest =>
    if code' = code then ((code, body ++ data) :: ·) <$> reassemble none rest else none
  | _, _ => none

def decodeFrames (frames : List Bytes) : Option (List FastPathUpdatePdu) :=
  List.flatten <$> frames.mapM fun frame =>
    (FastPathOutput.decode frame).toOption.map FastPathOutput.updates

def receivedUpdates (frames : List Bytes) : Option (List (UInt8 × Bytes)) := do
  let fragments ← decodeFrames frames
  reassemble none fragments

abbrev Canvas := Nat → Nat → Option Pixel

def blank : Canvas := fun _ _ => none

def rectPixels (rect : BitmapRect) : Option (List Pixel) :=
  match rect.compressedScanWidth with
  | some _ => (Rdp6.decode rect.data rect.width rect.height).toOption.map pixels
  | none => some (pixels rect.data)

def Covers (rect : BitmapRect) (column row : Nat) : Prop :=
  (rect.destLeft ≤ column ∧ column ≤ rect.destRight ∧ column - rect.destLeft < rect.width) ∧
    (rect.destTop ≤ row ∧ row ≤ rect.destBottom ∧ row - rect.destTop < rect.height)

instance (rect : BitmapRect) (column row : Nat) : Decidable (Covers rect column row) :=
  inferInstanceAs (Decidable (_ ∧ _))

def paintPixels (rect : BitmapRect) (px : List Pixel) (canvas : Canvas) : Canvas :=
  fun column row =>
  if Covers rect column row then
    px[(rect.height - 1 - (row - rect.destTop)) * rect.width + (column - rect.destLeft)]?
  else canvas column row

def paintRect (canvas : Canvas) (rect : BitmapRect) : Option Canvas :=
  (rectPixels rect).map fun px => paintPixels rect px canvas

def paintUpdate (canvas : Canvas) (update : UInt8 × Bytes) : Option Canvas :=
  if update.1 = updateCodeBitmap then
    match BitmapUpdateData.decode update.2 with
    | .ok data => data.rectangles.foldlM paintRect canvas
    | .error _ => none
  else none

def paintFrames (frames : List Bytes) : Option Canvas := do
  let fragments ← decodeFrames frames
  let updates ← reassemble none fragments
  updates.foldlM paintUpdate blank

theorem paintFrames_eq_bind (frames : List Bytes) :
    paintFrames frames =
      (receivedUpdates frames).bind fun updates => updates.foldlM paintUpdate blank := by
  unfold paintFrames receivedUpdates
  cases decodeFrames frames with
  | none => rfl
  | some fragments => rfl

theorem reassemble_continuation {code : UInt8} {fragments : List FastPathUpdatePdu}
    (h : Continuation code fragments)
    (body : Bytes) (rest : List FastPathUpdatePdu) :
    reassemble (some (code, body)) (fragments ++ rest) =
      ((code, body ++ fragments.flatMap FastPathUpdatePdu.data) :: ·) <$> reassemble none rest := by
  induction h generalizing body with
  | last data => simp [reassemble]
  | next data _ ih => simp [reassemble, ih]

theorem reassemble_fragmentSequence {code : UInt8} {fragments : List FastPathUpdatePdu}
    (h : FragmentSequence code fragments)
    (hne : fragments ≠ [])
    (rest : List FastPathUpdatePdu) :
    reassemble none (fragments ++ rest) =
      ((code, fragments.flatMap FastPathUpdatePdu.data) :: ·) <$> reassemble none rest := by
  cases h with
  | nil => exact absurd rfl hne
  | single data => simp [reassemble]
  | first data hrest =>
    rw [cons_append, reassemble, reassemble_continuation hrest]
    rfl

theorem decodeFrames_encode {updates : List FastPathUpdatePdu}
    (h : ∀ update ∈ updates, update.updateCode < 16 ∧ update.data.length ≤ maxFastpathChunkSize) :
    decodeFrames (updates.map fun update => encode ⟨[update]⟩) = some updates := by
  have hmap : (updates.map fun update => encode ⟨[update]⟩).mapM (fun frame =>
      (FastPathOutput.decode frame).toOption.map FastPathOutput.updates) =
      some (updates.map fun update => [update]) := by
    induction updates with
    | nil => rfl
    | cons update rest ih =>
      have hfirst := h update mem_cons_self
      have hrest := ih fun update hupdate => h update (mem_cons_of_mem _ hupdate)
      rw [map_cons, mapM_cons, hrest, decode_encode_single hfirst.1 hfirst.2]
      rfl
  rw [decodeFrames, hmap]
  exact congrArg some (flatMap_singleton' updates)

theorem reassemble_fragments (code : UInt8) {body : Bytes}
    (hbody : body ≠ [])
    (maxRequestSize : Nat) (rest : List FastPathUpdatePdu) :
    reassemble none (fragments code body maxRequestSize ++ rest) =
      ((code, body) :: ·) <$> reassemble none rest := by
  have hdata := flatMap_data_fragments code body maxRequestSize
  have hne : fragments code body maxRequestSize ≠ [] := by
    intro hnone
    rw [hnone] at hdata
    exact hbody hdata.symm
  rw [reassemble_fragmentSequence (fragmentSequence_fragments code body maxRequestSize) hne, hdata]

theorem reassemble_updates {updates : List (UInt8 × Bytes)}
    (h : ∀ update ∈ updates, update.2 ≠ [])
    (maxRequestSize : Nat) :
    reassemble none (updates.flatMap fun update => fragments update.1 update.2 maxRequestSize) =
      some updates := by
  induction updates with
  | nil => rfl
  | cons update rest ih =>
    rw [flatMap_cons, reassemble_fragments _ (h update mem_cons_self),
      ih fun update hupdate => h update (mem_cons_of_mem _ hupdate)]
    rfl

/-- The client reassembles the updates that were sent. -/
theorem receivedUpdates_encode {updates : List (UInt8 × Bytes)}
    (h : ∀ update ∈ updates, update.1 < 16 ∧ update.2 ≠ [])
    (maxRequestSize : Nat) :
    receivedUpdates
      (updates.flatMap fun update => encodeUpdateToWireFrames update.1 update.2 maxRequestSize) =
      some updates := by
  have hframes : (updates.flatMap fun update => encodeUpdateToWireFrames update.1 update.2
      maxRequestSize) =
      (updates.flatMap fun update => fragments update.1 update.2 maxRequestSize).map
        fun fragment => encode ⟨[fragment]⟩ := by
    rw [map_flatMap]
    rfl
  have hsmall : ∀ fragment ∈ updates.flatMap fun update => fragments update.1 update.2 maxRequestSize,
      fragment.updateCode < 16 ∧ fragment.data.length ≤ maxFastpathChunkSize := by
    intro fragment hfragment
    obtain ⟨update, hupdate, hmem⟩ := mem_flatMap.mp hfragment
    rw [updateCode_of_mem_fragments hmem]
    exact ⟨(h update hupdate).1, data_le_of_mem_fragments hmem⟩
  rw [receivedUpdates, hframes, decodeFrames_encode hsmall]
  exact reassemble_updates (fun update hupdate => (h update hupdate).2) maxRequestSize

end Kmsrdp.Client.BitmapPainter
