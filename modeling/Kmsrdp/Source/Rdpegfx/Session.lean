import Kmsrdp.Source.Rdpegfx.Pdu

/-!
# The GFX session

Model of `Inner`, `GfxSession` and `GfxDvcHandler` in `rdpcore-rdpegfx/src/session.rs`. What the
H.264 encoder returns is an argument, `none` for an error.
-/
namespace Kmsrdp.Source.Rdpegfx
open Library.ByteString Source.Pdu

def defaultSurfaceId : Nat := 1
def maxFramesInFlight : Nat := 32
def queueDepthUnavailable : Nat := 0xffffffff
def idrIntervalFrames : Nat := 30
def encodeFailFallback : Nat := 3

structure EncodedAu where
  annexB : Bytes
  qp : UInt8

inductive GfxFrameResult where
  | frames (payloads : List Bytes)
  | skip
  | fallback (teardown : List Bytes)
  deriving DecidableEq

inductive State where
  | waitCaps
  | ready
  | failed
  deriving DecidableEq

structure Inner where
  state : State
  surfaceConfigured : Bool
  (surfaceId width height nextFrameId framesInFlight framesSent : Nat)
  forceNextIdr : Bool
  timestampMs : Nat
  encodeFailures : Nat

def nextId (w v : Nat) : Nat := max ((v + 1) % 2 ^ w) 1

def satSucc (w v : Nat) : Nat := min (v + 1) (2 ^ w - 1)

namespace Inner

def new (width height : Nat) : Inner :=
  { state := .waitCaps, surfaceConfigured := false, surfaceId := defaultSurfaceId, width, height
    nextFrameId := 1, framesInFlight := 0, framesSent := 0, forceNextIdr := true, timestampMs := 0
    encodeFailures := 0 }

def isReady (inner : Inner) : Bool := inner.state = .ready

def setupPdus (inner : Inner) : List Bytes :=
  [encodeResetGraphics inner.width inner.height
      [⟨0, 0, (inner.width : Int) - 1, (inner.height : Int) - 1, true⟩],
    encodeCreateSurface inner.surfaceId inner.width inner.height,
    encodeMapSurfaceToOutput inner.surfaceId 0 0]

def onCaps (inner : Inner) (sets : List RawCapabilitySet) : List Bytes × Inner :=
  match selectAvc420Capability sets with
  | none => ([], { inner with state := .failed })
  | some selected =>
    let live := inner.state = .ready ∧ inner.surfaceConfigured
    let teardown := if live then [encodeSegmented (encodeDeleteSurface inner.surfaceId)] else []
    let inner := { inner with
      surfaceId := if live then nextId 16 inner.surfaceId else inner.surfaceId
      state := .ready
      forceNextIdr := true
      framesInFlight := 0
      framesSent := 0
      encodeFailures := 0 }
    let confirm := teardown ++ [encodeSegmented (encodeCapsConfirm selected)]
    if 0 < inner.width ∧ 0 < inner.height then
      (confirm ++ inner.setupPdus.map encodeSegmented, { inner with surfaceConfigured := true })
    else (confirm, { inner with surfaceConfigured := false })

def onFrameAck (inner : Inner) (queueDepth : Nat) : Inner :=
  { inner with
    framesInFlight := if queueDepth = queueDepthUnavailable then 0
      else min queueDepth maxFramesInFlight }

def resize (inner : Inner) (width height : Nat) : Option (List Bytes) × Inner :=
  if width = 0 ∨ height = 0 then (none, inner)
  else if inner.surfaceConfigured ∧ inner.width = width ∧ inner.height = height then (none, inner)
  else
    let oldSurface := inner.surfaceId
    let hadSurface := inner.surfaceConfigured
    let inner := { inner with
      width
      height
      surfaceId := if hadSurface then nextId 16 inner.surfaceId else inner.surfaceId
      forceNextIdr := true
      framesInFlight := 0
      surfaceConfigured := false }
    if inner.state ≠ .ready then (none, inner)
    else
      let teardown := if hadSurface then [encodeSegmented (encodeDeleteSurface oldSurface)] else []
      (some (teardown ++ inner.setupPdus.map encodeSegmented), { inner with surfaceConfigured := true })

def abandon (inner : Inner) : List Bytes × Inner :=
  if inner.surfaceConfigured then
    ([encodeSegmented (encodeDeleteSurface inner.surfaceId)],
      { inner with surfaceConfigured := false, state := .failed })
  else ([], { inner with state := .failed })

def recordEncodeFailure (inner : Inner) : GfxFrameResult × Inner :=
  let inner := { inner with encodeFailures := satSucc 32 inner.encodeFailures }
  if encodeFailFallback ≤ inner.encodeFailures then
    (.fallback inner.abandon.1, inner.abandon.2)
  else (.skip, inner)

def beginEncode (inner : Inner) (width height : Nat) :
    Except GfxFrameResult (List Bytes × Bool) × Inner :=
  if inner.state ≠ .ready then (.error .skip, inner)
  else if width = 0 ∨ height = 0 then (.error .skip, inner)
  else
    let resized :=
      if ¬ inner.surfaceConfigured ∨ inner.width ≠ width ∨ inner.height ≠ height then
        inner.resize width height
      else (none, inner)
    let inner := resized.2
    if inner.state ≠ .ready then (.error .skip, inner)
    else if ¬ inner.surfaceConfigured then (.error .skip, inner)
    else if maxFramesInFlight ≤ inner.framesInFlight then (.error .skip, inner)
    else
      (.ok (resized.1.getD [],
        inner.forceNextIdr || inner.framesSent = 0 || inner.framesSent % idrIntervalFrames = 0), inner)

def finishEncode (inner : Inner) (width height : Nat) (encoded : EncodedAu) : List Bytes × Inner :=
  let frameId := inner.nextFrameId
  let inner := { inner with
    encodeFailures := 0
    forceNextIdr := false
    nextFrameId := nextId 32 inner.nextFrameId
    timestampMs := (inner.timestampMs + 33) % 2 ^ 32
    framesInFlight := satSucc 32 inner.framesInFlight
    framesSent := satSucc 64 inner.framesSent }
  let bitmap := encodeAvc420BitmapStream width height encoded.qp 100 encoded.annexB
  ([encodeSegmented (encodeStartFrame inner.timestampMs frameId),
    encodeSegmented (encodeWireToSurface1Avc420 inner.surfaceId width height bitmap),
    encodeSegmented (encodeEndFrame frameId)], inner)

def usable (encoded : Option EncodedAu) : Option EncodedAu :=
  encoded.filter fun au => au.annexB ≠ []

/-- What follows the encode: `first` is the result of the first call of the encoder and `retry`
that of the second, made with a forced IDR when the first gave nothing. -/
def endEncode (inner : Inner) (width height : Nat) (leading : List Bytes)
    (first retry : Option EncodedAu) : GfxFrameResult × Inner :=
  match usable first with
  | some encoded =>
    let finished := inner.finishEncode width height encoded
    (.frames (leading ++ finished.1), finished.2)
  | none =>
    match usable retry with
    | some encoded =>
      let finished := inner.finishEncode width height encoded
      (.frames (leading ++ finished.1), finished.2)
    | none => recordEncodeFailure { inner with forceNextIdr := true }

def encodeFrame (inner : Inner) (width height : Nat) (first retry : Option EncodedAu) :
    GfxFrameResult × Inner :=
  let begun := inner.beginEncode width height
  match begun.1 with
  | .error result => (result, begun.2)
  | .ok (leading, _) => begun.2.endEncode width height leading first retry

def onClientMessage (inner : Inner) : ClientMessage → List Bytes × Inner
  | .capsAdvertise sets => inner.onCaps sets
  | .frameAcknowledge queueDepth _ _ => ([], inner.onFrameAck queueDepth)
  | .cacheImportOffer => ([], inner)
  | .other _ => ([], inner)

/-- The loop of `GfxDvcHandler::on_data`. A PDU has at least eight bytes, so the length of the
data is always enough turns. -/
def onDataUpTo : Nat → Inner → Bytes → List Bytes × Inner
  | 0, inner, _ => ([], inner)
  | turns + 1, inner, rest =>
    if rest = [] then ([], inner)
    else
      match decodeClientMessage rest, decodeFrom (advance 4 >>= fun _ => readU32Le) rest with
      | .ok message, .ok pduLength =>
        if pduLength < 8 ∨ rest.length < pduLength then ([], inner)
        else
          let handled := inner.onClientMessage message
          let later := onDataUpTo turns handled.2 (rest.drop pduLength)
          (handled.1 ++ later.1, later.2)
      | _, _ => ([], inner)

def onData (inner : Inner) (data : Bytes) : List Bytes × Inner := onDataUpTo data.length inner data

theorem nextId_lt (v : Nat) : nextId 16 v < 65536 := by
  unfold nextId
  omega

theorem nextId_ne (v : Nat) : nextId 16 v ≠ v := by
  unfold nextId
  omega

def Deletes (inner : Inner) : Prop := inner.state = .ready ∧ inner.surfaceConfigured = true

instance (inner : Inner) : Decidable inner.Deletes := inferInstanceAs (Decidable (_ ∧ _))

def renegotiated (inner : Inner) : Inner :=
  { inner with
    surfaceId := if inner.Deletes then nextId 16 inner.surfaceId else inner.surfaceId
    state := .ready
    forceNextIdr := true
    framesInFlight := 0
    framesSent := 0
    encodeFailures := 0 }

variable {inner : Inner}

theorem onCaps_of_none {sets : List RawCapabilitySet} (h : selectAvc420Capability sets = none) :
    inner.onCaps sets = ([], { inner with state := .failed }) := by
  unfold onCaps
  rw [h]

theorem onCaps_of_some {sets : List RawCapabilitySet} {selected : RawCapabilitySet}
    (h : selectAvc420Capability sets = some selected) :
    inner.onCaps sets =
      ((if inner.Deletes then [encodeSegmented (encodeDeleteSurface inner.surfaceId)] else []) ++
          [encodeSegmented (encodeCapsConfirm selected)] ++
          (if 0 < inner.width ∧ 0 < inner.height
            then inner.renegotiated.setupPdus.map encodeSegmented else []),
        { inner.renegotiated with
          surfaceConfigured := decide (0 < inner.width ∧ 0 < inner.height) }) := by
  unfold onCaps
  rw [h]
  by_cases hsize : 0 < inner.width ∧ 0 < inner.height
  · rw [if_pos hsize, decide_eq_true hsize]
    exact if_pos hsize
  · rw [if_neg hsize, decide_eq_false hsize, List.append_nil]
    exact if_neg hsize

def resized (inner : Inner) (width height : Nat) : Inner :=
  { inner with
    width
    height
    surfaceId := if inner.surfaceConfigured then nextId 16 inner.surfaceId else inner.surfaceId
    forceNextIdr := true
    framesInFlight := 0
    surfaceConfigured := false }

def Resizes (inner : Inner) (width height : Nat) : Prop :=
  width ≠ 0 ∧ height ≠ 0 ∧
    ¬ (inner.surfaceConfigured = true ∧ inner.width = width ∧ inner.height = height)

instance (inner : Inner) (width height : Nat) : Decidable (inner.Resizes width height) :=
  inferInstanceAs (Decidable (_ ∧ _))

def resizePdus (inner : Inner) (width height : Nat) : List Bytes :=
  (if inner.surfaceConfigured then [encodeSegmented (encodeDeleteSurface inner.surfaceId)] else []) ++
    (inner.resized width height).setupPdus.map encodeSegmented

theorem resize_of_not_resizes {width height : Nat} (h : ¬ inner.Resizes width height) :
    inner.resize width height = (none, inner) := by
  unfold resize
  split
  · rfl
  · next hzero =>
    rw [if_pos]
    by_contra hsame
    exact h ⟨fun hw => hzero (.inl hw), fun hh => hzero (.inr hh), hsame⟩

theorem resize_of_resizes {width height : Nat} (h : inner.Resizes width height) :
    inner.resize width height =
      if inner.state = .ready then
        (some (inner.resizePdus width height),
          { inner.resized width height with surfaceConfigured := true })
      else (none, inner.resized width height) := by
  unfold resize
  rw [if_neg (by rintro (hw | hh); exacts [h.1 hw, h.2.1 hh]), if_neg h.2.2]
  show (if inner.state ≠ .ready then (none, inner.resized width height)
    else (some (inner.resizePdus width height),
      { inner.resized width height with surfaceConfigured := true })) = _
  by_cases hstate : inner.state = .ready
  · rw [if_pos hstate, if_neg (not_not.mpr hstate)]
  · rw [if_neg hstate, if_pos hstate]

def forcesIdr (inner : Inner) : Bool :=
  inner.forceNextIdr || inner.framesSent = 0 || inner.framesSent % idrIntervalFrames = 0

/-- `begin_encode` does nothing, or it goes on with the frame; a size that differs is taken
over first, and that cannot be refused. -/
inductive Begun (inner : Inner) (width height : Nat) :
    Except GfxFrameResult (List Bytes × Bool) × Inner → Prop
  | skipped (hkept : ¬ (inner.state = .ready ∧ inner.Resizes width height)) :
      Begun inner width height (.error .skip, inner)
  | same (hstate : inner.state = .ready) (hconfigured : inner.surfaceConfigured = true)
      (hwidth : inner.width = width) (hheight : inner.height = height) :
      Begun inner width height (.ok ([], inner.forcesIdr), inner)
  | resized (hstate : inner.state = .ready) (hresizes : inner.Resizes width height) :
      Begun inner width height
        (.ok (inner.resizePdus width height, true),
          { inner.resized width height with surfaceConfigured := true })

/-- `Begun` has every case of `begin_encode`. -/
theorem begun_beginEncode (inner : Inner) (width height : Nat) :
    inner.Begun width height (inner.beginEncode width height) := by
  unfold beginEncode
  split
  · next hstate => exact .skipped fun hboth => hstate hboth.1
  · next hstate =>
    have hready : inner.state = .ready := not_not.mp hstate
    split
    · next hzero => exact .skipped fun hboth => hzero.elim hboth.2.1 hboth.2.2.1
    · next hzero =>
      by_cases hdiffers : ¬ inner.surfaceConfigured ∨ inner.width ≠ width ∨ inner.height ≠ height
      · have hresizes : inner.Resizes width height := by
          refine ⟨fun hw => hzero (.inl hw), fun hh => hzero (.inr hh), fun hsame => ?_⟩
          rcases hdiffers with h | h | h
          exacts [h hsame.1, h hsame.2.1, h hsame.2.2]
        have hinFlight : ¬ maxFramesInFlight ≤ (inner.resized width height).framesInFlight := by
          show ¬ maxFramesInFlight ≤ 0
          decide
        have hstill : ¬ ({ inner.resized width height with surfaceConfigured := true }.state ≠
            .ready) := hstate
        simp only [if_pos hdiffers, resize_of_resizes hresizes, if_pos hready, Option.getD_some,
          if_neg hstill, not_true_eq_false, if_false]
        rw [if_neg hinFlight]
        exact .resized hready hresizes
      · simp only [if_neg hdiffers]
        simp only [not_or, not_not] at hdiffers
        obtain ⟨hconfigured, hwidth, hheight⟩ := hdiffers
        simp only [hready, hconfigured, ne_eq, not_true_eq_false, if_false]
        split
        · exact .skipped fun hboth => hboth.2.2.2 ⟨hconfigured, hwidth, hheight⟩
        · exact .same hready hconfigured hwidth hheight

inductive Ended (inner : Inner) (width height : Nat) (leading : List Bytes)
    (first retry : Option EncodedAu) :
    GfxFrameResult × Inner → Prop
  | first (encoded : EncodedAu) (hfirst : usable first = some encoded) :
      Ended inner width height leading first retry
        (.frames (leading ++ (inner.finishEncode width height encoded).1),
          (inner.finishEncode width height encoded).2)
  | retry (encoded : EncodedAu) (hfirst : usable first = none) (hretry : usable retry = some encoded) :
      Ended inner width height leading first retry
        (.frames (leading ++ (inner.finishEncode width height encoded).1),
          (inner.finishEncode width height encoded).2)
  | failed (hfirst : usable first = none) (hretry : usable retry = none) :
      Ended inner width height leading first retry
        (recordEncodeFailure { inner with forceNextIdr := true })

theorem ended_endEncode (inner : Inner) (width height : Nat) (leading : List Bytes)
    (first retry : Option EncodedAu) :
    inner.Ended width height leading first retry
      (inner.endEncode width height leading first retry) := by
  unfold endEncode
  split
  · next encoded hfirst => exact .first encoded hfirst
  · next hfirst =>
    split
    · next encoded hretry => exact .retry encoded hfirst hretry
    · next hretry => exact .failed hfirst hretry

end Inner
end Kmsrdp.Source.Rdpegfx
