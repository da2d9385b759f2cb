import Mathlib.Data.List.AList
import Kmsrdp.Source.Rdpegfx.Session

/-!
# A client's surfaces

The surfaces created and not deleted since, with their sizes and whether a frame has been written to
them.
-/
namespace Kmsrdp.Client.GfxSurfaces
open Library.ByteString Library.Chunks Source.Pdu Source.Rdpegfx List AList Inner

inductive Command where
  | createSurface (surfaceId width height : Nat)
  | deleteSurface (surfaceId : Nat)
  | wireToSurface (surfaceId width height : Nat)
  | other

def firstSegment : Bytes → Bytes
  | [] => []
  | descriptor :: rest => if descriptor = segmentedSingle then rest.drop 1 else rest.drop 11

def readBody (cmdId : Nat) : Decoder Command :=
  if cmdId = cmdCreateSurface then do
    let surfaceId ← readU16Le
    let width ← readU16Le
    let height ← readU16Le
    return .createSurface surfaceId width height
  else if cmdId = cmdDeleteSurface then do
    let surfaceId ← readU16Le
    return .deleteSurface surfaceId
  else if cmdId = cmdWireToSurface1 then do
    let surfaceId ← readU16Le
    let _codecId ← readU16Le
    let _pixelFormat ← readU8
    let left ← readU16Le
    let top ← readU16Le
    let right ← readU16Le
    let bottom ← readU16Le
    return .wireToSurface surfaceId (right - left) (bottom - top)
  else return .other

def readCommand : Decoder Command := do
  let cmdId ← readU16Le
  let _flags ← readU16Le
  let _pduLength ← readU32Le
  readBody cmdId

def command (message : Bytes) : Command :=
  match decodeFrom readCommand (firstSegment message) with
  | .ok command => command
  | .error _ => .other

theorem firstSegment_encodeSegmented {front : Bytes}
    (hfront : front.length ≤ zgfxMaxSegmentPayload)
    (back : Bytes) : ∃ rest, firstSegment (encodeSegmented (front ++ back)) = front ++ rest := by
  unfold encodeSegmented
  split
  · exact ⟨back, rfl⟩
  · next hlong =>
    obtain ⟨pieces, -, hpieces⟩ :=
      chunks_of_lt (n := zgfxMaxSegmentPayload) (l := front ++ back) (by decide)
      (by omega)
    have hfirst : (front ++ back).take zgfxMaxSegmentPayload =
        front ++ back.take (zgfxMaxSegmentPayload - front.length) := by
      rw [take_append, take_of_length_le hfront]
    simp only [hpieces, hfirst, flatMap_cons, append_assoc]
    exact ⟨_, rfl⟩

theorem command_gfxPdu {cmdId : Nat} {front : Bytes} {result : Command}
    (hcmd : cmdId < 65536)
    (hfront : front.length ≤ 100)
    (hread : ∀ rest, ∃ left, readBody cmdId (front ++ rest) = .ok (result, left))
    (back : Bytes) : command (encodeSegmented (gfxPdu cmdId (front ++ back))) = result := by
  set header := u16Le cmdId ++ u16Le 0 ++ u32Le (gfxHeaderSize + (front ++ back).length) with hheader
  have hlength : (header ++ front).length ≤ zgfxMaxSegmentPayload := by
    have h8 : header.length = 8 := rfl
    rw [length_append, h8]
    unfold zgfxMaxSegmentPayload
    omega
  obtain ⟨rest, hsegment⟩ := firstSegment_encodeSegmented hlength back
  obtain ⟨left, hok⟩ := hread rest
  have hpdu : gfxPdu cmdId (front ++ back) = header ++ front ++ back := (append_assoc _ _ _).symm
  have hcommand : readCommand (header ++ front ++ rest) = .ok (result, left) := by
    rw [hheader]
    unfold readCommand
    simp only [append_assoc]
    rw [bind_ok (readU16Le_of_lt hcmd _), bind_ok (readU16Le_u16Le _ _),
      bind_ok (readU32Le_u32Le _ _), hok]
  unfold command decodeFrom
  rw [hpdu, hsegment, hcommand]
  rfl

variable {surfaceId width height : Nat}

theorem command_createSurface
    (hid : surfaceId < 65536)
    (hwidth : width < 65536)
    (hheight : height < 65536) :
    command (encodeSegmented (encodeCreateSurface surfaceId width height)) =
      .createSurface surfaceId width height := by
  have hread : ∀ rest, ∃ left,
      readBody cmdCreateSurface (u16Le surfaceId ++ u16Le width ++ u16Le height ++ rest) =
        .ok (.createSurface surfaceId width height, left) := by
    intro rest
    refine ⟨rest, ?_⟩
    unfold readBody
    rw [if_pos rfl]
    simp only [append_assoc]
    rw [bind_ok (readU16Le_of_lt hid _), bind_ok (readU16Le_of_lt hwidth _),
      bind_ok (readU16Le_of_lt hheight _)]
    rfl
  exact command_gfxPdu (by decide) (by simp) hread [pixelFormatXrgb]

theorem command_deleteSurface (hid : surfaceId < 65536) :
    command (encodeSegmented (encodeDeleteSurface surfaceId)) = .deleteSurface surfaceId := by
  have hread : ∀ rest, ∃ left, readBody cmdDeleteSurface (u16Le surfaceId ++ rest) =
      .ok (.deleteSurface surfaceId, left) := by
    intro rest
    refine ⟨rest, ?_⟩
    unfold readBody
    rw [if_neg (by decide), if_pos rfl, bind_ok (readU16Le_of_lt hid _)]
    rfl
  have h := command_gfxPdu (by decide) (by simp) hread []
  rwa [append_nil] at h

theorem command_wireToSurface
    (hid : surfaceId < 65536)
    (hwidth : width < 65536)
    (hheight : height < 65536)
    (bitmapData : Bytes) :
    command (encodeSegmented (encodeWireToSurface1Avc420 surfaceId width height bitmapData)) =
      .wireToSurface surfaceId width height := by
  have hread : ∀ rest, ∃ left, readBody cmdWireToSurface1
          (u16Le surfaceId ++ u16Le codecAvc420 ++ [pixelFormatXrgb] ++
            Rect16.encode ⟨0, 0, width, height⟩ ++ rest) =
        .ok (.wireToSurface surfaceId width height, left) := by
    intro rest
    refine ⟨rest, ?_⟩
    unfold readBody Rect16.encode
    rw [if_neg (by decide), if_neg (by decide), if_pos rfl]
    simp only [append_assoc]
    rw [bind_ok (readU16Le_of_lt hid _), bind_ok (readU16Le_u16Le _ _), singleton_append,
      bind_ok (readU8_cons _ _),
      bind_ok (readU16Le_of_lt (by decide) _), bind_ok (readU16Le_of_lt (by decide) _),
      bind_ok (readU16Le_of_lt hwidth _), bind_ok (readU16Le_of_lt hheight _)]
    rfl
  have h := command_gfxPdu (by decide) (by simp [Rect16.encode]) hread
    (u32Le bitmapData.length ++ bitmapData)
  simpa only [encodeWireToSurface1Avc420, append_assoc] using h

theorem command_other {cmdId : Nat}
    (hcmd : cmdId < 65536)
    (hcreate : cmdId ≠ cmdCreateSurface)
    (hdelete : cmdId ≠ cmdDeleteSurface)
    (hwire : cmdId ≠ cmdWireToSurface1)
    (body : Bytes) : command (encodeSegmented (gfxPdu cmdId body)) = .other := by
  have hread : ∀ rest, ∃ left, readBody cmdId (([] : Bytes) ++ rest) = .ok (.other, left) := by
    intro rest
    refine ⟨rest, ?_⟩
    unfold readBody
    rw [if_neg hcreate, if_neg hdelete, if_neg hwire]
    rfl
  exact command_gfxPdu hcmd (Nat.zero_le _) hread body

structure Surface where
  width : Nat
  height : Nat
  written : Bool
  deriving DecidableEq

inductive Fault where
  | createLive (surfaceId : Nat)
  | deleteMissing (surfaceId : Nat)
  | writeMissing (surfaceId : Nat)
  | writeWrongSize (surfaceId : Nat)
  | firstNotIdr (surfaceId : Nat)
  deriving DecidableEq

structure Surfaces where
  live : AList fun _ : Nat => Surface
  faults : List Fault

def Surfaces.empty : Surfaces := ⟨∅, []⟩

def frameFaults (idr : Bool) (surfaceId width height : Nat) (surface : Surface) : List Fault :=
  (if surface.width = width ∧ surface.height = height then [] else [.writeWrongSize surfaceId]) ++
    if surface.written ∨ idr then [] else [.firstNotIdr surfaceId]

def Surfaces.apply (idr : Bool) (c : Surfaces) : Command → Surfaces
  | .createSurface surfaceId width height =>
    { live := c.live.insert surfaceId ⟨width, height, false⟩
      faults := if (c.live.lookup surfaceId).isSome then c.faults ++ [.createLive surfaceId]
        else c.faults }
  | .deleteSurface surfaceId =>
    { live := c.live.erase surfaceId
      faults := if (c.live.lookup surfaceId).isSome then c.faults
        else c.faults ++ [.deleteMissing surfaceId] }
  | .wireToSurface surfaceId width height =>
    match c.live.lookup surfaceId with
    | none => { c with faults := c.faults ++ [.writeMissing surfaceId] }
    | some surface =>
      { live := c.live.insert surfaceId { surface with written := true }
        faults := c.faults ++ frameFaults idr surfaceId width height surface }
  | .other => c

def Surfaces.receive (idr : Bool) (c : Surfaces) (messages : List Bytes) : Surfaces :=
  messages.foldl (fun c message => c.apply idr (command message)) c

variable (idr : Bool)

@[simp] theorem Surfaces.receive_nil (c : Surfaces) : c.receive idr [] = c := rfl

@[simp] theorem Surfaces.receive_cons (c : Surfaces) (message : Bytes) (rest : List Bytes) :
    c.receive idr (message :: rest) = (c.apply idr (command message)).receive idr rest := rfl

theorem Surfaces.receive_append (c : Surfaces) (first second : List Bytes) :
    c.receive idr (first ++ second) = (c.receive idr first).receive idr second :=
  foldl_append

def surfaceAt : Option (Nat × Surface) → Nat → Option Surface
  | none, _ => none
  | some (surfaceId, surface), other => if other = surfaceId then some surface else none

@[simp] theorem surfaceAt_self (surfaceId : Nat) (surface : Surface) :
    surfaceAt (some (surfaceId, surface)) surfaceId = some surface := if_pos rfl

theorem surfaceAt_ne {other : Nat} (h : other ≠ surfaceId) (surface : Surface) :
    surfaceAt (some (surfaceId, surface)) other = none := if_neg h

def Only (c : Surfaces) (shown : Option (Nat × Surface)) : Prop :=
  ∀ surfaceId, c.live.lookup surfaceId = surfaceAt shown surfaceId

theorem only_empty : Only .empty none := fun _ => rfl

variable {c : Surfaces}
open Surfaces

theorem Only.create (h : Only c none) (idr : Bool) (surfaceId width height : Nat) :
    Only (c.apply idr (.createSurface surfaceId width height))
      (some (surfaceId, ⟨width, height, false⟩)) ∧
    (c.apply idr (.createSurface surfaceId width height)).faults = c.faults := by
  constructor
  · intro other
    by_cases hid : other = surfaceId
    · subst hid
      rw [surfaceAt_self]
      exact lookup_insert _
    · rw [surfaceAt_ne hid]
      exact (lookup_insert_ne hid).trans (h other)
  · simp [apply, h surfaceId, surfaceAt]

variable {surface : Surface}

theorem Only.delete (h : Only c (some (surfaceId, surface))) (idr : Bool) :
    Only (c.apply idr (.deleteSurface surfaceId)) none ∧
    (c.apply idr (.deleteSurface surfaceId)).faults = c.faults := by
  constructor
  · intro other
    by_cases hid : other = surfaceId
    · subst hid
      exact lookup_erase _ _
    · exact (lookup_erase_ne hid).trans ((h other).trans (surfaceAt_ne hid surface))
  · simp [apply, h surfaceId, surfaceAt]

theorem Only.write
    (h : Only c (some (surfaceId, surface)))
    {idr : Bool}
    (hidr : surface.written = false → idr = true) :
    Only (c.apply idr (.wireToSurface surfaceId surface.width surface.height))
      (some (surfaceId, { surface with written := true })) ∧
    (c.apply idr (.wireToSurface surfaceId surface.width surface.height)).faults = c.faults := by
  have hself : c.live.lookup surfaceId = some surface := by simp [h surfaceId]
  have hidr' : surface.written = true ∨ idr = true := by
    cases hwritten : surface.written with
    | true => exact .inl rfl
    | false => exact .inr (hidr hwritten)
  have hfaults : frameFaults idr surfaceId surface.width surface.height surface = [] := by
    simp [frameFaults, hidr']
  simp only [apply, hself, hfaults, append_nil, and_true]
  intro other
  by_cases hid : other = surfaceId
  · subst hid
    rw [surfaceAt_self]
    exact lookup_insert _
  · rw [surfaceAt_ne hid]
    exact (lookup_insert_ne hid).trans ((h other).trans (surfaceAt_ne hid surface))

theorem Only.create_live
    (h : Only c (some (surfaceId, surface)))
    (idr : Bool) (width height : Nat) :
    .createLive surfaceId ∈ (c.apply idr (.createSurface surfaceId width height)).faults := by
  simp [apply, h surfaceId]

theorem only_none_iff : Only c none ↔ c.live.keys = [] := by
  constructor
  · intro h
    rw [eq_nil_iff_forall_not_mem]
    intro surfaceId hmem
    have hsome := lookup_isSome.mpr (mem_keys.mp hmem)
    rw [h surfaceId] at hsome
    cases hsome
  · intro h surfaceId
    refine lookup_eq_none.mpr fun hmem => ?_
    have hkey : surfaceId ∈ c.live.keys := hmem
    rw [h] at hkey
    cases hkey

def payloadsOf : GfxFrameResult → List Bytes
  | .frames payloads => payloads
  | .skip => []
  | .fallback teardown => teardown

def sessionSurface (inner : Inner) (written : Bool) : Option (Nat × Surface) :=
  if inner.surfaceConfigured then some (inner.surfaceId, ⟨inner.width, inner.height, written⟩) else none

def avc420 : Source.Rdpegfx.RawCapabilitySet := ⟨capVersion81, [0x10, 0, 0, 0]⟩

theorem command_capsConfirm (cap : Source.Rdpegfx.RawCapabilitySet) :
    command (encodeSegmented (encodeCapsConfirm cap)) = .other :=
  command_other (by decide) (by decide) (by decide) (by decide) _

structure InRange (inner : Inner) : Prop where
  surfaceId : inner.surfaceId < 65536
  width : inner.width < 65536
  height : inner.height < 65536

variable {inner : Inner}

theorem receive_setupPdus (c : Surfaces) (h : InRange inner) :
    c.receive idr (inner.setupPdus.map encodeSegmented) =
      c.apply idr (.createSurface inner.surfaceId inner.width inner.height) := by
  have hreset : ∀ monitors, command (encodeSegmented
      (encodeResetGraphics inner.width inner.height monitors)) = .other := fun _ =>
    command_other (by decide) (by decide) (by decide) (by decide) _
  have hmap : command (encodeSegmented (encodeMapSurfaceToOutput inner.surfaceId 0 0)) = .other :=
    command_other (by decide) (by decide) (by decide) (by decide) _
  simp only [setupPdus, map_cons, map_nil, receive_cons, receive_nil,
    hreset, hmap, command_createSurface h.surfaceId h.width h.height]
  rfl

theorem receive_deleteSurface (c : Surfaces) (h : surfaceId < 65536) :
    c.receive idr [encodeSegmented (encodeDeleteSurface surfaceId)] =
      c.apply idr (.deleteSurface surfaceId) := by
  rw [receive_cons, command_deleteSurface h, receive_nil]

theorem InRange.resized (h : InRange inner) (hwidth : width < 65536) (hheight : height < 65536) :
    InRange (inner.resized width height) := by
  refine ⟨?_, hwidth, hheight⟩
  show (if inner.surfaceConfigured then nextId 16 inner.surfaceId else inner.surfaceId) < 65536
  split
  · exact nextId_lt _
  · exact h.surfaceId

def Surfaces.tornDown (idr : Bool) (c : Surfaces) (inner : Inner) : Surfaces :=
  if inner.surfaceConfigured then c.apply idr (.deleteSurface inner.surfaceId) else c

theorem InRange.renegotiated (h : InRange inner) : InRange inner.renegotiated := by
  refine ⟨?_, h.width, h.height⟩
  show (if inner.Deletes then nextId 16 inner.surfaceId else inner.surfaceId) < 65536
  split
  · exact nextId_lt _
  · exact h.surfaceId

theorem receive_onCaps (c : Surfaces) (h : InRange inner)
    {sets : List Source.Rdpegfx.RawCapabilitySet} {selected : Source.Rdpegfx.RawCapabilitySet}
    (hselected : selectAvc420Capability sets = some selected) :
    c.receive idr (inner.onCaps sets).1 =
      let cleared := if inner.Deletes then c.apply idr (.deleteSurface inner.surfaceId) else c
      if 0 < inner.width ∧ 0 < inner.height then
        cleared.apply idr (.createSurface inner.renegotiated.surfaceId inner.width inner.height)
      else cleared := by
  have hteardown : c.receive idr
      ((if inner.Deletes then [encodeSegmented (encodeDeleteSurface inner.surfaceId)] else []) ++
        [encodeSegmented (encodeCapsConfirm selected)]) =
      if inner.Deletes then c.apply idr (.deleteSurface inner.surfaceId) else c := by
    rw [receive_append, receive_cons, command_capsConfirm, receive_nil]
    split
    · rw [receive_deleteSurface idr c h.surfaceId]
      rfl
    · rfl
  rw [onCaps_of_some hselected]
  rw [receive_append, hteardown]
  by_cases hsize : 0 < inner.width ∧ 0 < inner.height
  · rw [if_pos hsize, if_pos hsize, receive_setupPdus idr _ h.renegotiated]
    rfl
  · rw [if_neg hsize, if_neg hsize, receive_nil]

theorem receive_resizePdus (c : Surfaces)
    (h : InRange inner)
    (hwidth : width < 65536)
    (hheight : height < 65536) :
    c.receive idr (inner.resizePdus width height) =
      (c.tornDown idr inner).apply idr
        (.createSurface (inner.resized width height).surfaceId width height) := by
  unfold resizePdus tornDown
  rw [receive_append, receive_setupPdus idr _ (h.resized hwidth hheight)]
  split
  · rw [receive_deleteSurface idr c h.surfaceId]
    rfl
  · rfl

/-- Of a frame's PDUs the surfaces see one write. -/
theorem receive_finishEncode (c : Surfaces)
    (h : InRange inner)
    (hwidth : width < 65536)
    (hheight : height < 65536)
    (encoded : EncodedAu) :
    c.receive idr (inner.finishEncode width height encoded).1 =
      c.apply idr (.wireToSurface inner.surfaceId width height) := by
  have hstart : ∀ timestamp frameId,
      command (encodeSegmented (encodeStartFrame timestamp frameId)) = .other :=
    fun _ _ => command_other (by decide) (by decide) (by decide) (by decide) _
  have hend : ∀ frameId, command (encodeSegmented (encodeEndFrame frameId)) = .other := fun _ =>
    command_other (by decide) (by decide) (by decide) (by decide) _
  simp only [finishEncode, receive_cons, receive_nil, hstart, hend,
    command_wireToSurface h.surfaceId hwidth hheight]
  rfl

end Kmsrdp.Client.GfxSurfaces
