import Kmsrdp.Library.Chunks
import Kmsrdp.Source.Pdu.FastPath

/-!
# Fragmenting an update

Model of `encode_update_to_wire_frames` and `encode_frame_marker` in
`rdpcore-server/src/encode.rs`.
-/
namespace Kmsrdp.Source.Server.Fragments
open Library.ByteString Library.Chunks Source.Pdu List

def fragmentationOf (count i : Nat) : Fragmentation :=
  if count = 1 then .single
  else if i = 0 then .first
  else if i = count - 1 then .last
  else .next

def fragments (updateCode : UInt8) (body : Bytes) (maxRequestSize : Nat) : List FastPathUpdatePdu :=
  let pieces := chunks (min maxFastpathChunkSize (max maxRequestSize 1)) body
  let count := max pieces.length 1
  pieces.mapIdx fun i piece => ⟨updateCode, fragmentationOf count i, piece⟩

def encodeUpdateToWireFrames (updateCode : UInt8) (body : Bytes) (maxRequestSize : Nat) :
    List Bytes :=
  (fragments updateCode body maxRequestSize).map fun update => FastPathOutput.encode ⟨[update]⟩

def frameActionBegin : Nat := 0x0000
def frameActionEnd : Nat := 0x0001

def encodeFrameMarker (frameAction frameId : Nat) : Bytes :=
  u16Le 0x0004 ++ u16Le frameAction ++ u32Le frameId

inductive Continuation (updateCode : UInt8) : List FastPathUpdatePdu → Prop
  | last (data : Bytes) : Continuation updateCode [⟨updateCode, .last, data⟩]
  | next (data : Bytes) {rest : List FastPathUpdatePdu} (h : Continuation updateCode rest) :
      Continuation updateCode (⟨updateCode, .next, data⟩ :: rest)

inductive FragmentSequence (updateCode : UInt8) : List FastPathUpdatePdu → Prop
  | nil : FragmentSequence updateCode []
  | single (data : Bytes) : FragmentSequence updateCode [⟨updateCode, .single, data⟩]
  | first (data : Bytes) {rest : List FastPathUpdatePdu} (h : Continuation updateCode rest) :
      FragmentSequence updateCode (⟨updateCode, .first, data⟩ :: rest)

variable (updateCode : UInt8)

theorem continuation_of_pieces (count start : Nat) {pieces : List Bytes}
    (hne : pieces ≠ [])
    (hstart : 0 < start)
    (hcount : start + pieces.length = count) :
    Continuation updateCode
      (pieces.mapIdx fun i piece => ⟨updateCode, fragmentationOf count (start + i), piece⟩) := by
  induction pieces generalizing start with
  | nil => exact absurd rfl hne
  | cons piece rest ih =>
    rw [length_cons] at hcount
    cases rest with
    | nil =>
      have hlast : fragmentationOf count (start + 0) = .last := by
        rw [fragmentationOf, if_neg (by omega), if_neg (by omega), if_pos (by simp at hcount; omega)]
      rw [mapIdx_cons, hlast]
      exact .last piece
    | cons piece' rest =>
      have hnext : fragmentationOf count (start + 0) = .next := by
        rw [fragmentationOf, if_neg (by omega), if_neg (by omega), if_neg (by simp at hcount; omega)]
      rw [mapIdx_cons, hnext]
      refine .next piece ?_
      have := ih (start + 1) (by simp) (by omega) (by omega)
      simpa only [Nat.add_assoc, Nat.add_comm 1] using this

theorem fragmentSequence_fragments (body : Bytes) (maxRequestSize : Nat) :
    FragmentSequence updateCode (fragments updateCode body maxRequestSize) := by
  unfold fragments
  generalize chunks (min maxFastpathChunkSize (max maxRequestSize 1)) body = pieces
  match pieces with
  | [] => exact .nil
  | [piece] => exact .single piece
  | piece :: piece' :: rest =>
    have hfirst : fragmentationOf (max (piece :: piece' :: rest).length 1) 0 = .first := by
      rw [fragmentationOf, if_neg (by simp), if_pos rfl]
    rw [mapIdx_cons, hfirst]
    refine .first piece ?_
    have hcount : 1 + (piece' :: rest).length = max (piece :: piece' :: rest).length 1 := by
      simp only [length_cons]
      omega
    have := continuation_of_pieces updateCode _ 1 (by simp) (by omega) hcount
    simpa only [Nat.add_comm 1] using this

variable {body : Bytes}

theorem data_le_of_mem_fragments {updateCode : UInt8} {maxRequestSize : Nat}
    {update : FastPathUpdatePdu}
    (h : update ∈ fragments updateCode body maxRequestSize) :
    update.data.length ≤ maxFastpathChunkSize := by
  obtain ⟨i, hi, rfl⟩ := mem_mapIdx.mp h
  exact Nat.le_trans (length_le_of_mem_chunks (getElem_mem hi)) (Nat.min_le_left _ _)

theorem updateCode_of_mem_fragments {updateCode : UInt8} {maxRequestSize : Nat}
    {update : FastPathUpdatePdu}
    (h : update ∈ fragments updateCode body maxRequestSize) : update.updateCode = updateCode := by
  obtain ⟨i, hi, rfl⟩ := mem_mapIdx.mp h
  rfl

theorem flatMap_data_fragments (body : Bytes) (maxRequestSize : Nat) :
    (fragments updateCode body maxRequestSize).flatMap FastPathUpdatePdu.data = body := by
  have hmap : (fragments updateCode body maxRequestSize).map FastPathUpdatePdu.data =
      chunks (min maxFastpathChunkSize (max maxRequestSize 1)) body :=
    ext_getElem (by simp [fragments]) fun i _ _ => by simp [fragments]
  have hsize : 0 < min maxFastpathChunkSize (max maxRequestSize 1) := by
    unfold maxFastpathChunkSize
    omega
  rw [flatMap_def, hmap, flatten_chunks hsize]

end Kmsrdp.Source.Server.Fragments
