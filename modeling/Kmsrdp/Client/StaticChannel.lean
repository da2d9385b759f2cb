import Kmsrdp.Library.Segments
import Kmsrdp.Source.Pdu.Svc
import Kmsrdp.Source.Server.Framing

/-!
# The receiving end of a static channel

`read_tpkt_frame` takes the units off the stream, `unwrap_data` and `decode_indication` give the
Send Data Indications in them, and `reassemble` gets the payload of each.
-/
namespace Kmsrdp.Client.StaticChannel
open Library.AsyncRead Library.ByteString Source.Pdu Source.Server.Framing List SendData UInt8

abbrev Result := Except DecodeError (Option Bytes)

def readFrames : Nat → Bytes → Option (List Bytes)
  | _, [] => some []
  | 0, _ :: _ => none
  | fuel + 1, socket =>
    match poll readTpktFrame socket with
    | .ready (.ok frame) rest => (readFrames fuel rest).map (frame :: ·)
    | _ => none

def splitFrames (stream : Bytes) : Option (List Bytes) := readFrames stream.length stream

def unwrapFrame (frame : Bytes) : Option SendData :=
  ((unwrapData frame).bind SendData.decodeIndication).toOption

def unwrapFrames : List Bytes → Option (List SendData)
  | [] => some []
  | frame :: rest => do
    let pdu ← unwrapFrame frame
    let others ← unwrapFrames rest
    return pdu :: others

def reassembleAll (limit : Nat) (field : String) : Bytes → List Bytes → List Result × Bytes
  | buffer, [] => ([], buffer)
  | buffer, payload :: rest =>
    let called := reassemble buffer payload limit field
    let later := reassembleAll limit field called.2 rest
    (called.1 :: later.1, later.2)

def receiveStream (limit : Nat) (field : String) (buffer stream : Bytes) :
    Option (List Result) := do
  let frames ← splitFrames stream
  let pdus ← unwrapFrames frames
  return (reassembleAll limit field buffer (pdus.map SendData.data)).1

theorem reassembleAll_append (limit : Nat) (field : String) (buffer : Bytes)
    (front back : List Bytes) :
    reassembleAll limit field buffer (front ++ back) =
      ((reassembleAll limit field buffer front).1 ++
          (reassembleAll limit field (reassembleAll limit field buffer front).2 back).1,
        (reassembleAll limit field (reassembleAll limit field buffer front).2 back).2) := by
  induction front generalizing buffer with
  | nil => rfl
  | cons payload rest ih => simp [reassembleAll, ih]

theorem poll_readDeclared (header rest socket : Bytes) (total : Nat) (short : FramingError)
    (htotal : total = rest.length + header.length) :
    poll (readDeclared header total short) (rest ++ socket) =
      .ready (.ok (header ++ rest)) socket := by
  have hmissing : total - header.length = rest.length := by omega
  rw [readDeclared, if_neg (by omega), hmissing]
  exact poll_readExact_append rest socket _ rfl

theorem u16FromBeBytes_u16Be {value : Nat} (h : value < 65536) :
    u16FromBeBytes (ofNat (value / 256)) (ofNat value) = value := by
  unfold u16FromBeBytes
  rw [toNat_ofNat', toNat_ofNat']
  omega

theorem poll_readTpktFrame_wrapData {payload : Bytes}
    (h : payload.length + 7 < 65536)
    (socket : Bytes) :
    poll readTpktFrame (wrapData payload ++ socket) = .ready (.ok (wrapData payload)) socket := by
  have hmin : min (4 + 3 + payload.length) 65535 = 4 + 3 + payload.length := by omega
  have hwrap : wrapData payload =
      ([0x03, 0x00] ++ u16Be (4 + 3 + payload.length)) ++ ([0x02, dataCode, 0x80] ++ payload) := by
    rw [wrapData, hmin, append_assoc ([0x03, 0x00] ++ u16Be (4 + 3 + payload.length))]
  rw [hwrap, append_assoc]
  refine (poll_readExact_append ([0x03, 0x00] ++ u16Be (4 + 3 + payload.length)) _ _ rfl).trans ?_
  refine poll_readDeclared _ _ socket _ _ ?_
  show u16FromBeBytes (ofNat ((4 + 3 + payload.length) / 256)) (ofNat (4 + 3 + payload.length)) = _
  rw [u16FromBeBytes_u16Be (by omega), length_append, length_append]
  simp only [u16Be, length_cons, length_nil]
  omega

def Framed (frame : Bytes) : Prop :=
  frame ≠ [] ∧ ∀ socket, poll readTpktFrame (frame ++ socket) = .ready (.ok frame) socket

variable {frames : List Bytes}

theorem readFrames_flatten
    (hframes : ∀ frame ∈ frames, Framed frame)
    {fuel : Nat}
    (hfuel : frames.length ≤ fuel) : readFrames fuel frames.flatten = some frames := by
  induction frames generalizing fuel with
  | nil => cases fuel <;> rfl
  | cons frame rest ih =>
    obtain ⟨hne, hread⟩ := hframes frame mem_cons_self
    obtain ⟨b, tail, hframe⟩ := exists_cons_of_ne_nil hne
    cases fuel with
    | zero => cases hfuel
    | succ fuel =>
      have hlater := ih (fun other hother => hframes other (mem_cons_of_mem _ hother))
        (Nat.le_of_succ_le_succ hfuel)
      have hsocket : (frame :: rest).flatten = b :: (tail ++ rest.flatten) := by
        rw [flatten_cons, hframe, cons_append]
      rw [hsocket, readFrames]
      · rw [← hsocket, flatten_cons, hread]
        dsimp only
        rw [hlater]
        rfl
      · exact fun hnil => nomatch hnil

theorem length_le_flatten (hframes : ∀ frame ∈ frames, Framed frame) :
    frames.length ≤ frames.flatten.length := by
  induction frames with
  | nil => exact Nat.le_refl _
  | cons frame rest ih =>
    have hfirst := length_pos_iff.mpr (hframes frame mem_cons_self).1
    have hrest := ih fun other hother => hframes other (mem_cons_of_mem _ hother)
    rw [length_cons, flatten_cons, length_append]
    omega

theorem splitFrames_flatten (hframes : ∀ frame ∈ frames, Framed frame) :
    splitFrames frames.flatten = some frames :=
  readFrames_flatten hframes (length_le_flatten hframes)

section
variable {initiator channelId : Nat}

def chunkFrame (initiator channelId : Nat) (chunk : Bytes) : Bytes :=
  wrapData (SendData.encodeIndication ⟨initiator, channelId, chunk, true⟩)

theorem length_encodeIndication_le (chunk : Bytes) :
    (encodeIndication ⟨initiator, channelId, chunk, true⟩).length ≤ chunk.length + 8 := by
  have hlength : (writePerLength chunk.length).length ≤ 2 := by
    unfold writePerLength
    split <;> simp [u16Be]
  simp only [encodeIndication, SendData.encode, writeChoiceByte, writePerU16, u16Be, length_cons,
    length_append, length_nil]
  omega

theorem framed_chunkFrame {chunk : Bytes} (hchunk : chunk.length < 0x8000) :
    Framed (chunkFrame initiator channelId chunk) := by
  refine ⟨cons_ne_nil _ _, fun socket => poll_readTpktFrame_wrapData ?_ socket⟩
  have hlength : (encodeIndication ⟨initiator, channelId, chunk, true⟩).length ≤ chunk.length + 8 :=
    length_encodeIndication_le chunk
  omega

theorem unwrapFrames_map
    (hinitiator : initiator < 65536)
    (hchannel : channelId < 65536)
    {payloads : List Bytes}
    (hpayloads : ∀ payload ∈ payloads, payload.length < 0x8000) :
    unwrapFrames (payloads.map (chunkFrame initiator channelId)) =
      some (payloads.map fun payload => ⟨initiator, channelId, payload, true⟩) := by
  induction payloads with
  | nil => rfl
  | cons payload rest ih =>
    have hdecode :=
      decodeIndication_encodeIndication ⟨initiator, channelId, payload, true⟩ hinitiator hchannel
      (hpayloads payload mem_cons_self) rfl
    have hfirst :
        unwrapFrame (chunkFrame initiator channelId payload) =
          some ⟨initiator, channelId, payload, true⟩ := by
      rw [unwrapFrame, chunkFrame, unwrapData_wrapData, Except.bind, hdecode]
      rfl
    have hrest := ih fun other hother => hpayloads other (mem_cons_of_mem _ hother)
    rw [map_cons, unwrapFrames, hfirst, hrest]
    rfl

theorem receiveStream_chunkFrames
    (hinitiator : initiator < 65536)
    (hchannel : channelId < 65536)
    {payloads : List Bytes}
    (hpayloads : ∀ payload ∈ payloads, payload.length < 0x8000)
    (limit : Nat) (field : String) (buffer : Bytes) :
    receiveStream limit field buffer (payloads.map (chunkFrame initiator channelId)).flatten =
      some (reassembleAll limit field buffer payloads).1 := by
  have hframed : ∀ frame ∈ payloads.map (chunkFrame initiator channelId), Framed frame := by
    intro frame hframe
    obtain ⟨payload, hpayload, rfl⟩ := mem_map.mp hframe
    exact framed_chunkFrame (hpayloads payload hpayload)
  rw [receiveStream, splitFrames_flatten hframed]
  show (unwrapFrames _).bind _ = _
  rw [unwrapFrames_map hinitiator hchannel hpayloads]
  show some (reassembleAll limit field buffer ((payloads.map _).map data)).1 = _
  rw [map_map]
  show some (reassembleAll limit field buffer (payloads.map id)).1 = _
  rw [map_id]

end
end Kmsrdp.Client.StaticChannel
