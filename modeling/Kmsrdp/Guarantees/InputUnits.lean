import Kmsrdp.Source.Server.Framing
import Kmsrdp.Source.Pdu.Input

/-!
# Fast-path and slow-path units on one stream

One byte tells the two framings apart. A fast-path input PDU has its length in one byte or two and
its number of events in the header or in a byte of its own.
-/
namespace Kmsrdp.Guarantees.InputUnits
open Library.ByteString Library.AsyncRead Source.Pdu Source.Server.Framing UInt8 Nat FastPathInput
open Source.Server.SharedInput (FastPathInputEvent)

/-- The flags of the event fit the five bits of an event header. -/
def FlagsFit : FastPathInputEvent → Prop
  | .scancode flags _ | .sync flags | .unicode flags _ => flags < 32
  | .mouse .. => True

inductive ClientUnit where
  | fastPath (input : FastPathInput) (count : input.events.length ≤ 255)
      (flags : ∀ event ∈ input.events, FlagsFit event)
  | tpkt (reserved high low : UInt8) (rest : Bytes) (length : u16FromBeBytes high low = rest.length + 4)

def ClientUnit.bytes : ClientUnit → Bytes
  | .fastPath input _ _ => input.encode
  | .tpkt reserved high low rest _ => 0x03 :: reserved :: high :: low :: rest

/-- The frame is the unit, of its kind, and gives the events back. -/
def ClientUnit.Matches : ClientUnit → SteadyStateFrame → Prop
  | .fastPath input _ _, frame =>
    frame = .fastPathInput input.encode ∧ FastPathInput.decode input.encode = .ok input
  | .tpkt reserved high low rest _, frame => frame = .slowPath (0x03 :: reserved :: high :: low :: rest)

def readFrames : Nat → Bytes → List SteadyStateFrame × Bytes
  | 0, socket => ([], socket)
  | calls + 1, socket =>
    match poll readSteadyStateFrame socket with
    | .ready (.ok frame) rest => (frame :: (readFrames calls rest).1, (readFrames calls rest).2)
    | _ => ([], socket)

theorem onWire_of_flagsFit {event : FastPathInputEvent} (h : FlagsFit event) :
    event.onWire = event := by
  have hmask : ∀ flags : UInt8, flags < 32 → flags &&& 0x1F = flags := by
    intro flags hflags
    apply UInt8.toNat_inj.mp
    rw [UInt8.toNat_and]
    exact (and_two_pow_sub_one_eq_mod flags.toNat 5).trans (mod_eq_of_lt hflags)
  cases event <;> simp_all [FlagsFit, FastPathInputEvent.onWire]

theorem exists_frame {input : FastPathInput} (h : input.events.length ≤ 255) :
    ∃ frame : ClientFrame,
      frame.bytes = input.encode ∧ frame.dispatched = .fastPathInput input.encode := by
  obtain ⟨events⟩ := input
  have hevents := length_flatMap_encode_le events
  obtain ⟨nibble, hnibble, extraPrefix, hextra, hencode, -⟩ := encode_layout h
  obtain ⟨total, hfits, htotal, hframe⟩ := encodeFastpathFrame_shape (ofNat nibble <<< 2) extraPrefix
    (events.flatMap FastPathInputEvent.encode) (by dsimp only at h; omega)
  have haction : ofNat nibble <<< 2 ≠ 0x03 := by
    have hall : ∀ n < 15, ofNat n <<< 2 ≠ 0x03 := by decide
    exact hall nibble hnibble
  rw [hencode, hframe]
  generalize extraPrefix ++ events.flatMap FastPathInputEvent.encode = rest at htotal
  rcases writePerLength_cases hfits with ⟨hshort, hwrite⟩ | ⟨hlong, hwrite⟩
  · rw [hwrite, List.length_singleton] at htotal
    rw [hwrite]
    exact ⟨.fastPathShort _ (ofNat total) rest haction (lowBit_of_short hshort)
      (by rw [toNat_ofNat', mod_eq_of_lt (by omega)]; omega), rfl, rfl⟩
  · rw [hwrite, length_u16Be] at htotal
    rw [hwrite]
    refine ⟨.fastPathLong _ (ofNat ((0x8000 + total) / 256)) (ofNat (0x8000 + total)) rest haction
      (highBit_of_long hfits) ?_, rfl, rfl⟩
    have hhigh : (ofNat ((0x8000 + total) / 256)).toNat &&& 0x7F = total / 256 := by
      rw [toNat_ofNat', and_two_pow_sub_one_eq_mod _ 7]
      omega
    have hlow : (ofNat (0x8000 + total)).toNat = total % 256 := by
      rw [toNat_ofNat']
      omega
    rw [hhigh, hlow, ← shiftLeft_add_eq_or_of_lt (mod_lt _ (by decide)), shiftLeft_eq]
    omega

theorem poll_unit (unit : ClientUnit) (socket : Bytes) :
    ∃ frame,
      poll readSteadyStateFrame (unit.bytes ++ socket) = .ready (.ok frame) socket ∧
      unit.Matches frame := by
  cases unit with
  | fastPath input count flags =>
    obtain ⟨frame, hbytes, hdispatched⟩ := exists_frame count
    have hpoll := poll_readSteadyStateFrame frame socket
    rw [hbytes, hdispatched] at hpoll
    refine ⟨_, hpoll, rfl, ?_⟩
    rw [decode_encode count]
    simp [List.map_congr_left fun event hmem => onWire_of_flagsFit (flags event hmem)]
  | tpkt reserved high low rest length =>
    exact ⟨_, poll_readSteadyStateFrame (.tpkt reserved high low rest length) socket, rfl⟩

/-- The calls return the units in order, each as what it is, and leave nothing. -/
theorem frames_match_units (units : List ClientUnit) (more : Nat) :
    ∃ frames,
      readFrames (units.length + more) (units.flatMap ClientUnit.bytes) = (frames, []) ∧
      List.Forall₂ ClientUnit.Matches units frames := by
  induction units with
  | nil => cases more <;> exact ⟨[], rfl, .nil⟩
  | cons unit rest ih =>
    obtain ⟨frames, hframes, hmatches⟩ := ih
    obtain ⟨frame, hpoll, hunit⟩ := poll_unit unit (rest.flatMap ClientUnit.bytes)
    refine ⟨frame :: frames, ?_, .cons hunit hmatches⟩
    rw [List.length_cons, Nat.add_right_comm, readFrames, List.flatMap_cons]
    simp only [hpoll, hframes]

end Kmsrdp.Guarantees.InputUnits
