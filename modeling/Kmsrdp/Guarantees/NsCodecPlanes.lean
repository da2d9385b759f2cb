import Kmsrdp.Client.NsCodecPlanes

/-!
# The planes of an NSCodec frame

A client takes a plane as run-length encoded when it has fewer bytes than pixels, and as raw
otherwise. `rle_encode` sends the encoding whatever its length: a run of two takes three bytes, so a
plane with few runs grows, or keeps its length without being the plane.
-/
namespace Kmsrdp.Guarantees.NsCodecPlanes
open Library.ByteString Library.Runs Source.Pdu Source.Pdu.NsCodec Client.NsCodecPlanes List Nat

/-- The client gets the plane from its bytes, and there are no more of them than pixels. -/
def Arrives (bytes plane : Bytes) : Prop :=
  bytes.length ≤ plane.length ∧ decodePlane plane.length bytes = .ok plane

def planesOf (data : Bytes) (width height stride colorLossLevel : Nat) : PlaneBytes :=
  let pixels := ycocgPixels data width height stride (max 1 (min colorLossLevel 7))
  ⟨pixels.map fun p => p.1, pixels.map fun p => p.2.1, pixels.map fun p => p.2.2,
    List.replicate (width * height) 0xFF⟩

/-- The client reads the four planes from the frame. -/
def FrameArrives (frame : Bytes) (planes : PlaneBytes) : Prop :=
  ∃ read, decodeFrom readPlanes frame = .ok read ∧ Arrives read.luma planes.luma ∧
    Arrives read.orange planes.orange ∧ Arrives read.green planes.green ∧
      Arrives read.alpha planes.alpha

def OwnCode (run : Bytes) : Prop := run.length = 1 ∨ run = [1, 1, 1]

/-- The encoding shortens the plane, or it consists of runs that are their own code, but for the
last four bytes. -/
def Encodable (plane : Bytes) : Prop :=
  planeSize plane < plane.length ∨ ∀ run ∈ runs (plane.take (plane.length - 4)), OwnCode run

theorem length_runBytes_lt {v : UInt8} {n : Nat} (hn : 3 ≤ n) :
    (runBytes v (n + 1)).length < n + 1 := by
  rw [length_runBytes, runSize, if_neg (by omega)]
  split <;> omega

theorem eq_cons_code_cases {c : UInt8} {bytes : Bytes} (h : bytes = c :: code bytes) :
    (∃ rest : Bytes, rest.head? ≠ some c ∧ rest = 1 :: code rest) ∨ 2 ≤ c.toNat := by
  induction bytes using run_induction with
  | nil => cases h
  | run v n rest hrest _ =>
    obtain rfl : v = c := by
      rw [replicate_succ, cons_append] at h
      exact (cons.inj h).1
    rw [code_run_append hrest, replicate_succ, cons_append] at h
    have htail := (cons.inj h).2
    match n, htail with
    | 0, htail => exact absurd (by rw [show rest = v :: code rest from htail]; rfl) hrest
    | 1, htail =>
      obtain ⟨-, htail⟩ := cons.inj htail
      exact absurd (by rw [show rest = v :: 0 :: code rest from htail]; rfl) hrest
    | 2, htail =>
      obtain ⟨-, htail⟩ := cons.inj htail
      obtain ⟨-, htail⟩ := cons.inj htail
      exact .inl ⟨rest, hrest, htail⟩
    | n + 3, htail =>
      -- the third byte of the code is the length of the run, or the escape
      refine .inr ?_
      unfold runBytes at htail
      rw [if_neg (by omega)] at htail
      split at htail
      · next hshort =>
        obtain ⟨hvalue, -⟩ := cons.inj (cons.inj (cons.inj htail).2).2
        rw [hvalue, UInt8.toNat_ofNat', mod_eq_of_lt (by omega)]
        omega
      · obtain ⟨hvalue, -⟩ := cons.inj (cons.inj (cons.inj htail).2).2
        rw [hvalue]
        decide

variable (bytes : Bytes)

theorem ne_one_cons_code : bytes ≠ 1 :: code bytes := by
  intro h
  rcases eq_cons_code_cases h with ⟨rest, hhead, hrest⟩ | hlarge
  · exact hhead (by rw [hrest]; rfl)
  · exact absurd hlarge (by decide)

theorem ne_zero_cons_code : bytes ≠ 0 :: code bytes := by
  intro h
  rcases eq_cons_code_cases h with ⟨rest, -, hrest⟩ | hlarge
  · exact ne_one_cons_code rest hrest
  · exact absurd hlarge (by decide)

theorem runBytes_append_eq_iff {v : UInt8} {rest : Bytes} (h : rest.head? ≠ some v) (n : Nat) :
    runBytes v (n + 1) ++ code rest = replicate (n + 1) v ++ rest ↔
      OwnCode (replicate (n + 1) v) ∧ code rest = rest := by
  match n with
  | 0 => simp [runBytes, OwnCode]
  | 1 =>
    have hcode : runBytes v 2 ++ code rest = v :: v :: 0 :: code rest := rfl
    have hraw : replicate 2 v ++ rest = v :: v :: rest := rfl
    rw [hcode, hraw, cons.injEq, cons.injEq]
    constructor
    · rintro ⟨-, -, htail⟩
      exact absurd htail.symm (ne_zero_cons_code rest)
    · rintro ⟨hown, -⟩
      rcases hown with hone | hthree
      · rw [length_replicate] at hone
        cases hone
      · cases congrArg length hthree
  | 2 =>
    have hcode : runBytes v 3 ++ code rest = v :: v :: 1 :: code rest := rfl
    have hraw : replicate 3 v ++ rest = v :: v :: v :: rest := rfl
    rw [hcode, hraw]
    simp only [cons.injEq, true_and, OwnCode, length_replicate]
    constructor
    · rintro ⟨rfl, htail⟩
      exact ⟨.inr rfl, htail⟩
    · rintro ⟨hthree | hthree, htail⟩
      · cases hthree
      · exact ⟨(cons.inj hthree).1.symm, htail⟩
  | n + 3 =>
    have hshort := length_runBytes_lt (v := v) (show 3 ≤ n + 3 by omega)
    constructor
    · -- behind the code the plane has more of the run, but its code goes on with another byte
      intro heq
      have htail := congrArg (drop (runBytes v (n + 3 + 1)).length) heq
      rw [drop_left, drop_append_of_le_length (by rw [length_replicate]; omega), drop_replicate]
        at htail
      obtain ⟨k, hk⟩ : ∃ k, n + 3 + 1 - (runBytes v (n + 3 + 1)).length = k + 1 :=
        ⟨n + 3 - (runBytes v (n + 3 + 1)).length, by omega⟩
      have hhead := congrArg head? htail
      rw [hk, replicate_succ, head?_code] at hhead
      exact absurd hhead h
    · rintro ⟨hone | hthree, -⟩
      · rw [length_replicate] at hone
        omega
      · have hlength := congrArg length hthree
        rw [length_replicate] at hlength
        simp at hlength

theorem code_eq_self_iff : code bytes = bytes ↔ ∀ run ∈ runs bytes, OwnCode run := by
  induction bytes using run_induction with
  | nil => simp
  | run v n rest h ih =>
    rw [code_run_append h, runBytes_append_eq_iff h, ih, runs_replicate_append h (succ_ne_zero n),
      forall_mem_cons]

section Plane
variable {plane : Bytes} (hfits : plane.length ≤ u32Max)
include hfits

theorem rleEncode_eq_self_iff :
    rleEncode plane = plane ↔ ∀ run ∈ runs (plane.take (plane.length - 4)), OwnCode run := by
  by_cases hshort : plane.length ≤ 4
  · rw [rleEncode, if_pos hshort, Nat.sub_eq_zero_of_le hshort, take_zero, runs_nil]
    simp
  · have hbody : (plane.take (plane.length - 4)).length ≤ plane.length - 4 := by
      rw [length_take]
      exact min_le_left _ _
    rw [rleEncode]
    dsimp only
    rw [if_neg hshort, encodeRuns_eq_code hbody (by omega), ← code_eq_self_iff]
    constructor
    · intro heq
      refine append_cancel_right (heq.trans ?_)
      exact (take_append_drop _ _).symm
    · intro heq
      rw [heq, take_append_drop]

theorem arrives_rleEncode_iff : Arrives (rleEncode plane) plane ↔ Encodable plane := by
  have hlength := length_rleEncode hfits
  unfold Arrives Encodable decodePlane
  rw [hlength]
  by_cases hless : planeSize plane < plane.length
  · have hlong : 4 < plane.length := by
      by_contra hshort
      rw [planeSize, if_pos (by omega)] at hless
      omega
    have hdecode : decodeFrom (decodeRle plane.length plane.length) (rleEncode plane) = .ok plane := by
      rw [decodeFrom, decodeRle_rleEncode hfits (by omega)]
      rfl
    rw [if_pos hless, hdecode]
    exact ⟨fun _ => .inl hless, fun _ => ⟨le_of_lt hless, rfl⟩⟩
  · rw [if_neg hless, ← rleEncode_eq_self_iff hfits]
    constructor
    · rintro ⟨-, hraw⟩
      exact .inr (Except.ok.inj hraw)
    · rintro (hless' | hraw)
      · exact absurd hless' hless
      · refine ⟨?_, congrArg Except.ok hraw⟩
        rw [← hlength, hraw]

end Plane

theorem rleEncodeConst_eq {n : Nat} (hfits : n ≤ u32Max) (val : UInt8) :
    rleEncodeConst val n = rleEncode (replicate n val) := by
  unfold rleEncodeConst rleEncode
  dsimp only
  rw [length_replicate]
  split
  · rfl
  · obtain ⟨k, hk⟩ : ∃ k, n - 4 = k + 1 := ⟨n - 5, by omega⟩
    have hcode : code (replicate (k + 1) val ++ []) = _ := code_run_append (by simp) k
    rw [append_nil, code_nil, append_nil] at hcode
    rw [take_replicate, drop_replicate, min_eq_left (by omega), hk,
      encodeRuns_eq_code (by rw [length_replicate]) (by rw [length_replicate]; omega), hcode,
      show n - (k + 1) = 4 by omega]

/-- Reading the encoding of any plane by the run grammar gives the plane back and takes all of the
encoding, and the shortcut for a constant plane is no other encoding. -/
theorem rleEncode_round_trip :
    (∀ plane : Bytes, plane.length < 2 ^ 32 → ∀ turns, plane.length < turns →
       decodeRle turns plane.length (rleEncode plane) = .ok (plane, [])) ∧
    ∀ (val : UInt8) (n : Nat), n < 2 ^ 32 →
      rleEncodeConst val n = rleEncode (List.replicate n val) := by
  have hfits : ∀ {n : Nat}, n < 2 ^ 32 → n ≤ u32Max := by
    intro n hn
    unfold u32Max
    omega
  constructor
  · intro plane hplane turns hturns
    exact decodeRle_rleEncode (hfits hplane) (by omega)
  · intro val n hn
    exact rleEncodeConst_eq (hfits hn) val

/-- A run of 256 bytes, which takes the escape, and one of two that the last four bytes end. -/
theorem rleEncode_round_trip_long :
    (List.replicate 256 7 ++ [1, 1, 2, 2, 2, 2] : Bytes).length = 262 ∧
    decodeRle 300 262 (rleEncode (List.replicate 256 7 ++ [1, 1, 2, 2, 2, 2])) =
      .ok (List.replicate 256 7 ++ [1, 1, 2, 2, 2, 2], []) ∧
    rleEncodeConst 9 260 = rleEncode (List.replicate 260 9) := by
  have hlength : (replicate 256 7 ++ [1, 1, 2, 2, 2, 2] : Bytes).length = 262 := by
    rw [length_append, length_replicate]
    rfl
  have hread := rleEncode_round_trip.1 (replicate 256 7 ++ [1, 1, 2, 2, 2, 2]) (by omega) 300 (by omega)
  rw [hlength] at hread
  exact ⟨hlength, hread, rleEncode_round_trip.2 9 260 (by omega)⟩

theorem encode_eq_frame {data : Bytes} {width height stride : Nat}
    (hwidth : 0 < width)
    (hheight : 0 < height)
    (hpixels : width * height ≤ u32Max)
    (hdata : data.length ≤ usizeMax)
    (hrows : (height - 1) * stride + width * 4 ≤ data.length)
    (colorLossLevel : Nat) :
    let planes := planesOf data width height stride colorLossLevel
    encode data width height stride colorLossLevel =
      frame (max 1 (min colorLossLevel 7)) (rleEncode planes.luma) (rleEncode planes.orange)
        (rleEncode planes.green) (rleEncode planes.alpha) := by
  rw [encode, if_neg (by omega), requiredLen, if_pos (by omega)]
  dsimp only
  rw [if_neg (by omega), rleEncodeConst_eq hpixels]
  rfl

theorem length_planesOf (data : Bytes) (width height stride colorLossLevel : Nat) :
    let planes := planesOf data width height stride colorLossLevel
    ∀ plane ∈ [planes.luma, planes.orange, planes.green, planes.alpha],
      plane.length = width * height := by
  have hlength := length_ycocgPixels data width height stride (max 1 (min colorLossLevel 7))
  rw [mul_comm] at hlength
  simp [planesOf, hlength]

theorem frameArrives_frame_iff {planes : PlaneBytes} {count : Nat}
    (hcount : count < u32Max)
    (hlength :
      ∀ plane ∈ [planes.luma, planes.orange, planes.green, planes.alpha], plane.length = count)
    (colorLossLevel : Nat) :
    FrameArrives
      (frame colorLossLevel (rleEncode planes.luma) (rleEncode planes.orange)
         (rleEncode planes.green) (rleEncode planes.alpha)) planes ↔
      ∀ plane ∈ [planes.luma, planes.orange, planes.green, planes.alpha], Encodable plane := by
  simp only [forall_mem_cons, not_mem_nil, IsEmpty.forall_iff, implies_true, and_true] at hlength ⊢
  obtain ⟨hluma, horange, hgreen, halpha⟩ := hlength
  rw [← arrives_rleEncode_iff (show planes.luma.length ≤ u32Max by omega),
    ← arrives_rleEncode_iff (show planes.orange.length ≤ u32Max by omega),
    ← arrives_rleEncode_iff (show planes.green.length ≤ u32Max by omega),
    ← arrives_rleEncode_iff (show planes.alpha.length ≤ u32Max by omega)]
  have hread : (rleEncode planes.luma).length ≤ u32Max → (rleEncode planes.orange).length ≤ u32Max →
      (rleEncode planes.green).length ≤ u32Max → (rleEncode planes.alpha).length ≤ u32Max →
      decodeFrom readPlanes (frame colorLossLevel (rleEncode planes.luma) (rleEncode planes.orange)
        (rleEncode planes.green) (rleEncode planes.alpha)) =
      .ok ⟨rleEncode planes.luma, rleEncode planes.orange, rleEncode planes.green,
        rleEncode planes.alpha⟩ :=
    readPlanes_frame colorLossLevel
  constructor
  · rintro ⟨read, hok, hl, ho, hg, ha⟩
    -- a count that saturates is more than the pixels, so the counts are the lengths
    obtain ⟨hlumaCount, horangeCount, hgreenCount, halphaCount⟩ := length_of_readPlanes_frame hok
    have hexact : ∀ {bytes plane part : Bytes}, part.length = planeLen bytes → plane.length = count →
        Arrives part plane → bytes.length ≤ u32Max := by
      intro bytes plane part hpart hplane harrives
      have hle := harrives.1
      unfold planeLen at hpart
      omega
    rw [hread (hexact hlumaCount hluma hl) (hexact horangeCount horange ho)
      (hexact hgreenCount hgreen hg) (hexact halphaCount halpha ha)] at hok
    cases hok
    exact ⟨hl, ho, hg, ha⟩
  · rintro ⟨hl, ho, hg, ha⟩
    have hshort : ∀ {bytes plane : Bytes}, plane.length = count → Arrives bytes plane →
        bytes.length ≤ u32Max := by
      intro bytes plane hplane harrives
      have hle := harrives.1
      omega
    exact ⟨_, hread (hshort hluma hl) (hshort horange ho) (hshort hgreen hg) (hshort halpha ha), hl,
      ho, hg, ha⟩

/-- For every image, the client gets every plane of the frame, in no more bytes than pixels,
exactly when the encoding of every plane shortens it or changes nothing. -/
theorem frame_arrives_iff_encodable {data : Bytes} {width height stride : Nat}
    (hwidth : 0 < width)
    (hwidthFits : width < 65536)
    (hheight : 0 < height)
    (hheightFits : height < 65536)
    (hdata : data.length ≤ usizeMax)
    (hrows : (height - 1) * stride + width * 4 ≤ data.length)
    (colorLossLevel : Nat) :
    let planes := planesOf data width height stride colorLossLevel
    FrameArrives (encode data width height stride colorLossLevel) planes ↔
      ∀ plane ∈ [planes.luma, planes.orange, planes.green, planes.alpha], Encodable plane := by
  have hpixels : width * height < u32Max := by
    have hle : width * height ≤ 65535 * 65535 := Nat.mul_le_mul (by omega) (by omega)
    unfold u32Max
    omega
  rw [encode_eq_frame hwidth hheight (le_of_lt hpixels) hdata hrows]
  exact frameArrives_frame_iff hpixels (length_planesOf data width height stride colorLossLevel) _

/-- A black image of eight pixels. -/
theorem black_eight_arrives :
    FrameArrives (encode (List.replicate 32 0) 8 1 32 3)
      (planesOf (List.replicate 32 0) 8 1 32 3) := by
  refine (frame_arrives_iff_encodable (by decide) (by decide) (by decide) (by decide) (by decide)
    (by decide) 3).mpr ?_
  have hshorter : ∀ plane ∈ [(planesOf (replicate 32 0) 8 1 32 3).luma,
      (planesOf (replicate 32 0) 8 1 32 3).orange, (planesOf (replicate 32 0) 8 1 32 3).green,
      (planesOf (replicate 32 0) 8 1 32 3).alpha], planeSize plane < plane.length := by decide +kernel
  exact fun plane hplane => .inl (hshorter plane hplane)

def blackSeven : PlaneBytes :=
  ⟨[0, 0, 1, 0, 0, 0, 0], [0, 0, 1, 0, 0, 0, 0], [0, 0, 1, 0, 0, 0, 0],
    [255, 255, 1, 255, 255, 255, 255]⟩

def blackSix : PlaneBytes :=
  ⟨[0, 0, 0, 0, 0, 0, 0], [0, 0, 0, 0, 0, 0, 0], [0, 0, 0, 0, 0, 0, 0],
    [255, 255, 0, 255, 255, 255, 255]⟩

/-- Each plane of a black image of seven pixels is encoded in seven bytes, so the client takes the
code for the plane; those of one of six pixels take seven bytes as well. -/
theorem black_seven_garbled :
    decodeFrom readPlanes (encode (List.replicate 28 0) 7 1 28 3) = .ok blackSeven ∧
    ¬ FrameArrives (encode (List.replicate 28 0) 7 1 28 3)
        (planesOf (List.replicate 28 0) 7 1 28 3) ∧
    decodeFrom readPlanes (encode (List.replicate 24 0) 6 1 24 3) = .ok blackSix ∧
    ¬ FrameArrives (encode (List.replicate 24 0) 6 1 24 3)
        (planesOf (List.replicate 24 0) 6 1 24 3) := by
  have hseven : decodeFrom readPlanes (encode (replicate 28 0) 7 1 28 3) = .ok blackSeven := by
    decide +kernel
  have hsix : decodeFrom readPlanes (encode (replicate 24 0) 6 1 24 3) = .ok blackSix := by
    decide +kernel
  refine ⟨hseven, ?_, hsix, ?_⟩
  · rintro ⟨read, hread, ⟨-, hluma⟩, -⟩
    cases hseven.symm.trans hread
    exact absurd hluma (by decide +kernel)
  · rintro ⟨read, hread, ⟨hcount, -⟩, -⟩
    cases hsix.symm.trans hread
    exact absurd hcount (by decide +kernel)

end Kmsrdp.Guarantees.NsCodecPlanes
