import Kmsrdp.Source.Pdu.NsCodec

/-!
# A client that reads NSCodec frames

A plane with fewer bytes than pixels is run-length encoded, any other is raw. Two equal bytes start
a run, whose length follows in one byte or, behind 0xFF, in four; the last four bytes are never
encoded, and the byte ahead of them starts no run.
-/
namespace Kmsrdp.Client.NsCodecPlanes
open Library.ByteString Library.Runs Source.Pdu Source.Pdu.NsCodec List UInt8

def readRunLength : Decoder Nat := do
  let short ← readU8
  if short = 0xFF then readU32Le else return short.toNat + 2

/-- The rest of a plane of which `left` bytes are missing. A turn gives at least one byte, unless
a run has length zero; such data does not end. -/
def decodeRle : Nat → Nat → Decoder Bytes
  | 0, _ => fail "nscodec.rle" "run of length zero"
  | turns + 1, left =>
    if left ≤ 4 then readSlice left
    else do
      let value ← readU8
      let next ← peekU8
      if left = 5 ∨ next ≠ value then
        let rest ← decodeRle turns (left - 1)
        return value :: rest
      else
        let _ ← readU8
        let run ← readRunLength
        if left < run + 4 then fail "nscodec.rle" "run passes the last four bytes"
        else
          let rest ← decodeRle turns (left - run)
          return List.replicate run value ++ rest

def decodePlane (count : Nat) (bytes : Bytes) : Except DecodeError Bytes :=
  if bytes.length < count then decodeFrom (decodeRle count count) bytes else .ok bytes

structure PlaneBytes where
  (luma orange green alpha : Bytes)
  deriving DecidableEq

def readPlanes : Decoder PlaneBytes := do
  let lumaCount ← readU32Le
  let orangeCount ← readU32Le
  let greenCount ← readU32Le
  let alphaCount ← readU32Le
  let _ ← readSlice 4
  let luma ← readSlice lumaCount
  let orange ← readSlice orangeCount
  let green ← readSlice greenCount
  let alpha ← readSlice alphaCount
  return ⟨luma, orange, green, alpha⟩

theorem head?_code (bytes : Bytes) : (code bytes).head? = bytes.head? := by
  induction bytes using run_induction with
  | nil => rfl
  | run v n rest h _ =>
    rw [code_run_append h, replicate_succ, cons_append, head?_cons]
    unfold runBytes
    split
    · rfl
    · split <;> rfl

variable {run : Nat}

theorem reads_readRunLength_short (hrun : 2 ≤ run) (hshort : run ≤ 255) :
    Reads readRunLength [ofNat (run - 2)] run := by
  intro rest
  have hlength : (ofNat (run - 2)).toNat = run - 2 := by
    rw [toNat_ofNat', Nat.mod_eq_of_lt (by omega)]
  have hescape : ¬ ofNat (run - 2) = 0xFF := by
    intro heq
    have hvalue := congrArg toNat heq
    rw [hlength] at hvalue
    have hmax : (0xFF : UInt8).toNat = 255 := rfl
    omega
  rw [readRunLength, bind_ok (reads_readU8 _ rest), if_neg hescape, hlength, Nat.sub_add_cancel hrun]
  rfl

theorem reads_readRunLength_long (hfits : run ≤ u32Max) :
    Reads readRunLength (rleLongEscape :: u32Le (min run u32Max)) run := by
  intro rest
  rw [readRunLength, cons_append, bind_ok (readU8_cons _ _),
    if_pos (show rleLongEscape = 0xFF from rfl), Nat.min_eq_left hfits]
  exact readU32Le_of_lt (by unfold u32Max at hfits; omega) rest

theorem runBytes_eq {v : UInt8} (hrun : 2 ≤ run) (hfits : run ≤ u32Max) :
    ∃ length, runBytes v run = v :: v :: length ∧ Reads readRunLength length run := by
  unfold runBytes
  rw [if_neg (by omega)]
  split
  · next hshort => exact ⟨_, rfl, reads_readRunLength_short hrun hshort⟩
  · exact ⟨_, rfl, reads_readRunLength_long hfits⟩

theorem peekU8_of_head? {b : UInt8} {buf : Bytes} (h : buf.head? = some b) :
    peekU8 buf = .ok (b, buf) := by
  cases buf with
  | nil => cases h
  | cons c rest =>
    cases h
    rfl

/-- The decoder reads a coded plane and its four raw bytes. -/
theorem decodeRle_code {tail : Bytes}
    (htail : tail.length = 4)
    (body : Bytes) {turns : Nat}
    (hturns : body.length < turns)
    (hfits : body.length ≤ u32Max) :
    decodeRle turns (body.length + 4) (code body ++ tail) = .ok (body ++ tail, []) := by
  induction body using run_induction generalizing turns with
  | nil =>
    obtain ⟨turns, rfl⟩ : ∃ k, turns = k + 1 := ⟨turns - 1, by omega⟩
    rw [decodeRle, if_pos (by simp)]
    simpa using readSlice_append htail []
  | run v n rest h ih =>
    rw [length_append, length_replicate] at hturns hfits
    obtain ⟨turns, rfl⟩ : ∃ k, turns = k + 1 := ⟨turns - 1, by omega⟩
    have hrest : decodeRle turns _ _ = _ := ih (by omega) (by omega)
    rw [code_run_append h, append_assoc, length_append, length_replicate, decodeRle, if_neg (by omega)]
    obtain rfl | hlong := Nat.eq_zero_or_pos n
    · -- a single byte: what follows is another one, or the last four bytes
      obtain ⟨next, hnext⟩ : ∃ next, (code rest ++ tail).head? = some next := by
        have hne : code rest ++ tail ≠ [] := by
          intro hnil
          rw [append_eq_nil_iff] at hnil
          rw [hnil.2] at htail
          cases htail
        exact ⟨_, head?_eq_some_head hne⟩
      have hliteral : (0 + 1 + rest.length + 4 = 5 ∨ next ≠ v) := by
        cases rest with
        | nil => exact .inl rfl
        | cons b rest =>
          refine .inr ?_
          rintro rfl
          rw [head?_append, head?_code] at hnext
          exact h (by simpa using hnext)
      rw [show runBytes v (0 + 1) = [v] from rfl, singleton_append, bind_ok (readU8_cons _ _),
        bind_ok (peekU8_of_head? hnext), if_pos hliteral,
        show 0 + 1 + rest.length + 4 - 1 = rest.length + 4 by omega, bind_ok hrest]
      rfl
    · obtain ⟨length, hbytes, hlength⟩ := runBytes_eq (v := v) (show 2 ≤ n + 1 by omega) (by omega)
      rw [hbytes, cons_append, cons_append, bind_ok (readU8_cons _ _),
        bind_ok (peekU8_of_head? rfl), if_neg (by rintro (hfive | hne); exacts [by omega, hne rfl]),
        bind_ok (readU8_cons _ _), bind_ok (hlength _), if_neg (by omega),
        show n + 1 + rest.length + 4 - (n + 1) = rest.length + 4 by omega, bind_ok hrest,
        append_assoc]
      rfl

theorem decodeRle_rleEncode {plane : Bytes}
    (hfits : plane.length ≤ u32Max)
    {turns : Nat}
    (hturns : plane.length - 4 < turns) :
    decodeRle turns plane.length (rleEncode plane) = .ok (plane, []) := by
  rw [rleEncode]
  dsimp only
  split
  · next hshort =>
    obtain ⟨turns, rfl⟩ : ∃ k, turns = k + 1 := ⟨turns - 1, by omega⟩
    rw [decodeRle, if_pos hshort]
    have hslice : readSlice plane.length (plane ++ []) = .ok (plane, []) := readSlice_append rfl []
    rwa [append_nil] at hslice
  · next hlong =>
    have hbody : (plane.take (plane.length - 4)).length = plane.length - 4 := by
      rw [length_take]
      omega
    have htail : (plane.drop (plane.length - 4)).length = 4 := by
      rw [length_drop]
      omega
    have hdecode : decodeRle turns _ _ = _ :=
      decodeRle_code htail (plane.take (plane.length - 4)) (by omega) (by omega)
    rw [hbody, Nat.sub_add_cancel (by omega), take_append_drop] at hdecode
    rw [encodeRuns_eq_code (by omega) (by omega), hdecode]

theorem readPlanes_frame {luma orange green alpha : Bytes} (colorLossLevel : Nat)
    (hluma : luma.length ≤ u32Max)
    (horange : orange.length ≤ u32Max)
    (hgreen : green.length ≤ u32Max)
    (halpha : alpha.length ≤ u32Max) :
    decodeFrom readPlanes (frame colorLossLevel luma orange green alpha) =
      .ok ⟨luma, orange, green, alpha⟩ := by
  have hcount : ∀ {plane : Bytes}, plane.length ≤ u32Max →
      Reads readU32Le (u32Le (planeLen plane)) plane.length := by
    intro plane h
    rw [planeLen, Nat.min_eq_left h]
    exact reads_readU32Le (by unfold u32Max at h; omega)
  have hreads : Reads readPlanes (frame colorLossLevel luma orange green alpha)
      ⟨luma, orange, green, alpha⟩ :=
    (hcount hluma).bind <| (hcount horange).bind <| (hcount hgreen).bind <| (hcount halpha).bind <|
      (reads_readSlice [ofNat colorLossLevel, 0, 0, 0]).bind <| (reads_readSlice luma).bind <|
      (reads_readSlice orange).bind <| (reads_readSlice green).bind <| (reads_readSlice alpha).return _
  simpa using hreads.decodeFrom []

theorem length_of_readSlice {n : Nat} {buf part left : Bytes}
    (h : readSlice n buf = .ok (part, left)) : part.length = n := by
  unfold readSlice at h
  split at h
  · cases h
  · cases h
    rw [length_take]
    omega

theorem length_of_readPlanes_frame {luma orange green alpha : Bytes} {colorLossLevel : Nat}
    {read : PlaneBytes}
    (h : decodeFrom readPlanes (frame colorLossLevel luma orange green alpha) = .ok read) :
    read.luma.length = planeLen luma ∧
    read.orange.length = planeLen orange ∧
    read.green.length = planeLen green ∧
    read.alpha.length = planeLen alpha := by
  have hcount : ∀ plane : Bytes, Reads readU32Le (u32Le (planeLen plane)) (planeLen plane) := by
    intro plane
    refine reads_readU32Le ?_
    unfold planeLen u32Max
    omega
  obtain ⟨left, h⟩ := exists_of_decodeFrom_eq_ok h
  rw [readPlanes, frame, bind_ok (hcount luma _), bind_ok (hcount orange _), bind_ok (hcount green _),
    bind_ok (hcount alpha _)] at h
  obtain ⟨_, _, _, h⟩ := exists_of_bind_eq_ok h
  obtain ⟨_, _, hluma, h⟩ := exists_of_bind_eq_ok h
  obtain ⟨_, _, horange, h⟩ := exists_of_bind_eq_ok h
  obtain ⟨_, _, hgreen, h⟩ := exists_of_bind_eq_ok h
  obtain ⟨_, _, halpha, h⟩ := exists_of_bind_eq_ok h
  cases h
  exact ⟨length_of_readSlice hluma, length_of_readSlice horange, length_of_readSlice hgreen,
    length_of_readSlice halpha⟩

end Kmsrdp.Client.NsCodecPlanes
