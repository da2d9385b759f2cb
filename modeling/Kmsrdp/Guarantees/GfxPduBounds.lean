import Kmsrdp.Source.Rdpegfx.Session

/-!
# The bounds of a GFX PDU

The decoder checks that the declared length of a PDU is there, but reads the fields from all that is
left; `on_data` goes on by the declared length.
-/
namespace Kmsrdp.Guarantees.GfxPduBounds
open Library.ByteString Source.Pdu Source.Rdpegfx List Inner

def declaredLength (data : Bytes) : Nat :=
  match decodeFrom (advance 4 >>= fun _ => readU32Le) data with
  | .ok pduLength => pduLength
  | .error _ => 0

/-- The bytes the PDU claims for itself, at least its header. -/
def ownBytes (data : Bytes) : Bytes := data.take (max gfxHeaderSize (declaredLength data))

def Complete (data : Bytes) : Prop :=
  gfxHeaderSize ≤ declaredLength data ∧ declaredLength data ≤ data.length

def Decodes (data : Bytes) : Prop := ∃ message, decodeClientMessage data = .ok message

def u16At (buf : Bytes) (i : Nat) : Nat := (buf.getD i 0).toNat + (buf.getD (i + 1) 0).toNat * 256

def u32At (buf : Bytes) (i : Nat) : Nat :=
  (buf.getD i 0).toNat + (buf.getD (i + 1) 0).toNat * 256 + (buf.getD (i + 2) 0).toNat * 65536 +
    (buf.getD (i + 3) 0).toNat * 16777216

/-- What that many capability sets take: each has a version, a length and as many bytes. -/
def setsSize : Nat → Bytes → Nat
  | 0, _ => 0
  | count + 1, buf => 8 + u32At buf 4 + setsSize count (buf.drop (8 + u32At buf 4))

/-- What the fields of a PDU take behind its header: three numbers of a frame acknowledgement, the
count and the capability sets of an advertisement, and nothing of any other. -/
def fieldsSize (cmdId : Nat) (body : Bytes) : Nat :=
  if cmdId = cmdCapsAdvertise then 2 + setsSize (u16At body 0) (body.drop 2)
  else if cmdId = cmdFrameAcknowledge then 12
  else 0

/-- The PDU is long enough for its own fields. -/
def HoldsFields (pdu : Bytes) : Prop :=
  gfxHeaderSize + fieldsSize (u16At pdu 0) (pdu.drop gfxHeaderSize) ≤ pdu.length

def onEach : Inner → List Bytes → List Bytes × Inner
  | inner, [] => ([], inner)
  | inner, data :: rest =>
    let handled := inner.onData data
    let later := onEach handled.2 rest
    (handled.1 ++ later.1, later.2)

section Takes
variable {α γ : Type} {decoder : Decoder α} {size : Bytes → Nat} {value : Bytes → α}

/-- The decoder takes as many bytes as `size` says and gives `value`, whatever is behind them, or
fails if they are not there. -/
structure Takes (decoder : Decoder α) (size : Bytes → Nat) (value : Bytes → α) : Prop where
  ok : ∀ buf more, size buf ≤ buf.length →
    decoder (buf ++ more) = .ok (value buf, buf.drop (size buf) ++ more)
  fails : ∀ buf, buf.length < size buf → ∃ e, decoder buf = .error e

theorem Takes.extends (h : Takes decoder size value) : Extends decoder := by
  intro buf a left hok more
  by_cases hfits : size buf ≤ buf.length
  · have halone := h.ok buf [] hfits
    rw [append_nil, append_nil, hok] at halone
    cases halone
    exact h.ok buf more hfits
  · obtain ⟨e, he⟩ := h.fails buf (Nat.lt_of_not_le hfits)
    cases hok.symm.trans he

theorem Takes.bind {next : α → Decoder γ} {size' : α → Bytes → Nat} {value' : α → Bytes → γ}
    (h : Takes decoder size value)
    (hnext : ∀ a, Takes (next a) (size' a) (value' a)) :
    Takes (decoder >>= next) (fun buf => size buf + size' (value buf) (buf.drop (size buf)))
      fun buf => value' (value buf) (buf.drop (size buf)) := by
  constructor
  · intro buf more hfits
    have hrest := (hnext (value buf)).ok (buf.drop (size buf)) more (by rw [length_drop]; omega)
    rw [bind_ok (h.ok buf more (by omega)), hrest, drop_drop]
  · intro buf hshort
    by_cases hfirst : buf.length < size buf
    · obtain ⟨e, he⟩ := h.fails buf hfirst
      refine ⟨e, ?_⟩
      change (decoder buf >>= fun p => next p.1 p.2) = _
      rw [he]
      rfl
    · have hok := h.ok buf [] (Nat.le_of_not_lt hfirst)
      rw [append_nil, append_nil] at hok
      rw [bind_ok hok]
      exact (hnext (value buf)).fails _ (by rw [length_drop]; omega)

theorem takes_pure (a : α) : Takes (pure a : Decoder α) (fun _ => 0) fun _ => a :=
  ⟨fun _ _ _ => rfl, fun _ h => absurd h (Nat.not_lt_zero _)⟩

theorem Takes.return (h : Takes decoder size value) (f : α → γ) :
    Takes (decoder >>= fun a => pure (f a)) size fun buf => f (value buf) :=
  h.bind fun a => takes_pure (f a)

theorem Takes.size_eq {size' : Bytes → Nat}
    (h : Takes decoder size value)
    (heq : ∀ buf, size buf = size' buf) : Takes decoder size' value :=
  funext heq ▸ h

end Takes

theorem takes_readU16Le : Takes readU16Le (fun _ => 2) (u16At · 0) := by
  constructor
  · intro buf more hfits
    match buf with
    | _ :: _ :: _ => rfl
  · intro buf hshort
    match buf with
    | [] | [_] => exact ⟨_, rfl⟩

theorem takes_readU32Le : Takes readU32Le (fun _ => 4) (u32At · 0) := by
  constructor
  · intro buf more hfits
    match buf with
    | _ :: _ :: _ :: _ :: _ => rfl
  · intro buf hshort
    match buf with
    | [] | [_] | [_, _] | [_, _, _] => exact ⟨_, rfl⟩

theorem takes_readSlice (n : Nat) : Takes (readSlice n) (fun _ => n) (take n) := by
  constructor
  · intro buf more hfits
    rw [readSlice, if_neg (by rw [length_append]; omega), take_append_of_le_length hfits,
      drop_append_of_le_length hfits]
  · intro buf hshort
    exact ⟨_, if_pos hshort⟩

theorem takes_decodeSets (count : Nat) :
    ∃ value, Takes (decodeSets count) (setsSize count) value := by
  induction count with
  | zero => exact ⟨_, takes_pure _⟩
  | succ count ih =>
    obtain ⟨value, hrest⟩ := ih
    have hset : Takes Source.Rdpegfx.RawCapabilitySet.decode _ _ :=
      takes_readU32Le.bind fun version => takes_readU32Le.bind fun length =>
        (takes_readSlice length).return (Source.Rdpegfx.RawCapabilitySet.mk version)
    have hsets : Takes (decodeSets (count + 1)) _ _ := hset.bind fun set => hrest.return (set :: ·)
    refine ⟨_, hsets.size_eq fun buf => ?_⟩
    have hlength : 4 + (4 + u32At (buf.drop 4) 0) = 8 + u32At buf 4 := by
      simp only [u32At, getD_eq_getElem?_getD, getElem?_drop, Nat.reduceAdd]
      omega
    rw [hlength]
    rfl

theorem takes_decodeBody (cmdId : Nat) :
    ∃ value, Takes (decodeBody cmdId) (fieldsSize cmdId) value := by
  unfold decodeBody fieldsSize
  split
  · choose value hsets using takes_decodeSets
    exact ⟨_, takes_readU16Le.bind fun count => (hsets count).return ClientMessage.capsAdvertise⟩
  split
  · exact ⟨_, takes_readU32Le.bind fun queueDepth => takes_readU32Le.bind fun frameId =>
      takes_readU32Le.return (ClientMessage.frameAcknowledge queueDepth frameId)⟩
  split <;> exact ⟨_, takes_pure _⟩

theorem getD_append_zeros (buf : Bytes) (n i : Nat) :
    (buf ++ replicate n 0).getD i 0 = buf.getD i 0 := by
  rw [getD_eq_getElem?_getD, getD_eq_getElem?_getD, getElem?_append]
  split
  · rfl
  · next hout =>
    rw [getElem?_eq_none (Nat.le_of_not_lt hout), getElem?_replicate]
    split <;> rfl

theorem setsSize_append_zeros (count : Nat) (buf : Bytes) (n : Nat) :
    setsSize count (buf ++ replicate n 0) = setsSize count buf := by
  induction count generalizing buf n with
  | zero => rfl
  | succ count ih => simp only [setsSize, u32At, getD_append_zeros, drop_append, drop_replicate, ih]

/-- Bytes that are not there count as zeros, so that enough zeros complete every body. -/
theorem exists_completion (cmdId : Nat) (body : Bytes) :
    ∃ more message left, decodeBody cmdId (body ++ more) = .ok (message, left) := by
  obtain ⟨value, htakes⟩ := takes_decodeBody cmdId
  have hsize : ∀ n, fieldsSize cmdId (body ++ replicate n 0) = fieldsSize cmdId body := fun n => by
    simp only [fieldsSize, u16At, getD_append_zeros, drop_append, drop_replicate, setsSize_append_zeros]
  have hok := htakes.ok (body ++ replicate (fieldsSize cmdId body) 0) [] (by simp [hsize])
  rw [append_nil] at hok
  exact ⟨_, _, _, hok⟩

/-- What a header says, whatever body it is put in front of. -/
structure Header (head : Bytes) (cmdId pduLength : Nat) : Prop where
  length_eq : head.length = gfxHeaderSize
  command : ∀ body, u16At (head ++ body) 0 = cmdId
  declared : ∀ body, declaredLength (head ++ body) = pduLength
  decode : ∀ body, decodeClientMessage (head ++ body) =
    if pduLength < gfxHeaderSize then .error (.invalidValue "rdpegfx.pduLength" "smaller than header")
    else if body.length < pduLength - gfxHeaderSize then
      .error (.notEnoughBytes (pduLength - gfxHeaderSize) body.length)
    else decodeFrom (decodeBody cmdId) body

theorem header_or_short (data : Bytes) :
    data.length < gfxHeaderSize ∧ declaredLength data = 0 ∨
    ∃ head body cmdId pduLength, data = head ++ body ∧ Header head cmdId pduLength := by
  match data with
  | [] | [_] | [_, _] | [_, _, _] | [_, _, _, _] | [_, _, _, _, _] | [_, _, _, _, _, _]
  | [_, _, _, _, _, _, _] =>
    exact .inl ⟨by simp [gfxHeaderSize], rfl⟩
  | b0 :: b1 :: b2 :: b3 :: b4 :: b5 :: b6 :: b7 :: body =>
    have hcmdId : ∀ rest, readU16Le (b0 :: b1 :: rest) = .ok (b0.toNat + b1.toNat * 256, rest) :=
      fun _ => rfl
    have hflags : ∀ rest, readU16Le (b2 :: b3 :: rest) = .ok (b2.toNat + b3.toNat * 256, rest) :=
      fun _ => rfl
    obtain ⟨pduLength, hlength⟩ : ∃ n, ∀ rest, readU32Le (b4 :: b5 :: b6 :: b7 :: rest) =
      .ok (n, rest) :=
      ⟨_, fun _ => rfl⟩
    refine .inr ⟨[b0, b1, b2, b3, b4, b5, b6, b7], body, b0.toNat + b1.toNat * 256, pduLength, rfl,
      rfl, fun _ => rfl, ?_, ?_⟩
    · intro body
      have hdeclared : (advance 4 >>= fun _ => readU32Le) ([b0, b1, b2, b3, b4, b5, b6, b7] ++ body) =
          .ok (pduLength, body) := hlength body
      simp only [declaredLength, decodeFrom, hdeclared, Except.map]
    · intro body
      simp only [decodeClientMessage, decodeFrom, cons_append, nil_append]
      rw [bind_ok (hcmdId _), bind_ok (hflags _), bind_ok (hlength _)]
      by_cases hshort : pduLength < gfxHeaderSize
      · simp only [hshort, if_true]
        rfl
      · have hensure : ensure (pduLength - gfxHeaderSize) body = if body.length <
            pduLength - gfxHeaderSize then
            .error (.notEnoughBytes (pduLength - gfxHeaderSize) body.length) else .ok ((), body) := rfl
        by_cases hbody : body.length < pduLength - gfxHeaderSize <;>
          simp [bind, StateT.bind, hensure, Except.bind, hshort, hbody, Except.map]

variable {head body : Bytes} {cmdId pduLength : Nat}
section
variable (h : Header head cmdId pduLength)
include h

theorem Header.ownBytes_eq (body : Bytes) :
    ownBytes (head ++ body) = head ++ body.take (pduLength - gfxHeaderSize) := by
  have htake : max gfxHeaderSize pduLength = head.length + (pduLength - gfxHeaderSize) := by
    rw [h.length_eq]
    omega
  rw [ownBytes, h.declared, htake, take_length_add_append]

theorem Header.of_ownBytes_eq {other : Bytes} (hsame : ownBytes other = ownBytes (head ++ body)) :
    ∃ body',
      other = head ++ body' ∧
      body'.take (pduLength - gfxHeaderSize) = body.take (pduLength - gfxHeaderSize) := by
  rw [h.ownBytes_eq] at hsame
  rcases header_or_short other with ⟨hshort, -⟩ | ⟨head', body', cmdId', pduLength', rfl, h'⟩
  · have hlength := congrArg length hsame
    simp only [ownBytes, length_take, length_append, h.length_eq] at hlength
    omega
  · rw [h'.ownBytes_eq] at hsame
    obtain ⟨rfl, htake⟩ := append_inj hsame (h'.length_eq.trans h.length_eq.symm)
    obtain rfl : pduLength' = pduLength := (h'.declared []).symm.trans (h.declared [])
    exact ⟨body', rfl, htake⟩

theorem Header.decode_of_le
    (hheader : gfxHeaderSize ≤ pduLength)
    (hbody : pduLength - gfxHeaderSize ≤ body.length) :
    decodeClientMessage (head ++ body) = decodeFrom (decodeBody cmdId) body := by
  rw [h.decode, if_neg (Nat.not_lt.mpr hheader), if_neg (Nat.not_lt.mpr hbody)]

theorem Header.complete_iff :
    Complete (head ++ body) ↔
      gfxHeaderSize ≤ pduLength ∧ pduLength - gfxHeaderSize ≤ body.length := by
  rw [Complete, h.declared, length_append, h.length_eq]
  omega

end

theorem decode_append {data : Bytes}
    (hcomplete : Complete data)
    {message : ClientMessage}
    (hown : decodeClientMessage (ownBytes data) = .ok message) :
    decodeClientMessage data = .ok message := by
  rcases header_or_short data with ⟨-, hzero⟩ | ⟨head, body, cmdId, pduLength, rfl, h⟩
  · simp [Complete, hzero, gfxHeaderSize] at hcomplete
  obtain ⟨hheader, hbody⟩ := h.complete_iff.mp hcomplete
  rw [h.ownBytes_eq, h.decode_of_le hheader (by rw [length_take]; omega)] at hown
  obtain ⟨left, hdecode⟩ := exists_of_decodeFrom_eq_ok hown
  obtain ⟨value, htakes⟩ := takes_decodeBody cmdId
  have hmore := htakes.extends _ _ _ hdecode (body.drop (pduLength - gfxHeaderSize))
  rw [take_append_drop] at hmore
  rw [h.decode_of_le hheader hbody, decodeFrom, hmore]
  rfl

/-- A PDU that is there decodes from its own bytes exactly if it is long enough for its fields. -/
theorem decodes_ownBytes_iff {data : Bytes} (hcomplete : Complete data) :
    Decodes (ownBytes data) ↔ HoldsFields (ownBytes data) := by
  rcases header_or_short data with ⟨-, hzero⟩ | ⟨head, body, cmdId, pduLength, rfl, h⟩
  · simp [Complete, hzero, gfxHeaderSize] at hcomplete
  obtain ⟨hheader, hbody⟩ := h.complete_iff.mp hcomplete
  obtain ⟨value, htakes⟩ := takes_decodeBody cmdId
  rw [h.ownBytes_eq, Decodes, h.decode_of_le hheader (by rw [length_take]; omega), HoldsFields,
    h.command, ← h.length_eq, drop_left, length_append, Nat.add_le_add_iff_left]
  constructor
  · rintro ⟨message, hdecode⟩
    by_contra hshort
    obtain ⟨left, hdecode⟩ := exists_of_decodeFrom_eq_ok hdecode
    obtain ⟨e, he⟩ := htakes.fails _ (Nat.lt_of_not_le hshort)
    cases hdecode.symm.trans he
  · intro hlong
    have hok := htakes.ok _ [] hlong
    rw [append_nil] at hok
    exact ⟨_, by rw [decodeFrom, hok]; rfl⟩

/-- Inputs with the same first PDU are decoded alike if and only if this PDU, once it is there, is
decoded from its own bytes. -/
theorem independent_iff (data : Bytes) :
    (∀ other, ownBytes other = ownBytes data →
       decodeClientMessage other = decodeClientMessage data) ↔
      (Complete data → Decodes (ownBytes data)) := by
  rcases header_or_short data with ⟨hshort, hzero⟩ | ⟨head, body, cmdId, pduLength, rfl, h⟩
  · constructor
    · intro _ hcomplete
      simp [Complete, hzero, gfxHeaderSize] at hcomplete
    · intro _ other hother
      have hlength := congrArg length hother
      simp only [ownBytes, length_take, hzero] at hlength
      rw [ownBytes, ownBytes, take_of_length_le (by omega), take_of_length_le (by omega)] at hother
      rw [hother]
  by_cases hcomplete : Complete (head ++ body)
  · obtain ⟨hheader, hbody⟩ := h.complete_iff.mp hcomplete
    have htake : (body.take (pduLength - gfxHeaderSize)).length = pduLength - gfxHeaderSize :=
      length_take_of_le hbody
    constructor
    · -- the PDU alone, and with bytes behind it that complete what it lacks
      intro hsame _
      obtain ⟨more, message, left, hdecode⟩ :=
        exists_completion cmdId (body.take (pduLength - gfxHeaderSize))
      have hfront : ∀ more, ownBytes (head ++ (body.take (pduLength - gfxHeaderSize) ++ more)) =
          ownBytes (head ++ body) := fun more => by
        rw [h.ownBytes_eq, h.ownBytes_eq, take_left' htake]
      have hown := hsame _ (hfront [])
      have hcompleted := hsame _ (hfront more)
      rw [h.decode_of_le hheader (by rw [length_append]; omega), decodeFrom, hdecode] at hcompleted
      rw [append_nil, ← h.ownBytes_eq] at hown
      exact ⟨message, hown.trans hcompleted.symm⟩
    · intro hdecodes other hother
      obtain ⟨message, hmessage⟩ := hdecodes hcomplete
      obtain ⟨body', rfl, hbody'⟩ := h.of_ownBytes_eq hother
      have hlength := congrArg length hbody'
      rw [htake, length_take] at hlength
      rw [decode_append hcomplete hmessage,
        decode_append (h.complete_iff.mpr ⟨hheader, by omega⟩) (hother ▸ hmessage)]
  · refine iff_of_true (fun other hother => ?_) fun hthere => absurd hthere hcomplete
    obtain ⟨body', rfl, hbody⟩ := h.of_ownBytes_eq hother
    rw [h.decode, h.decode]
    by_cases hheader : pduLength < gfxHeaderSize
    · simp [hheader]
    · rw [h.complete_iff] at hcomplete
      have hlength := congrArg length hbody
      rw [length_take, length_take] at hlength
      rw [take_of_length_le (by omega), take_of_length_le (by omega)] at hbody
      rw [hbody]

theorem onDataUpTo_of_le {turns turns' : Nat} (inner : Inner) (data : Bytes)
    (h : data.length ≤ turns)
    (h' : data.length ≤ turns') : inner.onDataUpTo turns data = inner.onDataUpTo turns' data := by
  induction turns generalizing turns' inner data with
  | zero =>
    obtain rfl := eq_nil_of_length_eq_zero (Nat.le_zero.mp h)
    cases turns' <;> simp [onDataUpTo]
  | succ turns ih =>
    cases turns' with
    | zero =>
      obtain rfl := eq_nil_of_length_eq_zero (Nat.le_zero.mp h')
      simp [onDataUpTo]
    | succ turns' =>
      unfold onDataUpTo
      split
      · rfl
      split
      · next message pduLength _ _ =>
        split
        · rfl
        · next hfits =>
          have hrest : (data.drop pduLength).length ≤ turns ∧
              (data.drop pduLength).length ≤ turns' := by
            rw [length_drop]
            omega
          simp only [@ih turns' (inner.onClientMessage message).2 _ hrest.1 hrest.2]
      · rfl

theorem onData_turn {data : Bytes} (inner : Inner)
    (hcomplete : Complete data)
    {message : ClientMessage}
    (hmessage : decodeClientMessage data = .ok message) :
    inner.onData data =
      ((inner.onClientMessage message).1 ++
          ((inner.onClientMessage message).2.onData (data.drop (declaredLength data))).1,
        ((inner.onClientMessage message).2.onData (data.drop (declaredLength data))).2) := by
  obtain ⟨hheader, hlength⟩ := hcomplete
  have hsize : gfxHeaderSize = 8 := rfl
  obtain ⟨turns, hturns⟩ : ∃ turns, data.length = turns + 1 := ⟨data.length - 1, by omega⟩
  have hne : data ≠ [] := ne_nil_of_length_eq_add_one hturns
  have hdeclared : decodeFrom (advance 4 >>= fun _ => readU32Le) data = .ok (declaredLength data) := by
    unfold declaredLength at hheader ⊢
    split at hheader
    · next h => rw [h]
    · omega
  have hfits : ¬ (declaredLength data < 8 ∨ data.length < declaredLength data) := by omega
  rw [onData, hturns, onDataUpTo]
  simp only [hne, if_false, hmessage, hdeclared, hfits]
  rw [onDataUpTo_of_le _ _ (by rw [length_drop]; omega) (Nat.le_refl _)]
  rfl

theorem onData_append {pdu : Bytes} (inner : Inner)
    (hcomplete : Complete pdu)
    (hown : ownBytes pdu = pdu)
    (hdecodes : Decodes pdu)
    (tail : Bytes) : inner.onData (pdu ++ tail) = onEach inner [pdu, tail] := by
  obtain ⟨message, hmessage⟩ := hdecodes
  have hlength : declaredLength pdu = pdu.length := by
    have htake := congrArg length hown
    obtain ⟨hheader, hle⟩ := hcomplete
    rw [ownBytes, length_take] at htake
    omega
  have hsame : declaredLength (pdu ++ tail) = pdu.length := by
    rcases header_or_short pdu with ⟨-, hzero⟩ | ⟨head, body, cmdId, pduLength, rfl, h⟩
    · simp [Complete, hzero, gfxHeaderSize] at hcomplete
    · rw [append_assoc, h.declared, ← hlength, h.declared]
  have hfirst : ownBytes (pdu ++ tail) = pdu := by
    rw [ownBytes, hsame, Nat.max_eq_right (hlength ▸ hcomplete.1), take_left]
  have hwhole : Complete (pdu ++ tail) := by
    rw [Complete, hsame, length_append]
    exact ⟨hlength ▸ hcomplete.1, Nat.le_add_right _ _⟩
  rw [onData_turn inner hwhole (decode_append hwhole (hfirst.symm ▸ hmessage)), hsame, drop_left]
  simp only [onEach, onData_turn inner hcomplete hmessage, hlength, drop_length]
  simp [onData, onDataUpTo]

/-- A message is decoded from its own PDU if and only if that PDU, once it is there, is long enough
for its fields, and behind PDUs that are the data is handled as if it had come in separate payloads.
-/
theorem gfx_pdus_stand_alone (data tail : Bytes) (pdus : List Bytes) (inner : Inner) :
    ((∀ other, ownBytes other = ownBytes data →
        decodeClientMessage other = decodeClientMessage data) ↔
       (Complete data → HoldsFields (ownBytes data))) ∧
    ((∀ pdu ∈ pdus, Complete pdu ∧ ownBytes pdu = pdu ∧ HoldsFields pdu) →
       inner.onData (pdus.flatten ++ tail) = onEach inner (pdus ++ [tail])) := by
  constructor
  · rw [independent_iff]
    exact forall_congr' decodes_ownBytes_iff
  · intro hpdus
    induction pdus generalizing inner with
    | nil => simp [onEach]
    | cons pdu rest ih =>
      obtain ⟨hcomplete, hown, hfields⟩ := hpdus pdu mem_cons_self
      have hdecodes : Decodes pdu := hown ▸ (decodes_ownBytes_iff hcomplete).mpr (hown.symm ▸ hfields)
      have hrest := fun inner => ih inner fun other hmem => hpdus other (mem_cons_of_mem pdu hmem)
      rw [flatten_cons, append_assoc, onData_append inner hcomplete hown hdecodes]
      simp [onEach, hrest]

/-- A frame acknowledgement without its fields takes them from the PDU behind it. -/
theorem short_acknowledge_reads_on :
    let short := gfxPdu cmdFrameAcknowledge []
    let next := gfxPdu cmdCacheImportOffer [7, 0, 0, 0]
    Complete short ∧
    ownBytes (short ++ next) = ownBytes short ∧
    decodeClientMessage short = .error (.notEnoughBytes 4 0) ∧
    decodeClientMessage (short ++ next) = .ok (.frameAcknowledge 0x10 12 7) := by
  unfold Complete
  decide +kernel

end Kmsrdp.Guarantees.GfxPduBounds
