import Kmsrdp.Library.ByteString

/-!
# The read cursor and the write buffer of the PDU codecs

Model of `rdpcore-pdu/src/cursor.rs` and of `DecodeError` in `lib.rs`. A decoder is a state
transformer on the bytes the cursor has not passed yet. Integers read are natural numbers below the
bound of their width; the write functions take the residue, as the casts do.
-/
namespace Kmsrdp.Source.Pdu
open Library.ByteString List UInt8

inductive DecodeError where
  | notEnoughBytes (needed remaining : Nat)
  | invalidValue (field reason : String)
  deriving DecidableEq

abbrev Decoder : Type → Type := StateT Bytes (Except DecodeError)

def fail {α : Type} (field reason : String) : Decoder α :=
  fun _ => .error (.invalidValue field reason)

def remaining : Decoder Nat := fun buf => .ok (buf.length, buf)

def ensure (needed : Nat) : Decoder Unit := fun buf =>
  if buf.length < needed then .error (.notEnoughBytes needed buf.length) else .ok ((), buf)

def advance (n : Nat) : Decoder Unit := fun buf => .ok ((), buf.drop n)

def peekU8 : Decoder UInt8
  | b :: rest => .ok (b, b :: rest)
  | [] => .error (.notEnoughBytes 1 0)

def readU8 : Decoder UInt8
  | b :: rest => .ok (b, rest)
  | [] => .error (.notEnoughBytes 1 0)

def readU16Be : Decoder Nat
  | high :: low :: rest => .ok (high.toNat * 256 + low.toNat, rest)
  | buf => .error (.notEnoughBytes 2 buf.length)

def readU16Le : Decoder Nat
  | low :: high :: rest => .ok (low.toNat + high.toNat * 256, rest)
  | buf => .error (.notEnoughBytes 2 buf.length)

def readU32Le : Decoder Nat
  | b0 :: b1 :: b2 :: b3 :: rest =>
    .ok (b0.toNat + b1.toNat * 256 + b2.toNat * 65536 + b3.toNat * 16777216, rest)
  | buf => .error (.notEnoughBytes 4 buf.length)

def readSlice (n : Nat) : Decoder Bytes := fun buf =>
  if buf.length < n then .error (.notEnoughBytes n buf.length) else .ok (buf.take n, buf.drop n)

def readRest : Decoder Bytes := fun buf => .ok (buf, [])

def ensureCount (count minItemBytes : Nat) : Decoder Unit := ensure (count * minItemBytes)

def readMany {α : Type} (reader : Decoder α) : Nat → Decoder (List α)
  | 0 => pure []
  | count + 1 => do
    let first ← reader
    let rest ← readMany reader count
    return first :: rest

def decodeFrom {α : Type} (decoder : Decoder α) (buf : Bytes) : Except DecodeError α :=
  (decoder buf).map Prod.fst

def u16Be (v : Nat) : Bytes := [UInt8.ofNat (v / 256), UInt8.ofNat v]

def u16Le (v : Nat) : Bytes := [UInt8.ofNat v, UInt8.ofNat (v / 256)]

def u32Le (v : Nat) : Bytes :=
  [UInt8.ofNat v, UInt8.ofNat (v / 256), UInt8.ofNat (v / 65536), UInt8.ofNat (v / 16777216)]

variable (v : Nat)

@[simp] theorem length_u16Le : (u16Le v).length = 2 := rfl

@[simp] theorem length_u16Be : (u16Be v).length = 2 := rfl

@[simp] theorem length_u32Le : (u32Le v).length = 4 := rfl

@[simp] theorem readU8_cons (b : UInt8) (rest : Bytes) : readU8 (b :: rest) = .ok (b, rest) := rfl

theorem readU16Le_u16Le (rest : Bytes) : readU16Le (u16Le v ++ rest) = .ok (v % 65536, rest) := by
  have hv : (ofNat v).toNat + (ofNat (v / 256)).toNat * 256 = v % 65536 := by
    rw [toNat_ofNat', toNat_ofNat']
    omega
  simp only [u16Le, cons_append, nil_append, readU16Le, hv]

theorem readU16Le_of_lt {v : Nat} (h : v < 65536) (rest : Bytes) :
    readU16Le (u16Le v ++ rest) = .ok (v, rest) := by
  rw [readU16Le_u16Le, Nat.mod_eq_of_lt h]

theorem readU32Le_u32Le (rest : Bytes) : readU32Le (u32Le v ++ rest) = .ok (v % 2 ^ 32, rest) := by
  have hv : (ofNat v).toNat + (ofNat (v / 256)).toNat * 256 +
      (ofNat (v / 65536)).toNat * 65536 + (ofNat (v / 16777216)).toNat * 16777216 = v % 2 ^ 32 := by
    simp only [toNat_ofNat']
    omega
  simp only [u32Le, cons_append, nil_append, readU32Le, hv]

theorem readU32Le_of_lt {v : Nat} (h : v < 2 ^ 32) (rest : Bytes) :
    readU32Le (u32Le v ++ rest) = .ok (v, rest) := by
  rw [readU32Le_u32Le, Nat.mod_eq_of_lt h]

theorem readU16Be_u16Be (rest : Bytes) : readU16Be (u16Be v ++ rest) = .ok (v % 65536, rest) := by
  have hv : (ofNat (v / 256)).toNat * 256 + (ofNat v).toNat = v % 65536 := by
    rw [toNat_ofNat', toNat_ofNat']
    omega
  simp only [u16Be, cons_append, nil_append, readU16Be, hv]

theorem readSlice_append {part : Bytes} {n : Nat} (hn : part.length = n) (rest : Bytes) :
    readSlice n (part ++ rest) = .ok (part, rest) := by
  subst hn
  simp [readSlice]

variable {α γ : Type} {decoder : Decoder α} {next : α → Decoder γ} {buf : Bytes}

theorem bind_ok {left : Bytes} {a : α} (h : decoder buf = .ok (a, left)) :
    (decoder >>= next) buf = next a left := by
  show (decoder buf >>= fun p => next p.1 p.2) = next a left
  rw [h]
  rfl

/-! ### Exact reads

`Reads decoder bytes value` says that the decoder takes exactly these bytes, whatever follows
them, and returns the value. Encoders are concatenations, decoders are `do` blocks; the rules
go along both. -/

def Reads {α : Type} (decoder : Decoder α) (bytes : Bytes) (value : α) : Prop :=
  ∀ rest, decoder (bytes ++ rest) = .ok (value, rest)

section Reads
variable {α γ : Type} {decoder : Decoder α} {next : α → Decoder γ} {bytes more : Bytes} {a : α}
    {c : γ}

theorem Reads.bind (h : Reads decoder bytes a) (hnext : Reads (next a) more c) :
    Reads (decoder >>= next) (bytes ++ more) c := by
  intro rest
  rw [append_assoc, bind_ok (h _)]
  exact hnext rest

theorem reads_pure (a : α) : Reads (pure a) [] a := fun _ => rfl

theorem Reads.return (h : Reads decoder bytes a) (f : α → γ) :
    Reads (decoder >>= fun x => pure (f x)) bytes (f a) := by
  intro rest
  rw [bind_ok (h rest)]
  rfl

theorem Reads.map (h : Reads decoder bytes a) (f : α → γ) : Reads (f <$> decoder) bytes (f a) := by
  rw [map_eq_pure_bind]
  exact h.return f

theorem Reads.decodeFrom (h : Reads decoder bytes a) (rest : Bytes) :
    decodeFrom decoder (bytes ++ rest) = .ok a := by
  rw [Pdu.decodeFrom, h rest]
  rfl

theorem reads_readU8 (b : UInt8) : Reads readU8 [b] b := fun _ => rfl

variable {v : Nat}

theorem reads_readU16Be (h : v < 65536) : Reads readU16Be (u16Be v) v := by
  intro rest
  rw [readU16Be_u16Be, Nat.mod_eq_of_lt h]

theorem reads_readU16Le (h : v < 65536) : Reads readU16Le (u16Le v) v := readU16Le_of_lt h

theorem reads_readU32Le (h : v < 2 ^ 32) : Reads readU32Le (u32Le v) v := readU32Le_of_lt h

theorem reads_mapM_map {δ ε : Type} {write : ε → Bytes} {read : ε → α} {values : List ε}
    (h : ∀ value ∈ values, Reads decoder (write value) (read value))
    {turns : List δ}
    (hturns : turns.length = values.length) :
    Reads (turns.mapM fun _ => decoder) (values.flatMap write) (values.map read) := by
  induction values generalizing turns with
  | nil =>
    rw [length_eq_zero_iff.mp hturns]
    exact reads_pure []
  | cons value values ih =>
    obtain ⟨turn, turns, rfl⟩ := exists_cons_of_length_eq_add_one hturns
    rw [mapM_cons, flatMap_cons]
    refine (h value mem_cons_self).bind ?_
    have hrest := ih (fun other hmem => h other (mem_cons_of_mem _ hmem)) (Nat.succ.inj hturns)
    exact hrest.return (read value :: ·)

theorem reads_mapM {δ : Type} {write : α → Bytes} {values : List α}
    (h : ∀ value ∈ values, Reads decoder (write value) value)
    {turns : List δ}
    (hturns : turns.length = values.length) :
    Reads (turns.mapM fun _ => decoder) (values.flatMap write) values := by
  have hread : Reads _ _ (values.map id) := reads_mapM_map h hturns
  rwa [map_id] at hread

theorem reads_readSlice (part : Bytes) : Reads (readSlice part.length) part part :=
  fun rest => readSlice_append rfl rest

end Reads

/-- Both parts of a fallible sequence succeed. -/
theorem ok_of_bind_eq_ok {ε δ κ : Type} {x : Except ε δ} {f : δ → Except ε κ} {b : κ}
    (h : (x >>= f) = .ok b) : ∃ a, x = .ok a ∧ f a = .ok b := by
  cases x with
  | error e => cases h
  | ok a => exact ⟨a, rfl, h⟩

theorem exists_of_bind_eq_ok {result : γ × Bytes} (h : (decoder >>= next) buf = .ok result) :
    ∃ a left, decoder buf = .ok (a, left) ∧ next a left = .ok result := by
  obtain ⟨⟨a, left⟩, hfirst, hsecond⟩ := ok_of_bind_eq_ok h
  exact ⟨a, left, hfirst, hsecond⟩

theorem exists_of_decodeFrom_eq_ok {a : α} (h : decodeFrom decoder buf = .ok a) :
    ∃ left, decoder buf = .ok (a, left) := by
  unfold decodeFrom at h
  cases hread : decoder buf with
  | error e => rw [hread] at h; cases h
  | ok p => rw [hread] at h; cases h; exact ⟨p.2, rfl⟩

def Shrinks {α : Type} (decoder : Decoder α) : Prop :=
  ∀ buf a left, decoder buf = .ok (a, left) → left.length ≤ buf.length

theorem Shrinks.bind (h : Shrinks decoder) (hnext : ∀ a, Shrinks (next a)) :
    Shrinks (decoder >>= next) := by
  intro buf c left hok
  obtain ⟨a, between, hfirst, hsecond⟩ := exists_of_bind_eq_ok hok
  exact Nat.le_trans (hnext a between c left hsecond) (h buf a between hfirst)

theorem shrinks_pure (a : α) : Shrinks (pure a : Decoder α) := by
  intro buf b left h
  cases h
  exact Nat.le_refl _

theorem shrinks_fail (field reason : String) : Shrinks (fail field reason : Decoder α) := by
  intro buf a left h
  cases h

theorem shrinks_readU8 : Shrinks readU8 := by
  intro buf a left h
  unfold readU8 at h
  split at h
  · cases h; exact Nat.le_succ _
  · cases h

theorem shrinks_readU16Le : Shrinks readU16Le := by
  intro buf a left h
  unfold readU16Le at h
  split at h
  · cases h; simp only [length_cons]; omega
  · cases h

theorem shrinks_readU32Le : Shrinks readU32Le := by
  intro buf a left h
  unfold readU32Le at h
  split at h
  · cases h; simp only [length_cons]; omega
  · cases h

def Extends {α : Type} (decoder : Decoder α) : Prop :=
  ∀ buf a left, decoder buf = .ok (a, left) → ∀ more, decoder (buf ++ more) = .ok (a, left ++ more)

section Extends
variable {α γ : Type} {decoder : Decoder α} {next : α → Decoder γ}

theorem Extends.bind (h : Extends decoder) (hnext : ∀ a, Extends (next a)) :
    Extends (decoder >>= next) := by
  intro buf c left hok more
  obtain ⟨a, between, hfirst, hsecond⟩ := exists_of_bind_eq_ok hok
  rw [bind_ok (h buf a between hfirst more)]
  exact hnext a between c left hsecond more

theorem extends_pure (a : α) : Extends (pure a : Decoder α) := by
  intro buf b left h more
  cases h
  rfl

theorem extends_fail (field reason : String) : Extends (fail field reason : Decoder α) := by
  intro buf a left h
  cases h

theorem extends_peekU8 : Extends peekU8 := by
  intro buf a left h more
  cases buf with
  | nil => cases h
  | cons b rest => cases h; rfl

theorem extends_readU8 : Extends readU8 := by
  intro buf a left h more
  cases buf with
  | nil => cases h
  | cons b rest => cases h; rfl

theorem extends_readU16Be : Extends readU16Be := by
  intro buf a left h more
  unfold readU16Be at h
  split at h
  · cases h; rfl
  · cases h

theorem extends_readSlice (n : Nat) : Extends (readSlice n) := by
  intro buf a left h more
  unfold readSlice at h
  split at h
  · cases h
  · next hlong =>
    have hle := Nat.le_of_not_lt hlong
    cases h
    rw [readSlice, if_neg (by rw [length_append]; omega), take_append_of_le_length hle,
      drop_append_of_le_length hle]

theorem extends_skip (n : Nat) : Extends (do ensure n; advance n) := by
  intro buf a left h more
  obtain ⟨_, between, hensure, hadvance⟩ := exists_of_bind_eq_ok h
  unfold ensure at hensure
  split at hensure
  · cases hensure
  · next hlong =>
    cases hensure
    cases hadvance
    have hensured : ensure n (buf ++ more) = .ok ((), buf ++ more) := by
      rw [ensure, if_neg (by rw [length_append]; omega)]
    rw [bind_ok hensured, advance, drop_append_of_le_length (Nat.le_of_not_lt hlong)]

end Extends
end Kmsrdp.Source.Pdu
