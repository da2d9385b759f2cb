import Mathlib.Algebra.Ring.Nat
import Mathlib.Tactic.Common

/-!
# Bits in 64-bit words

A set of small numbers kept as the bits of a list of words: number `idx` is bit `idx % 64` of word
`idx / 64`.
-/
namespace Kmsrdp.Library.WordBits
open Option BitVec

/-- `1 << bit`. -/
def mask (bit : Nat) : UInt64 := (1 : UInt64) <<< UInt64.ofNat bit

/-- `(word & (1 << bit)) != 0`. -/
def testBit (word : UInt64) (bit : Nat) : Bool := (word &&& mask bit) != 0

/-- `word |= 1 << bit`, or `word &= !(1 << bit)`. -/
def putBit (word : UInt64) (bit : Nat) (value : Bool) : UInt64 :=
  if value then word ||| mask bit else word &&& ~~~mask bit

variable {bit : Nat}

theorem toBitVec_mask (hbit : bit < 64) : (mask bit).toBitVec = twoPow 64 bit := by
  have hall : ∀ bit : Fin 64, (mask bit).toBitVec = twoPow 64 bit := by decide +kernel
  exact hall ⟨bit, hbit⟩

theorem testBit_eq (hbit : bit < 64) (word : UInt64) :
    testBit word bit = word.toBitVec.getLsbD bit := by
  have hzero : (word &&& mask bit = 0) ↔ word.toBitVec &&& twoPow 64 bit = 0#64 := by
    rw [← UInt64.toBitVec_inj, UInt64.toBitVec_and, toBitVec_mask hbit]
    rfl
  rw [testBit, Bool.eq_iff_iff, bne_iff_ne, ne_eq, hzero, and_twoPow]
  cases word.toBitVec.getLsbD bit with
  | false => simp
  | true =>
    refine iff_of_true (fun hnone => ?_) rfl
    have hat := congrArg (fun w : BitVec 64 => w.getLsbD bit) hnone
    simp [hbit] at hat

theorem testBit_zero (hbit : bit < 64) : testBit 0 bit = false := by
  rw [testBit_eq hbit]
  exact getLsbD_zero

theorem testBit_putBit {other : Nat}
    (hbit : bit < 64)
    (hother : other < 64)
    (word : UInt64) (value : Bool) :
    testBit (putBit word bit value) other = if other = bit then value else testBit word other := by
  rw [testBit_eq hother, testBit_eq hother, putBit]
  cases value with
  | false =>
    rw [if_neg Bool.false_ne_true, UInt64.toBitVec_and, UInt64.toBitVec_not, toBitVec_mask hbit,
      getLsbD_and, getLsbD_not, getLsbD_twoPow]
    by_cases hsame : other = bit
    · simp [hsame, hbit]
    · simp [hsame, hother, Ne.symm hsame]
  | true =>
    rw [if_pos rfl, UInt64.toBitVec_or, toBitVec_mask hbit, getLsbD_or, getLsbD_twoPow]
    by_cases hsame : other = bit
    · simp [hsame, hbit]
    · simp [hsame, Ne.symm hsame]

/-- Bit `idx` of the words, if there is a word for it. -/
def getBit (words : List UInt64) (idx : Nat) : Option Bool :=
  words[idx / 64]?.map fun word => testBit word (idx % 64)

def setBit (words : List UInt64) (idx : Nat) (value : Bool) : List UInt64 :=
  words.modify (idx / 64) fun word => putBit word (idx % 64) value

theorem length_setBit (words : List UInt64) (idx : Nat) (value : Bool) :
    (setBit words idx value).length = words.length :=
  List.length_modify _ _ _

theorem getBit_setBit {words : List UInt64} {idx : Nat}
    (hidx : idx / 64 < words.length)
    (value : Bool) (i : Nat) :
    getBit (setBit words idx value) i = if i = idx then some value else getBit words i := by
  have hbit : ∀ n, n % 64 < 64 := fun n => Nat.mod_lt n (by decide)
  rw [getBit, setBit, List.getElem?_modify, map_eq_map, map_map, getBit]
  by_cases hword : idx / 64 = i / 64
  · have hsame : i % 64 = idx % 64 ↔ i = idx := by omega
    rw [List.getElem?_eq_getElem (by omega), map_some, Function.comp, if_pos hword,
      testBit_putBit (hbit idx) (hbit i), map_some]
    simp only [hsame]
    split <;> rfl
  · rw [if_neg (by omega)]
    simp only [Function.comp_def, if_neg hword]

theorem getBit_replicate_zero {n idx : Nat} (hidx : idx / 64 < n) :
    getBit (List.replicate n 0) idx = some false := by
  rw [getBit, List.getElem?_replicate, if_pos hidx, map_some, testBit_zero (Nat.mod_lt _ (by decide))]

end Kmsrdp.Library.WordBits
