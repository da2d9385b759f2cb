import Kmsrdp.Source.Pdu.Connect

/-!
# Connect-Initial and Connect-Response

Model of the writing half of `ber.rs` and of `DomainParameters`, `ConnectInitial` and
`ConnectResponse` in `mcs.rs`, both directions.
-/
namespace Kmsrdp.Source.Pdu
open Library.ByteString List UInt8

def writeBerLength (length : Nat) : Bytes :=
  if length ≤ 0x7F then [UInt8.ofNat length]
  else if length ≤ 0xFF then [0x81, UInt8.ofNat length]
  else 0x82 :: u16Be length

def writeApplicationTag (tagNumber : UInt8) (bodyLength : Nat) : Bytes :=
  [0x7F] ++ ([tagNumber] ++ writeBerLength bodyLength)

def writeBerValue (tag : UInt8) (bytes : Bytes) : Bytes :=
  [tag] ++ (writeBerLength bytes.length ++ bytes)

def integerBytes (value : Nat) : Bytes :=
  if value < 0x80 then [UInt8.ofNat value]
  else if value < 0x8000 then u16Be value
  else if value < 0x800000 then UInt8.ofNat (value / 65536) :: u16Be value
  else if value < 0x80000000 then u16Be (value / 65536) ++ u16Be value
  else 0x00 :: (u16Be (value / 65536) ++ u16Be value)

def writeBerInteger (value : Nat) : Bytes := writeBerValue 0x02 (integerBytes value)

def writeBerBoolean (value : Bool) : Bytes := writeBerValue 0x01 [if value then 0xFF else 0x00]

def writeBerEnumerated (value : UInt8) : Bytes := writeBerValue 0x0A [value]

def writeBerOctetString (bytes : Bytes) : Bytes := writeBerValue 0x04 bytes

def readBerEnumerated : Decoder UInt8 := do
  let bytes ← readBerValue 0x0A "ber.enumerated"
  match bytes.head? with
  | some value => return value
  | none => fail "ber.enumerated" "empty ENUMERATED value"

theorem reads_readBerLength (length : Nat) :
    Reads readBerLength (writeBerLength length) (length % 65536) := by
  unfold writeBerLength
  split
  · next hshort =>
    intro rest
    have hbyte : (ofNat length).toNat = length % 65536 := by
      rw [toNat_ofNat']
      omega
    have hsmall : (ofNat length).toNat ≤ 0x7F := by omega
    rw [readBerLength, bind_ok (reads_readU8 _ rest), if_pos hsmall, hbyte]
    rfl
  · split
    · intro rest
      have hbyte : (ofNat length).toNat = length % 65536 := by
        rw [toNat_ofNat']
        omega
      show Except.ok ((ofNat length).toNat, rest) = _
      rw [hbyte]
    · exact fun rest => readU16Be_u16Be length rest

theorem reads_readBerLength_of_lt {length : Nat} (h : length < 65536) :
    Reads readBerLength (writeBerLength length) length := by
  have hread := reads_readBerLength length
  rwa [Nat.mod_eq_of_lt h] at hread

theorem reads_expectTag (tag : UInt8) (field : String) : Reads (expectTag tag field) [tag] () := by
  intro rest
  rw [expectTag, bind_ok (reads_readU8 tag rest), if_neg (not_not.mpr rfl)]
  rfl

theorem reads_readApplicationTag (tagNumber : UInt8) (bodyLength : Nat) :
    Reads (readApplicationTag tagNumber) (writeApplicationTag tagNumber bodyLength)
      (bodyLength % 65536) := by
  refine (reads_readU8 0x7F).bind ?_
  rw [if_neg (not_not.mpr rfl)]
  refine (reads_readU8 tagNumber).bind ?_
  rw [if_neg (not_not.mpr rfl)]
  exact reads_readBerLength bodyLength

theorem reads_readBerValue (tag : UInt8) (field : String) {bytes : Bytes}
    (h : bytes.length < 65536) : Reads (readBerValue tag field) (writeBerValue tag bytes) bytes :=
  (reads_expectTag tag field).bind ((reads_readBerLength_of_lt h).bind (reads_readSlice bytes))

theorem reads_readBerOctetString {bytes : Bytes} (h : bytes.length < 65536) :
    Reads readBerOctetString (writeBerOctetString bytes) bytes :=
  reads_readBerValue 0x04 "ber.octet_string" h

theorem reads_readBerBoolean (value : Bool) :
    Reads readBerBoolean (writeBerBoolean value) value := by
  have hbyte : Reads (readBerValue 0x01 "ber.boolean") (writeBerBoolean value)
      [if value then 0xFF else 0x00] :=
    reads_readBerValue 0x01 "ber.boolean" (by simp)
  have hread := hbyte.return fun bytes : Bytes => bytes.head?.any (· ≠ 0)
  cases value <;> exact hread

theorem reads_readBerEnumerated (value : UInt8) :
    Reads readBerEnumerated (writeBerEnumerated value) value :=
  fun _ => rfl

theorem integerBytes_spec {value : Nat} (h : value < 2 ^ 32) :
    (integerBytes value).isEmpty = false ∧
    (integerBytes value).length ≤ 5 ∧
    ((integerBytes value).length = 5 → (integerBytes value).head? = some 0) ∧
    (integerBytes value).foldl (fun value b => value * 256 + b.toNat) 0 = value := by
  unfold integerBytes u16Be
  split
  · refine ⟨rfl, by simp, by simp, ?_⟩
    simp only [foldl_cons, foldl_nil, UInt8.toNat_ofNat']
    omega
  · split
    · refine ⟨rfl, by simp, by simp, ?_⟩
      simp only [foldl_cons, foldl_nil, UInt8.toNat_ofNat']
      omega
    · split
      · refine ⟨rfl, by simp, by simp, ?_⟩
        simp only [foldl_cons, foldl_nil, UInt8.toNat_ofNat']
        omega
      · split
        · refine ⟨rfl, by simp, by simp, ?_⟩
          simp only [cons_append, nil_append, foldl_cons, foldl_nil, UInt8.toNat_ofNat']
          omega
        · refine ⟨rfl, by simp, by simp, ?_⟩
          simp only [cons_append, nil_append, foldl_cons, foldl_nil, UInt8.toNat_ofNat',
            UInt8.toNat_zero]
          omega

theorem reads_readBerInteger {value : Nat} (h : value < 2 ^ 32) :
    Reads readBerInteger (writeBerInteger value) value := by
  obtain ⟨hne, hlength, hpad, hvalue⟩ := integerBytes_spec h
  have hok : ((integerBytes value).isEmpty || decide (5 < (integerBytes value).length) ||
      ((integerBytes value).length == 5 && (integerBytes value).head? != some 0)) = false := by
    rw [hne, Bool.false_or, Bool.or_eq_false_iff]
    refine ⟨decide_eq_false (Nat.not_lt.mpr hlength), ?_⟩
    by_cases hfive : (integerBytes value).length = 5
    · simp [hpad hfive]
    · simp [hfive]
  intro rest
  rw [readBerInteger, writeBerInteger, bind_ok (reads_readBerValue 0x02 "ber.integer" (by omega) rest)]
  simp only [hok, hvalue, Bool.false_eq_true, if_false, if_neg (Nat.not_le.mpr h)]
  rfl

namespace DomainParameters

def target : DomainParameters := ⟨34, 2, 0, 1, 0, 1, 65535, 2⟩

def values (p : DomainParameters) : List Nat :=
  [p.maxChannelIds, p.maxUserIds, p.maxTokenIds, p.numPriorities, p.minThroughput, p.maxHeight,
    p.maxMcsPduSize, p.protocolVersion]

def InRange (p : DomainParameters) : Prop := ∀ value ∈ p.values, value < 2 ^ 32

instance decidableInRange (p : DomainParameters) : Decidable p.InRange :=
  inferInstanceAs (Decidable (∀ value ∈ p.values, value < 2 ^ 32))

def body (p : DomainParameters) : Bytes :=
  writeBerInteger p.maxChannelIds ++ (writeBerInteger p.maxUserIds ++ (writeBerInteger p.maxTokenIds ++
    (writeBerInteger p.numPriorities ++
      (writeBerInteger p.minThroughput ++ (writeBerInteger p.maxHeight ++
      (writeBerInteger p.maxMcsPduSize ++ writeBerInteger p.protocolVersion))))))

def write (p : DomainParameters) : Bytes := [0x30] ++ (writeBerLength p.body.length ++ p.body)

theorem reads_write {p : DomainParameters} (h : p.InRange) : Reads decode p.write p := by
  have hread : ∀ value ∈ p.values, Reads readBerInteger (writeBerInteger value) value :=
    fun value hmem =>
    reads_readBerInteger (h value hmem)
  simp only [values, forall_mem_cons] at hread
  obtain ⟨h1, h2, h3, h4, h5, h6, h7, h8, -⟩ := hread
  refine (reads_expectTag 0x30 "ber.sequence").bind ((reads_readBerLength _).bind ?_)
  refine h1.bind (h2.bind (h3.bind (h4.bind (h5.bind (h6.bind (h7.bind ?_))))))
  exact h8.return
    (DomainParameters.mk p.maxChannelIds p.maxUserIds p.maxTokenIds p.numPriorities p.minThroughput
    p.maxHeight p.maxMcsPduSize)

theorem target_inRange : target.InRange := by decide

end DomainParameters

namespace ConnectInitial

def body (pdu : ConnectInitial) : Bytes :=
  writeBerOctetString [0x01] ++ (writeBerOctetString [0x01] ++ (writeBerBoolean true ++
    (pdu.targetParameters.write ++ (pdu.minParameters.write ++ (pdu.maxParameters.write ++
      writeBerOctetString pdu.userData)))))

def encode (pdu : ConnectInitial) : Bytes := writeApplicationTag 0x65 pdu.body.length ++ pdu.body

open DomainParameters

theorem reads_encode {pdu : ConnectInitial}
    (htarget : pdu.targetParameters.InRange)
    (hmin : pdu.minParameters.InRange)
    (hmax : pdu.maxParameters.InRange)
    (hdata : pdu.userData.length < 65536) : Reads decode pdu.encode pdu := by
  have hselector : Reads readBerOctetString (writeBerOctetString [0x01]) [0x01] :=
    reads_readBerOctetString (by decide)
  refine (reads_readApplicationTag 0x65 _).bind (hselector.bind (hselector.bind ?_))
  refine (reads_readBerBoolean true).bind ((reads_write htarget).bind ?_)
  refine (reads_write hmin).bind ((reads_write hmax).bind ?_)
  exact (reads_readBerOctetString hdata).return
    (ConnectInitial.mk pdu.targetParameters pdu.minParameters pdu.maxParameters)

end ConnectInitial

structure ConnectResponse where
  calledConnectId : Nat
  domainParameters : DomainParameters
  userData : Bytes

namespace ConnectResponse

def body (pdu : ConnectResponse) : Bytes :=
  writeBerEnumerated 0 ++ (writeBerInteger pdu.calledConnectId ++ (pdu.domainParameters.write ++
    writeBerOctetString pdu.userData))

def encode (pdu : ConnectResponse) : Bytes := writeApplicationTag 0x66 pdu.body.length ++ pdu.body

def decode : Decoder ConnectResponse := do
  let _ ← readApplicationTag 0x66
  let _ ← readBerEnumerated
  let calledConnectId ← readBerInteger
  let domainParameters ← DomainParameters.decode
  let userData ← readBerOctetString
  return { calledConnectId, domainParameters, userData }

theorem reads_encode {pdu : ConnectResponse}
    (hid : pdu.calledConnectId < 2 ^ 32)
    (hparameters : pdu.domainParameters.InRange)
    (hdata : pdu.userData.length < 65536) : Reads decode pdu.encode pdu := by
  refine (reads_readApplicationTag 0x66 _).bind ((reads_readBerEnumerated 0).bind ?_)
  refine (reads_readBerInteger hid).bind ((DomainParameters.reads_write hparameters).bind ?_)
  exact (reads_readBerOctetString hdata).return
    (ConnectResponse.mk pdu.calledConnectId pdu.domainParameters)

end ConnectResponse
end Kmsrdp.Source.Pdu
