import Kmsrdp.Source.Pdu.ClientInfo

/-!
# Client Info there and back

An encoded Client Info is decoded to itself, with the Unicode flag set. The lengths of the five
first strings are without terminator; the two of the extended part include it.
-/
namespace Kmsrdp.Guarantees.ClientInfoRoundTrip
open Library.ByteString Source.Pdu List

/-- The value is one of the source's types, and its strings fit their length fields. -/
structure Encodable (info : ClientInfo) : Prop where
  codePage_lt : info.codePage < 2 ^ 32
  flags_lt : info.flags < 2 ^ 32
  addressFamily_lt : info.extended.addressFamily < 65536
  strings_le : ∀ text ∈ [info.domain, info.username, info.password, info.alternateShell,
    info.workingDir], (encodeUnits text).length ≤ 65535
  extended_le : ∀ text ∈ [info.extended.address, info.extended.dir],
    '\x00' ∉ text.toList ∧ (encodeUnits text).length ≤ 65533

theorem reads_readStringBody {α : Type} (text : String) {next : String → Decoder α} {more : Bytes}
    {value : α}
    (h : Reads (next text) more value) :
    Reads (readStringBody (encodeUnits text).length >>= next)
      (encodeUnits text ++ (u16Le 0 ++ more)) value := by
  have hbody : Reads (readStringBody (encodeUnits text).length) (encodeUnits text ++ u16Le 0) text := by
    intro rest
    rw [append_assoc, readStringBody, bind_ok (readSlice_append rfl _), even_encodeUnits]
    have hensure : ensure 2 (u16Le 0 ++ rest) = .ok ((), u16Le 0 ++ rest) := by
      refine if_neg ?_
      rw [length_append, length_u16Le]
      omega
    rw [bind_ok hensure, Nat.sub_zero, take_length, decodeUnits_encodeUnits]
    rfl
  rw [← append_assoc]
  exact hbody.bind h

theorem reads_readLenIncludedString {text : String}
    (h : '\x00' ∉ text.toList ∧ (encodeUnits text).length ≤ 65533) :
    Reads readLenIncludedString (writeLenIncludedString text) text := by
  apply (reads_readU16Le (by omega)).bind
  have hbody := (reads_readSlice (encodeUnits text ++ u16Le 0)).return readFixed
  have hread := readFixed_encodeUnits h.1 []
  rw [append_nil] at hread
  rwa [length_append, length_u16Le, hread] at hbody

theorem reads_extended {info : ClientInfo} (h : Encodable info) :
    Reads ExtendedClientInfo.decode info.extended.encode info.extended := by
  apply (reads_readU16Le h.addressFamily_lt).bind
  apply (reads_readLenIncludedString (h.extended_le info.extended.address (by simp))).bind
  exact (reads_readLenIncludedString (h.extended_le info.extended.dir (by simp))).return _

theorem reads_clientInfo {info : ClientInfo} (h : Encodable info) :
    Reads ClientInfo.decode info.encode { info with flags := info.flags ||| infoUnicode } := by
  have hlength : ∀ text ∈ [info.domain, info.username, info.password, info.alternateShell,
      info.workingDir],
      Reads readU16Le (u16Le (encodeUnits text).length) (encodeUnits text).length :=
    fun text hmem => reads_readU16Le (by have := h.strings_le text hmem; omega)
  have hflags : (info.flags ||| infoUnicode) &&& infoUnicode = infoUnicode := by
    apply Nat.eq_of_testBit_eq
    simp +contextual
  simp only [ClientInfo.encode, map_cons, map_nil, flatMap_cons, flatMap_nil, append_nil, append_assoc]
  apply (reads_readU32Le h.codePage_lt).bind
  apply (reads_readU32Le (Nat.or_lt_two_pow h.flags_lt (by decide))).bind
  simp only [hflags, ne_eq, not_true_eq_false, if_false]
  apply (hlength info.domain (by simp)).bind
  apply (hlength info.username (by simp)).bind
  apply (hlength info.password (by simp)).bind
  apply (hlength info.alternateShell (by simp)).bind
  apply (hlength info.workingDir (by simp)).bind
  apply reads_readStringBody info.domain
  apply reads_readStringBody info.username
  apply reads_readStringBody info.password
  apply reads_readStringBody info.alternateShell
  apply reads_readStringBody info.workingDir
  exact (reads_extended h).return _

/-- Whatever follows, the value and the PDU are read back with the Unicode flag set, and exactly
their bytes are taken. -/
theorem client_info_round_trip {info : ClientInfo} (h : Encodable info) (rest : Bytes) :
    ClientInfo.decode (info.encode ++ rest) =
      .ok ({ info with flags := info.flags ||| infoUnicode }, rest) ∧
    decodeClientInfoPdu (encodeClientInfoPdu info ++ rest) =
      .ok { info with flags := info.flags ||| infoUnicode } := by
  constructor
  · exact reads_clientInfo h rest
  · apply Reads.decodeFrom
    apply (reads_readU16Le (by decide)).bind
    apply (reads_readU16Le (by decide)).bind
    exact reads_clientInfo h

def visitor : ClientInfo := ⟨0, 0x108, "", "a😀", "b", "", "", ⟨2, "::1", "C:"⟩⟩

theorem client_info_round_trip_visitor :
    Encodable visitor ∧
    decodeClientInfoPdu (encodeClientInfoPdu visitor ++ [1, 2, 3]) =
      .ok { visitor with flags := 0x118 } := by
  have hvisitor : Encodable visitor := by
    constructor <;> decide +kernel
  exact ⟨hvisitor, (client_info_round_trip hvisitor [1, 2, 3]).2⟩

end Kmsrdp.Guarantees.ClientInfoRoundTrip
