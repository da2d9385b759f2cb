import Kmsrdp.Source.Pdu.Cursor

/-!
# The Client Info PDU

Model of `rdpcore-pdu/src/client_info.rs` and of what it uses of `utf16.rs` and `headers.rs`. An
unpaired surrogate becomes the replacement character.
-/
namespace Kmsrdp.Source.Pdu
open Library.ByteString List

def codeUnits : Bytes → List Nat
  | low :: high :: rest => (low.toNat + high.toNat * 256) :: codeUnits rest
  | _ => []

def isHighSurrogate (unit : Nat) : Bool := 0xD800 ≤ unit && unit < 0xDC00

def isLowSurrogate (unit : Nat) : Bool := 0xDC00 ≤ unit && unit < 0xE000

def replacementCharacter : Char := Char.ofNat 0xFFFD

def decodeUtf16From (pending : Option Nat) : List Nat → List Char
  | [] => if pending.isSome then [replacementCharacter] else []
  | unit :: rest =>
    match pending with
    | some high =>
      if isLowSurrogate unit then
        Char.ofNat (0x10000 + (high - 0xD800) * 0x400 + (unit - 0xDC00)) :: decodeUtf16From none rest
      else if isHighSurrogate unit then replacementCharacter :: decodeUtf16From (some unit) rest
      else replacementCharacter :: Char.ofNat unit :: decodeUtf16From none rest
    | none =>
      if isHighSurrogate unit then decodeUtf16From (some unit) rest
      else if isLowSurrogate unit then replacementCharacter :: decodeUtf16From none rest
      else Char.ofNat unit :: decodeUtf16From none rest

def decodeUnits (bytes : Bytes) : String := String.ofList (decodeUtf16From none (codeUnits bytes))

def readFixed (bytes : Bytes) : String :=
  String.ofList (decodeUtf16From none ((codeUnits bytes).takeWhile (· ≠ 0)))

def encodeUtf16 (text : List Char) : List Nat :=
  text.flatMap fun c =>
    if c.toNat < 0x10000 then [c.toNat]
    else [0xD800 + (c.toNat - 0x10000) / 0x400, 0xDC00 + (c.toNat - 0x10000) % 0x400]

def encodeUnits (text : String) : Bytes := (encodeUtf16 text.toList).flatMap u16Le

variable {unit : Nat} {text : List Char}

theorem mem_encodeUtf16 (h : unit ∈ encodeUtf16 text) :
    unit < 65536 ∧ (unit = 0 → '\x00' ∈ text) := by
  obtain ⟨c, hc, hunit⟩ := mem_flatMap.mp h
  have hlt : c.toNat < 0x110000 := by
    have := c.valid
    change c.val.toNat < 0x110000
    omega
  split at hunit
  · obtain rfl := mem_singleton.mp hunit
    refine ⟨by omega, fun hzero => ?_⟩
    obtain rfl : c = '\x00' := Char.toNat_inj.mp hzero
    exact hc
  · simp only [mem_cons, not_mem_nil, or_false] at hunit
    omega

theorem decodeUtf16From_encodeUtf16 (text : List Char) :
    decodeUtf16From none (encodeUtf16 text) = text := by
  induction text with
  | nil => rfl
  | cons c rest ih =>
    have hvalid := c.valid
    change c.toNat < _ ∨ _ < c.toNat ∧ c.toNat < _ at hvalid
    rw [encodeUtf16, flatMap_cons, ← encodeUtf16]
    by_cases hone : c.toNat < 0x10000
    · have hhigh : isHighSurrogate c.toNat = false := by simp [isHighSurrogate]; omega
      have hlow : isLowSurrogate c.toNat = false := by simp [isLowSurrogate]; omega
      simp [hone, decodeUtf16From, hhigh, hlow, ih, Char.ofNat_toNat]
    · have hhigh : isHighSurrogate (0xD800 + (c.toNat - 0x10000) / 0x400) = true := by
        simp [isHighSurrogate]
        omega
      have hlow : isLowSurrogate (0xDC00 + (c.toNat - 0x10000) % 0x400) = true := by
        simp [isLowSurrogate]
        omega
      have hchar : 0x10000 + (0xD800 + (c.toNat - 0x10000) / 0x400 - 0xD800) * 0x400 +
          (0xDC00 + (c.toNat - 0x10000) % 0x400 - 0xDC00) = c.toNat := by omega
      simp only [hone, if_false, cons_append, nil_append, decodeUtf16From, hhigh, hlow, if_true,
        hchar, ih, Char.ofNat_toNat]

variable (text : String)

theorem even_encodeUnits : (encodeUnits text).length % 2 = 0 := by
  rw [encodeUnits]
  induction encodeUtf16 text.toList with
  | nil => rfl
  | cons unit units ih =>
    rw [flatMap_cons, length_append, length_u16Le]
    omega

theorem codeUnits_encodeUnits (rest : Bytes) :
    codeUnits (encodeUnits text ++ rest) = encodeUtf16 text.toList ++ codeUnits rest := by
  have hunits : ∀ unit ∈ encodeUtf16 text.toList, unit < 65536 := fun _ h => (mem_encodeUtf16 h).1
  rw [encodeUnits]
  generalize encodeUtf16 text.toList = units at hunits
  induction units with
  | nil => rfl
  | cons unit units ih =>
    have hunit := hunits unit mem_cons_self
    have hvalue : (UInt8.ofNat unit).toNat + (UInt8.ofNat (unit / 256)).toNat * 256 = unit := by
      rw [UInt8.toNat_ofNat', UInt8.toNat_ofNat']
      omega
    simp only [flatMap_cons, u16Le, cons_append, nil_append, codeUnits, hvalue,
      ih fun other hmem => hunits other (mem_cons_of_mem unit hmem)]

theorem decodeUnits_encodeUnits : decodeUnits (encodeUnits text) = text := by
  have hunits := codeUnits_encodeUnits text []
  rw [append_nil] at hunits
  simp [decodeUnits, hunits, codeUnits, decodeUtf16From_encodeUtf16]

theorem readFixed_encodeUnits {text : String} (h : '\x00' ∉ text.toList) (rest : Bytes) :
    readFixed (encodeUnits text ++ (u16Le 0 ++ rest)) = text := by
  have hnonzero : ∀ unit ∈ encodeUtf16 text.toList, decide (unit ≠ 0) = true := by
    intro unit hunit
    simpa using fun hzero => h ((mem_encodeUtf16 hunit).2 hzero)
  rw [readFixed, codeUnits_encodeUnits, takeWhile_append_of_pos hnonzero]
  simp [u16Le, codeUnits, decodeUtf16From_encodeUtf16]

structure ExtendedClientInfo where
  addressFamily : Nat
  (address dir : String)

structure ClientInfo where
  codePage : Nat
  flags : Nat
  (domain username password alternateShell workingDir : String)
  extended : ExtendedClientInfo

def readStringBody (len : Nat) : Decoder String := do
  let raw ← readSlice len
  ensure 2
  advance 2
  return decodeUnits (raw.take (len - len % 2))

def writeLenIncludedString (text : String) : Bytes :=
  u16Le ((encodeUnits text).length + 2) ++ (encodeUnits text ++ u16Le 0)

def readLenIncludedString : Decoder String := do
  let len ← readU16Le
  let raw ← readSlice len
  return readFixed raw

def ExtendedClientInfo.encode (info : ExtendedClientInfo) : Bytes :=
  u16Le info.addressFamily ++ (writeLenIncludedString info.address ++ writeLenIncludedString info.dir)

def ExtendedClientInfo.decode : Decoder ExtendedClientInfo := do
  let addressFamily ← readU16Le
  let address ← readLenIncludedString
  let dir ← readLenIncludedString
  return { addressFamily, address, dir }

def infoUnicode : Nat := 0x10

def ClientInfo.encode (info : ClientInfo) : Bytes :=
  let strings := [info.domain, info.username, info.password, info.alternateShell,
    info.workingDir].map encodeUnits
  u32Le info.codePage ++ (u32Le (info.flags ||| infoUnicode) ++
    (strings.flatMap (fun bytes => u16Le bytes.length) ++
      (strings.flatMap (fun bytes => bytes ++ u16Le 0) ++ info.extended.encode)))

def ClientInfo.decode : Decoder ClientInfo := do
  let codePage ← readU32Le
  let flags ← readU32Le
  if flags &&& infoUnicode ≠ infoUnicode then
    fail "client_info.flags" "only INFO_UNICODE clients are supported"
  let cbDomain ← readU16Le
  let cbUsername ← readU16Le
  let cbPassword ← readU16Le
  let cbAlternateShell ← readU16Le
  let cbWorkingDir ← readU16Le
  let domain ← readStringBody cbDomain
  let username ← readStringBody cbUsername
  let password ← readStringBody cbPassword
  let alternateShell ← readStringBody cbAlternateShell
  let workingDir ← readStringBody cbWorkingDir
  let extended ← ExtendedClientInfo.decode
  return { codePage, flags, domain, username, password, alternateShell, workingDir, extended }

def infoPkt : Nat := 0x40

def encodeClientInfoPdu (info : ClientInfo) : Bytes := u16Le infoPkt ++ (u16Le 0 ++ info.encode)

def decodeClientInfoPdu (input : Bytes) : Except DecodeError ClientInfo :=
  decodeFrom (do
    let flags ← readU16Le
    let _ ← readU16Le
    if flags &&& infoPkt ≠ infoPkt then
      fail "client_info_pdu.security_header.flags" "expected INFO_PKT set"
    ClientInfo.decode) input

end Kmsrdp.Source.Pdu
