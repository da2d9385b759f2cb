import Kmsrdp.Library.ByteString

/-!
# Client Info credentials

Model of `rdpcore-server/src/credentials.rs`. Case is ignored on UTF-8 bytes, and the comparison in
constant time is an equality.
-/
namespace Kmsrdp.Source.Server.Authorization
open Library.ByteString

structure Credentials where
  (username password : String)
  domain : Option String

def isWhitespace (c : Char) : Bool :=
  (9 ≤ c.toNat && c.toNat ≤ 13) || (0x2000 ≤ c.toNat && c.toNat ≤ 0x200A) ||
    c.toNat ∈ [0x20, 0x85, 0xA0, 0x1680, 0x2028, 0x2029, 0x202F, 0x205F, 0x3000]

def trim (text : List Char) : List Char :=
  ((text.dropWhile isWhitespace).reverse.dropWhile isWhitespace).reverse

def splitOnce (separator : Char) : List Char → Option (List Char × List Char)
  | [] => none
  | c :: rest =>
    if c = separator then some ([], rest)
    else (splitOnce separator rest).map fun (front, back) => (c :: front, back)

def rsplitOnce (separator : Char) (text : List Char) : Option (List Char × List Char) :=
  (splitOnce separator text.reverse).map fun (back, front) => (front.reverse, back.reverse)

def normalizeIdentity (username domain : List Char) : List Char × List Char :=
  let username := trim username
  let domain := trim domain
  match username with
  | '.' :: '\\' :: user => ([], user)
  | _ =>
    match splitOnce '\\' username with
    | some (d, u) => (d, u)
    | none =>
      match rsplitOnce '@' username with
      | some (u, d) => (d, u)
      | none => (domain, username)

def normalizeClientIdentity (username domain : String) : String × String :=
  let identity := normalizeIdentity username.toList domain.toList
  (String.ofList identity.1, String.ofList identity.2)

def toAsciiLowercase (byte : UInt8) : UInt8 := if 65 ≤ byte ∧ byte ≤ 90 then byte + 32 else byte

def lowercaseBytes (text : String) : Bytes := text.toUTF8.data.toList.map toAsciiLowercase

def padTo (n : Nat) (bytes : Bytes) : Bytes := bytes ++ List.replicate (n - bytes.length) 0

def eqIgnoreAsciiCaseCt (a b : String) : Bool :=
  let a := lowercaseBytes a
  let b := lowercaseBytes b
  let n := max a.length b.length
  let body := padTo n a = padTo n b
  let lens := a.length = b.length
  body && lens

def SameIgnoringCase (a b : String) : Prop := lowercaseBytes a = lowercaseBytes b

theorem eqIgnoreAsciiCaseCt_iff (a b : String) :
    eqIgnoreAsciiCaseCt a b = true ↔ SameIgnoringCase a b := by
  unfold eqIgnoreAsciiCaseCt SameIgnoringCase
  generalize lowercaseBytes a = left
  generalize lowercaseBytes b = right
  simp only [Bool.and_eq_true, decide_eq_true_eq]
  constructor
  · rintro ⟨hbody, hlens⟩
    rw [hlens, Nat.max_self] at hbody
    rw [padTo, padTo, hlens] at hbody
    exact List.append_cancel_right hbody
  · rintro rfl
    exact ⟨rfl, rfl⟩

abbrev CredentialValidator := String → String → String → Bool

def exactMatchValidator (expected : Credentials) : CredentialValidator :=
  fun username password domain =>
    let (clientDomain, clientUser) := normalizeClientIdentity username domain
    if !eqIgnoreAsciiCaseCt clientUser expected.username || expected.password ≠ password then false
    else
      match expected.domain with
      | some expectedDomain => eqIgnoreAsciiCaseCt clientDomain expectedDomain
      | none => true

def clientInfoIsAuthorized (nlaAuthenticatedUser : Option String)
    (validator : Option CredentialValidator) (username password domain : String) : Bool :=
  match nlaAuthenticatedUser with
  | some nlaUser =>
    let clientUser := (normalizeClientIdentity username domain).2
    if clientUser = "" then true else eqIgnoreAsciiCaseCt clientUser nlaUser
  | none =>
    match validator with
    | some validate => validate username password domain
    | none => false

inductive UsernameParts where
  | downLevelLogonName (accountName : String) (netbiosDomain : Option String)
  | userPrincipalName (accountName suffix : String)

def dummyNlaPassword (real : String) : String :=
  let dummy := "\x01kmsrdp-nla-dummy\x01" ++ toString real.utf8ByteSize ++ "\x01" ++
    String.ofList (List.replicate (satAdd real.utf8ByteSize 1) '\x02')
  if dummy = real then dummy.push '\x03' else dummy

def passwordFor (expected : Credentials) (clientUser clientDomain : String) : String :=
  let userOk := eqIgnoreAsciiCaseCt clientUser expected.username
  let domainOk :=
    match expected.domain with
    | some expectedDomain => eqIgnoreAsciiCaseCt clientDomain expectedDomain
    | none => true
  if userOk && domainOk then expected.password else dummyNlaPassword expected.password

def UsernameParts.identity : UsernameParts → String × String
  | .downLevelLogonName account netbiosDomain => normalizeClientIdentity account (netbiosDomain.getD "")
  | .userPrincipalName account suffix => normalizeClientIdentity account suffix

/-- The password in `auth_data_by_user`. -/
def authPasswordByUser (expected : Credentials) (username : UsernameParts) : String :=
  passwordFor expected username.identity.2 username.identity.1

end Kmsrdp.Source.Server.Authorization
