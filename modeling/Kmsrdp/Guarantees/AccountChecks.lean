import Mathlib.Data.String.Basic
import Kmsrdp.Source.Server.Credentials

/-!
# The configured account

Under TLS the validator should accept the configured account and nothing that differs in more than
case and a domain around the user name. Under NLA any other identity is verified against a stand-in
password, which should not give the configured one away.
-/
namespace Kmsrdp.Guarantees.AccountChecks
open Library.ByteString Source.Server.Authorization String

def Matches (expected : Credentials) (username : UsernameParts) : Prop :=
  SameIgnoringCase username.identity.2 expected.username ∧
    ∀ domain, expected.domain = some domain → SameIgnoringCase username.identity.1 domain

/-- What a stand-in begins with: a fixed text and the length of the configured password in bytes. -/
def dummyText (real : String) : List Char :=
  "\x01kmsrdp-nla-dummy\x01".toList ++ Nat.toDigits 10 real.utf8ByteSize

/-- The password is a piece of that text, an end of it with `\x01` and any number of `\x02` behind
it, or made of `\x02` alone. -/
def Leaks (real : String) : Prop :=
  real.toList <:+: dummyText real ∨
  (∃ front n, front <:+ dummyText real ∧ real.toList = front ++ '\x01' :: List.replicate n '\x02') ∨
  real.toList = List.replicate real.toList.length '\x02'

theorem passwordFor_eq_dummy {expected : Credentials} {username : UsernameParts}
    (h : ¬ Matches expected username) :
    authPasswordByUser expected username = dummyNlaPassword expected.password := by
  refine if_neg fun hok => h ?_
  rw [Bool.and_eq_true, eqIgnoreAsciiCaseCt_iff] at hok
  refine ⟨hok.1, fun domain hdomain => ?_⟩
  rw [hdomain] at hok
  exact (eqIgnoreAsciiCaseCt_iff _ _).mp hok.2

theorem length_le_utf8ByteSize (real : String) : real.toList.length ≤ real.utf8ByteSize := by
  rw [← utf8Len_toList]
  induction real.toList with
  | nil => exact Nat.zero_le _
  | cons c rest ih =>
    rw [List.length_cons, utf8Len_cons]
    have := c.utf8Size_pos
    omega

theorem toList_dummy (n count : Nat) :
    ("\x01kmsrdp-nla-dummy\x01" ++ toString n ++ "\x01" ++
       ofList (List.replicate count '\x02')).toList =
      "\x01kmsrdp-nla-dummy\x01".toList ++ Nat.toDigits 10 n ++ '\x01' ::
        List.replicate count '\x02' := by
  have hone : "\x01".toList = ['\x01'] := by decide
  rw [Nat.toString_eq_ofList_toDigits, toList_append, toList_append, toList_append, hone,
    List.append_assoc _ ['\x01'], List.singleton_append]
  simp only [toList_ofList]

theorem toList_dummyNlaPassword {real : String} (hfits : real.utf8ByteSize < usizeMax) :
    (dummyNlaPassword real).toList =
      dummyText real ++ '\x01' :: List.replicate (real.utf8ByteSize + 1) '\x02' := by
  have htext := toList_dummy real.utf8ByteSize (satAdd real.utf8ByteSize 1)
  change _ = dummyText real ++ _ at htext
  have hfiller : satAdd real.utf8ByteSize 1 = real.utf8ByteSize + 1 := by
    unfold satAdd
    omega
  unfold dummyNlaPassword
  dsimp only
  rw [if_neg, htext, hfiller]
  -- the text is longer than the password
  intro hsame
  have hlength := length_le_utf8ByteSize real
  rw [congrArg toList hsame, hfiller] at htext
  rw [htext, List.length_append, List.length_cons, List.length_replicate] at hlength
  omega

theorem infix_dummyNlaPassword_iff {real : String} (hfits : real.utf8ByteSize < usizeMax) :
    real.toList <:+: (dummyNlaPassword real).toList ↔ Leaks real := by
  have hlength := length_le_utf8ByteSize real
  rw [toList_dummyNlaPassword hfits, List.infix_append_iff]
  constructor
  · rintro (htext | hfiller | ⟨front, back, heq, hfront, hback⟩)
    · exact .inl htext
    · rcases List.infix_cons_iff.mp hfiller with hfirst | hrest
      · rcases List.prefix_cons_iff.mp hfirst with hempty | ⟨rest, heq, hrest⟩
        · exact .inr (.inr (by rw [hempty]; rfl))
        · refine .inr (.inl ⟨[], rest.length, List.nil_suffix, ?_⟩)
          rw [heq, List.nil_append, ← (List.prefix_replicate_iff.mp hrest).2]
      · exact .inr (.inr (List.infix_replicate_iff.mp hrest).2)
    · rcases List.prefix_cons_iff.mp hback with rfl | ⟨rest, rfl, hrest⟩
      · rw [List.append_nil] at heq
        exact .inl (heq ▸ hfront.isInfix)
      · refine .inr (.inl ⟨front, rest.length, hfront, ?_⟩)
        rw [heq, ← (List.prefix_replicate_iff.mp hrest).2]
  · rintro (htext | ⟨front, n, hfront, heq⟩ | hfiller)
    · exact .inl htext
    · refine .inr (.inr ⟨front, _, heq, hfront, List.cons_prefix_cons.mpr ⟨rfl, ?_⟩⟩)
      rw [heq, List.length_append, List.length_cons, List.length_replicate] at hlength
      refine List.prefix_replicate_iff.mpr ⟨?_, by rw [List.length_replicate]⟩
      rw [List.length_replicate]
      omega
    · refine .inr (.inl (List.infix_cons ?_))
      exact List.infix_replicate_iff.mpr ⟨by omega, hfiller⟩

/-- The password for an identity that is not the configured one differs from the configured
password, and holds it as a piece exactly if that leaks. -/
theorem dummy_password_hides_iff (expected : Credentials) (username : UsernameParts)
    (hother : ¬ Matches expected username)
    (hfits : expected.password.utf8ByteSize < usizeMax) :
    authPasswordByUser expected username ≠ expected.password ∧
    (expected.password.toList <:+: (authPasswordByUser expected username).toList ↔
       Leaks expected.password) := by
  rw [passwordFor_eq_dummy hother]
  refine ⟨fun hsame => ?_, infix_dummyNlaPassword_iff hfits⟩
  have hlength := length_le_utf8ByteSize expected.password
  rw [← congrArg toList hsame, toList_dummyNlaPassword hfits, List.length_append, List.length_cons,
    List.length_replicate] at hlength
  omega

def account (password : String) : Credentials := ⟨"alice", password, none⟩

def mallory : UsernameParts := .downLevelLogonName "mallory" none

theorem not_matches_mallory (password : String) : ¬ Matches (account password) mallory := fun h =>
  absurd (show lowercaseBytes mallory.identity.2 = lowercaseBytes "alice" from h.1) (by decide +kernel)

theorem dummy_password_hides_secret :
    ¬ Matches (account "Secret") mallory ∧
      "Secret".utf8ByteSize < usizeMax ∧
      authPasswordByUser (account "Secret") mallory ≠ "Secret" ∧
      ("Secret".toList <:+: (authPasswordByUser (account "Secret") mallory).toList ↔
         Leaks "Secret") :=
  ⟨not_matches_mallory _, by decide,
    dummy_password_hides_iff (account "Secret") mallory (not_matches_mallory _) (by decide)⟩

/-- The fixed text of the stand-in holds the configured password. -/
theorem dummy_password_contains_real :
    ¬ Matches (account "dummy") mallory ∧
      "dummy".toList <:+: (authPasswordByUser (account "dummy") mallory).toList :=
  ⟨not_matches_mallory _, by decide +kernel⟩

/-- The user name is the user alone, or with a domain in front of it or behind it. -/
def Names (name user : List Char) : Prop :=
  name = user ∨ (∃ domain, name = domain ++ '\\' :: user) ∨ ∃ domain, name = user ++ '@' :: domain

/-- No white space at the ends, and no domain in the user name. -/
structure Plain (expected : Credentials) : Prop where
  user : trim expected.username.toList = expected.username.toList
  separators : '\\' ∉ expected.username.toList ∧ '@' ∉ expected.username.toList
  domain : ∀ domain, expected.domain = some domain → trim domain.toList = domain.toList

variable {separator : Char} {text : List Char}

theorem splitOnce_eq_none_iff : splitOnce separator text = none ↔ separator ∉ text := by
  induction text with
  | nil => simp [splitOnce]
  | cons c rest ih =>
    rw [splitOnce]
    split
    · next heq => simp [heq]
    · next hne =>
      rw [Option.map_eq_none_iff, ih, List.mem_cons, not_or]
      exact ⟨fun h => ⟨Ne.symm hne, h⟩, fun h => h.2⟩

theorem eq_of_splitOnce {front back : List Char}
    (h : splitOnce separator text = some (front, back)) : text = front ++ separator :: back := by
  induction text generalizing front with
  | nil => cases h
  | cons c rest ih =>
    rw [splitOnce] at h
    split at h
    · next heq =>
      cases h
      rw [heq]
      rfl
    · obtain ⟨⟨front', back'⟩, hrest, heq⟩ := Option.map_eq_some_iff.mp h
      cases heq
      rw [ih hrest]
      rfl

theorem names_normalizeIdentity (username domain : List Char) :
    Names (trim username) (normalizeIdentity username domain).2 := by
  unfold normalizeIdentity
  dsimp only
  split
  · next user heq => exact .inr (.inl ⟨['.'], heq⟩)
  · split
    · next front back hsplit => exact .inr (.inl ⟨front, eq_of_splitOnce hsplit⟩)
    · split
      · next front back hsplit =>
        obtain ⟨⟨back', front'⟩, hreverse, heq⟩ := Option.map_eq_some_iff.mp hsplit
        cases heq
        refine .inr (.inr ⟨back'.reverse, ?_⟩)
        rw [← List.reverse_reverse (trim username), eq_of_splitOnce hreverse]
        simp
      · exact .inl rfl

theorem normalizeIdentity_of_plain {username domain : List Char}
    (htrim : trim username = username)
    (hseparators : '\\' ∉ username ∧ '@' ∉ username) :
    normalizeIdentity username domain = (trim domain, username) := by
  unfold normalizeIdentity
  dsimp only
  rw [htrim, splitOnce_eq_none_iff.mpr hseparators.1, rsplitOnce,
    splitOnce_eq_none_iff.mpr (by simpa using hseparators.2)]
  split
  · next user => exact absurd (by simp) hseparators.1
  · rfl

theorem normalizeIdentity_of_whole {username domain : List Char}
    (h : (trim username).length ≤ (normalizeIdentity username domain).2.length) :
    ('\\' ∉ trim username ∧ '@' ∉ trim username) ∧
    normalizeIdentity username domain = (trim domain, trim username) := by
  unfold normalizeIdentity at h ⊢
  dsimp only at h ⊢
  split at h
  · next user heq =>
    simp only [heq, List.length_cons] at h
    omega
  · split at h
    · next front back hsplit =>
      simp only [eq_of_splitOnce hsplit, List.length_append, List.length_cons] at h
      omega
    · next hbackslash =>
      split at h
      · next front back hsplit =>
        obtain ⟨⟨back', front'⟩, hreverse, heq⟩ := Option.map_eq_some_iff.mp hsplit
        have hlength := congrArg List.length (eq_of_splitOnce hreverse)
        cases heq
        simp only [List.length_reverse, List.length_append, List.length_cons] at h hlength
        omega
      · next hat =>
        have hat := splitOnce_eq_none_iff.mp (Option.map_eq_none_iff.mp hat)
        rw [List.mem_reverse] at hat
        exact ⟨⟨splitOnce_eq_none_iff.mp hbackslash, hat⟩, rfl⟩

theorem sublist_trim (text : List Char) : (trim text).Sublist text := by
  have hback :=
    (List.dropWhile_sublist isWhitespace (l := (text.dropWhile isWhitespace).reverse)).reverse
  rw [List.reverse_reverse] at hback
  exact hback.trans (List.dropWhile_sublist isWhitespace)

/-- A part of a text with as many bytes is the text. -/
theorem eq_of_sublist_of_same {part text : List Char}
    (hpart : part.Sublist text)
    (hsame : SameIgnoringCase (ofList part) (ofList text)) : part = text := by
  have hlength : utf8Len part = utf8Len text := by
    have := congrArg List.length hsame
    simpa [lowercaseBytes, ← utf8ByteSize_ofList, utf8ByteSize] using this
  clear hsame
  induction hpart with
  | slnil => rfl
  | cons c hpart ih =>
    have hle := utf8Len_le_of_sublist hpart
    have hpos := c.utf8Size_pos
    rw [utf8Len_cons] at hlength
    omega
  | cons_cons c hpart ih =>
    rw [utf8Len_cons, utf8Len_cons] at hlength
    rw [ih (by omega)]

theorem exactMatchValidator_iff (expected : Credentials) (username password domain : String) :
    exactMatchValidator expected username password domain = true ↔
      SameIgnoringCase (normalizeClientIdentity username domain).2 expected.username ∧
      expected.password = password ∧
      ∀ d, expected.domain = some d →
        SameIgnoringCase (normalizeClientIdentity username domain).1 d := by
  simp only [exactMatchValidator, ← eqIgnoreAsciiCaseCt_iff]
  cases expected.domain <;> simp [and_assoc]

theorem plain_of_accepted {expected : Credentials} {domain : String}
    (hdomain : ∀ d, expected.domain = some d → domain = d)
    (h : exactMatchValidator expected expected.username expected.password domain = true) :
    Plain expected := by
  obtain ⟨huser, -, hsame⟩ := (exactMatchValidator_iff _ _ _ _).mp h
  simp only [normalizeClientIdentity] at huser hsame
  have htrim := sublist_trim expected.username.toList
  -- what is left of the user name is the user name, so nothing was taken off
  have hwhole : (normalizeIdentity expected.username.toList domain.toList).2 =
      expected.username.toList := by
    refine eq_of_sublist_of_same ?_ (by rwa [ofList_toList])
    refine List.Sublist.trans ?_ htrim
    rcases names_normalizeIdentity expected.username.toList domain.toList with h | ⟨d, h⟩ | ⟨d, h⟩
    · rw [h]
    · rw [h]; simp
    · rw [h]; simp
  have hlength : (trim expected.username.toList).length ≤
      (normalizeIdentity expected.username.toList domain.toList).2.length := by
    rw [hwhole]
    exact htrim.length_le
  obtain ⟨hseparators, hidentity⟩ := normalizeIdentity_of_whole hlength
  simp only [hidentity] at hwhole hsame
  rw [hwhole] at hseparators
  refine ⟨hwhole, hseparators, fun d hd => ?_⟩
  obtain rfl := hdomain d hd
  exact eq_of_sublist_of_same (sublist_trim _) (by simpa using hsame domain hd)

/-- The validator accepts the configured account itself exactly if that is plain. Whatever it
accepts has the configured password and, white space and a domain aside, the configured user name up
to case. -/
theorem validator_accepts_itself_iff_plain (expected : Credentials) :
    ((∀ domain,
        (∀ expectedDomain, expected.domain = some expectedDomain → domain = expectedDomain) →
          exactMatchValidator expected expected.username expected.password domain = true) ↔
       Plain expected) ∧
    ∀ username password domain, exactMatchValidator expected username password domain = true →
      password = expected.password ∧
      ∃ user,
        Names (trim username.toList) user ∧
        SameIgnoringCase (String.ofList user) expected.username := by
  refine ⟨⟨fun hitself => ?_, fun hplain domain hdomain => ?_⟩, fun username password domain h => ?_⟩
  · have hdomain : ∀ d, expected.domain = some d → expected.domain.getD "" = d := fun d hd => by
      rw [hd, Option.getD_some]
    exact plain_of_accepted hdomain (hitself _ hdomain)
  · rw [exactMatchValidator_iff, normalizeClientIdentity,
      normalizeIdentity_of_plain hplain.user hplain.separators]
    refine ⟨?_, rfl, fun d hd => ?_⟩
    · rw [ofList_toList]
      rfl
    · rw [hdomain d hd, hplain.domain d hd, ofList_toList]
      rfl
  · obtain ⟨huser, hpassword, -⟩ := (exactMatchValidator_iff _ _ _ _).mp h
    exact ⟨hpassword.symm, _, names_normalizeIdentity _ domain.toList, huser⟩

/-- The domain is taken off the client's user name, and not off the configured one. -/
theorem configured_principal_rejected :
    exactMatchValidator ⟨"alice@example.com", "secret", none⟩ "alice@example.com" "secret" "" =
      false := by
  decide +kernel

end Kmsrdp.Guarantees.AccountChecks
