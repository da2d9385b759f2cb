import Mathlib.Tactic.Common
import Mathlib.Data.List.AList

/-!
# Requests and their answers

A ledger of requests sent under a key and answered later. A request is known by its place among
those issued; `table` has the request outstanding under each key, `answers` every answer given.

In a balanced ledger a request is outstanding under exactly one key, without an answer, or nowhere,
with exactly one answer, which fits it. Issuing under a free key, refusing and answering keep the
balance; issuing under a key that is taken loses the request that had it.
-/
namespace Kmsrdp.Library.Requests
open List AList Nat Option

structure Ledger (κ ρ β : Type) where
  issued : List ρ
  table : AList fun _ : κ => Nat
  answers : List (Nat × β)

variable {κ ρ β : Type}

namespace Ledger

def empty : Ledger κ ρ β := ⟨[], ∅, []⟩

def answersTo (l : Ledger κ ρ β) (number : Nat) : List β :=
  l.answers.filterMap fun answer => if answer.1 = number then some answer.2 else none

/-- A request that is answered without ever being outstanding. -/
def refuse (l : Ledger κ ρ β) (request : ρ) (answer : β) : Ledger κ ρ β :=
  { l with issued := l.issued ++ [request], answers := l.answers ++ [(l.issued.length, answer)] }

variable [DecidableEq κ]

def issue (l : Ledger κ ρ β) (key : κ) (request : ρ) : Ledger κ ρ β :=
  { l with issued := l.issued ++ [request], table := l.table.insert key l.issued.length }

def answer (l : Ledger κ ρ β) (key : κ) (answer : β) : Ledger κ ρ β :=
  match l.table.lookup key with
  | none => l
  | some number => { l with table := l.table.erase key, answers := l.answers ++ [(number, answer)] }

def Outstanding (l : Ledger κ ρ β) (number : Nat) : Prop := ∃ key, l.table.lookup key = some number

def requestAt (l : Ledger κ ρ β) (key : κ) : Option ρ :=
  (l.table.lookup key).bind fun number => l.issued[number]?

structure Balanced (fits : ρ → β → Prop) (l : Ledger κ ρ β) : Prop where
  one : ∀ number request, l.issued[number]? = some request →
    l.Outstanding number ∧ l.answersTo number = [] ∨
      ¬ l.Outstanding number ∧ ∃ answer, l.answersTo number = [answer] ∧ fits request answer
  ownKey : ∀ key key' number, l.table.lookup key = some number → l.table.lookup key' = some number →
    key = key'
  known : ∀ key number, l.table.lookup key = some number → number < l.issued.length
  answersKnown : ∀ answer ∈ l.answers, answer.1 < l.issued.length

variable {fits : ρ → β → Prop} {l : Ledger κ ρ β}

theorem balanced_empty : Balanced fits (empty : Ledger κ ρ β) where
  one _ _ h := nomatch h
  ownKey _ _ _ h := nomatch h
  known _ _ h := nomatch h
  answersKnown _ h := nomatch h

omit [DecidableEq κ] in
theorem answersTo_append (front : Ledger κ ρ β) (number other : Nat) (b : β) :
    answersTo { front with answers := front.answers ++ [(other, b)] } number =
      front.answersTo number ++ if other = number then [b] else [] := by
  unfold answersTo
  rw [filterMap_append]
  by_cases h : other = number
  · simp [h]
  · simp [h]

theorem Balanced.answersTo_length (h : Balanced fits l) : l.answersTo l.issued.length = [] := by
  refine filterMap_eq_nil_iff.mpr fun answer hmem => if_neg ?_
  exact Nat.ne_of_lt (h.answersKnown answer hmem)

variable {request : ρ} {number : Nat}
omit [DecidableEq κ] in
theorem getElem_append_one {r : ρ} (h : (l.issued ++ [request])[number]? = some r) :
    l.issued[number]? = some r ∨ number = l.issued.length ∧ r = request := by
  rcases lt_trichotomy number l.issued.length with hlt | heq | hgt
  · rw [getElem?_append_left hlt] at h
    exact .inl h
  · rw [heq, getElem?_concat_length] at h
    exact .inr ⟨heq, (some.inj h).symm⟩
  · have hlength := (List.getElem?_eq_some_iff.mp h).1
    rw [length_append, length_singleton] at hlength
    exact absurd hlength (by omega)

variable {key : κ}

theorem lookup_issue {other : κ} (h : (l.issue key request).table.lookup other = some number) :
    other = key ∧ number = l.issued.length ∨ other ≠ key ∧ l.table.lookup other = some number := by
  by_cases hkey : other = key
  · have hself : (l.issue key request).table.lookup other = some l.issued.length :=
      hkey ▸ lookup_insert l.table
    exact .inl ⟨hkey, some.inj (h.symm.trans hself)⟩
  · exact .inr ⟨hkey, (lookup_insert_ne hkey).symm.trans h⟩

theorem outstanding_issue_iff
    (hfree : l.table.lookup key = none)
    (request : ρ)
    (hlt : number < l.issued.length) :
    (l.issue key request).Outstanding number ↔ l.Outstanding number := by
  constructor
  · rintro ⟨k, hk⟩
    rcases lookup_issue hk with ⟨_, hnew⟩ | ⟨_, hk⟩
    · exact absurd hnew (Nat.ne_of_lt hlt)
    · exact ⟨k, hk⟩
  · rintro ⟨k, hk⟩
    have hne : k ≠ key := by
      rintro rfl
      rw [hfree] at hk
      cases hk
    exact ⟨k, (lookup_insert_ne hne).trans hk⟩

theorem Balanced.issue (h : Balanced fits l) (hfree : l.table.lookup key = none) (request : ρ) :
    Balanced fits (l.issue key request) := by
  refine ⟨fun number r hr => ?_, fun k k' number hk hk' => ?_, fun k number hk => ?_,
    fun answer hmem => ?_⟩
  · rcases getElem_append_one hr with hold | ⟨rfl, rfl⟩
    · have hlt := (List.getElem?_eq_some_iff.mp hold).1
      rw [outstanding_issue_iff hfree request hlt]
      exact h.one number r hold
    · exact .inl ⟨⟨key, lookup_insert _⟩, h.answersTo_length⟩
  · rcases lookup_issue hk with ⟨hkey, hnumber⟩ | ⟨_, hk⟩ <;>
      rcases lookup_issue hk' with ⟨hkey', hnumber'⟩ | ⟨_, hk'⟩
    · rw [hkey, hkey']
    · exact absurd hnumber (Nat.ne_of_lt (h.known k' number hk'))
    · exact absurd hnumber' (Nat.ne_of_lt (h.known k number hk))
    · exact h.ownKey k k' number hk hk'
  · show number < (l.issued ++ [request]).length
    rw [length_append, length_singleton]
    rcases lookup_issue hk with ⟨_, hnumber⟩ | ⟨_, hk⟩
    · rw [hnumber]
      exact lt_succ_self _
    · exact lt_succ_of_lt (h.known k number hk)
  · show answer.1 < (l.issued ++ [request]).length
    rw [length_append, length_singleton]
    exact lt_succ_of_lt (h.answersKnown answer hmem)

theorem not_balanced_issue
    (h : Balanced fits l)
    (htaken : l.table.lookup key = some number)
    (request : ρ) : ¬ Balanced fits (l.issue key request) := by
  intro hafter
  have hlt := h.known key number htaken
  have hgone : ¬ (l.issue key request).Outstanding number := by
    rintro ⟨k, hk⟩
    rcases lookup_issue hk with ⟨_, hnew⟩ | ⟨hkey, hold⟩
    · exact absurd hnew (Nat.ne_of_lt hlt)
    · exact hkey (h.ownKey k key number hold htaken)
  have hsome : l.issued[number]? = some (l.issued[number]) := getElem?_eq_getElem hlt
  have hbefore := h.one number _ hsome
  have hsome' : (l.issue key request).issued[number]? = some (l.issued[number]) := by
    show (l.issued ++ [request])[number]? = _
    rw [getElem?_append_left hlt, hsome]
  rcases hbefore with ⟨_, hnone⟩ | ⟨hno, _⟩
  · rcases hafter.one number _ hsome' with ⟨hyes, _⟩ | ⟨_, answer, hanswer, _⟩
    · exact hgone hyes
    · exact cons_ne_nil _ _ (hanswer.symm.trans hnone)
  · exact hno ⟨key, htaken⟩

theorem Balanced.refuse (h : Balanced fits l) {b : β} (hfits : fits request b) :
    Balanced fits (l.refuse request b) := by
  have hanswers : ∀ number, (l.refuse request b).answersTo number =
      l.answersTo number ++ if l.issued.length = number then [b] else [] := fun number =>
    answersTo_append l number l.issued.length b
  refine ⟨fun number r hr => ?_, h.ownKey, fun k number hk => ?_, fun answer hmem => ?_⟩
  · rcases getElem_append_one hr with hold | ⟨rfl, rfl⟩
    · have hlt := (List.getElem?_eq_some_iff.mp hold).1
      rw [hanswers, if_neg (ne_of_gt hlt), append_nil]
      exact h.one number r hold
    · refine .inr ⟨fun ⟨k, hk⟩ => lt_irrefl _ (h.known k _ hk), b, ?_, hfits⟩
      rw [hanswers, h.answersTo_length, if_pos rfl, nil_append]
  · show number < (l.issued ++ [request]).length
    rw [length_append]
    exact Nat.lt_add_right _ (h.known k number hk)
  · show answer.1 < (l.issued ++ [request]).length
    rw [length_append, length_singleton]
    rcases mem_append.mp hmem with hold | hnew
    · exact lt_succ_of_lt (h.answersKnown answer hold)
    · rw [mem_singleton.mp hnew]
      exact lt_succ_self _

theorem answer_of_lookup (h : l.table.lookup key = some number) (b : β) :
    l.answer key b =
      { l with table := l.table.erase key, answers := l.answers ++ [(number, b)] } := by
  rw [Ledger.answer, h]

theorem lookup_erase_some {table : AList fun _ : κ => Nat} {other : κ}
    (h : (table.erase key).lookup other = some number) :
    other ≠ key ∧ table.lookup other = some number := by
  have hne : other ≠ key := by
    rintro rfl
    rw [lookup_erase] at h
    cases h
  exact ⟨hne, (lookup_erase_ne hne).symm.trans h⟩

theorem Balanced.outstanding_answer_iff
    (h : Balanced fits l)
    (hlookup : l.table.lookup key = some number)
    (b : β) (n : Nat) : (l.answer key b).Outstanding n ↔ n ≠ number ∧ l.Outstanding n := by
  rw [answer_of_lookup hlookup]
  constructor
  · rintro ⟨k, hk⟩
    obtain ⟨hne, hkept⟩ := lookup_erase_some hk
    refine ⟨?_, k, hkept⟩
    rintro rfl
    exact hne (h.ownKey k key n hkept hlookup)
  · rintro ⟨hn, k, hk⟩
    have hne : k ≠ key := by
      rintro rfl
      exact hn (some.inj (hk.symm.trans hlookup))
    exact ⟨k, (lookup_erase_ne hne).trans hk⟩

theorem Balanced.answer
    (h : Balanced fits l)
    (hrequest : l.requestAt key = some request)
    {b : β}
    (hfits : fits request b) : Balanced fits (l.answer key b) := by
  obtain ⟨number, hlookup, hissued⟩ := bind_eq_some_iff.mp hrequest
  have hafter := answer_of_lookup hlookup b
  have hanswers : ∀ n, (l.answer key b).answersTo n = l.answersTo n ++ if number = n then [b]
      else [] := by
    intro n
    rw [hafter]
    exact answersTo_append l n number b
  have hissuedSame : (l.answer key b).issued = l.issued := by rw [hafter]
  refine ⟨fun n r hr => ?_, fun k k' n hk hk' => ?_, fun k n hk => ?_, fun answer hmem => ?_⟩
  · rw [hissuedSame] at hr
    rw [h.outstanding_answer_iff hlookup, hanswers]
    by_cases hn : n = number
    · subst hn
      cases hissued.symm.trans hr
      have hnone : l.answersTo n = [] := by
        rcases h.one n request hissued with ⟨_, hnone⟩ | ⟨hno, _⟩
        · exact hnone
        · exact absurd ⟨key, hlookup⟩ hno
      refine .inr ⟨fun hout => hout.1 rfl, b, ?_, hfits⟩
      rw [hnone, if_pos rfl, nil_append]
    · rw [if_neg (Ne.symm hn), append_nil, and_iff_right hn]
      exact h.one n r hr
  · rw [hafter] at hk hk'
    exact h.ownKey k k' n (lookup_erase_some hk).2 (lookup_erase_some hk').2
  · rw [hafter] at hk
    rw [hissuedSame]
    exact h.known k n (lookup_erase_some hk).2
  · rw [hafter] at hmem
    rw [hissuedSame]
    rcases mem_append.mp hmem with hold | hnew
    · exact h.answersKnown answer hold
    · rw [mem_singleton.mp hnew]
      exact h.known key number hlookup

theorem Balanced.lookup_eq_none_iff (h : Balanced fits l) (key : κ) :
    l.table.lookup key = none ↔ l.requestAt key = none := by
  unfold requestAt
  cases hlookup : l.table.lookup key with
  | none => exact ⟨fun _ => rfl, fun _ => rfl⟩
  | some number =>
    rw [bind_some, getElem?_eq_none_iff]
    constructor
    · intro hnone
      cases hnone
    · intro hle
      exact absurd (h.known key number hlookup) (not_lt.mpr hle)

theorem requestAt_issue (h : Balanced fits l) (key other : κ) (request : ρ) :
    (l.issue key request).requestAt other =
      if other = key then some request else l.requestAt other := by
  unfold requestAt issue
  by_cases hkey : other = key
  · rw [if_pos hkey, hkey, lookup_insert]
    exact getElem?_concat_length
  · rw [if_neg hkey, lookup_insert_ne hkey]
    cases hlookup : l.table.lookup other with
    | none => rfl
    | some number =>
      exact getElem?_append_left (h.known other number hlookup)

theorem requestAt_refuse (h : Balanced fits l) (other : κ) (request : ρ) (b : β) :
    (l.refuse request b).requestAt other = l.requestAt other := by
  unfold requestAt refuse
  cases hlookup : l.table.lookup other with
  | none => rfl
  | some number => exact getElem?_append_left (h.known other number hlookup)

theorem requestAt_answer (key other : κ) (b : β) :
    (l.answer key b).requestAt other = if other = key then none else l.requestAt other := by
  unfold requestAt Ledger.answer
  cases hlookup : l.table.lookup key with
  | none =>
    by_cases hkey : other = key
    · rw [if_pos hkey, hkey, hlookup]
      rfl
    · rw [if_neg hkey]
  | some number =>
    by_cases hkey : other = key
    · rw [if_pos hkey, hkey]
      rw [lookup_erase]
      rfl
    · rw [if_neg hkey]
      rw [lookup_erase_ne hkey]

end Ledger
end Kmsrdp.Library.Requests
