import Kmsrdp.Library.Chunks

/-!
# Splitting messages into fragments and putting them together again

A message up to a limit is one fragment. The first fragment of a longer one declares the total
length and the others continue it.
-/
namespace Kmsrdp.Library.Reassembly
open Library.Chunks List
variable {α : Type}

inductive Fragment (α : Type) where
  | first (total : Nat) (data : List α)
  | more (data : List α)

def split (limit : Nat) (message : List α) : List (Fragment α) :=
  if message.length ≤ limit then [.more message]
  else
    match chunks limit message with
    | [] => []
    | first :: rest => .first message.length first :: rest.map .more

abbrev InProgress (α : Type) := Option (Nat × List α)

/-- A message is delivered as soon as it has its declared length. -/
def settle (total : Nat) (data : List α) : List (List α) × InProgress α :=
  if total ≤ data.length then ([data.take total], none) else ([], some (total, data))

def feed : InProgress α → Fragment α → List (List α) × InProgress α
  | _, .first total data => settle total data
  | some (total, buffered), .more data => settle total (buffered ++ data)
  | none, .more data => ([data], none)

/-- The length that the message in progress gets by a fragment, as far as it is known. -/
def size : InProgress α → Fragment α → Nat
  | _, .first total _ => total
  | some (_, buffered), .more data => buffered.length + data.length
  | none, .more _ => 0

/-- A receiver with a size limit; a fragment that would exceed it is dropped, and with it the
message in progress. -/
def feedWithin (limit : Nat) (state : InProgress α) (fragment : Fragment α) :
    List (List α) × InProgress α :=
  if limit < size state fragment then ([], none) else feed state fragment

variable {limit : Nat}

theorem feedWithin_of_lt {state : InProgress α} {fragment : Fragment α}
    (h : limit < size state fragment) : feedWithin limit state fragment = ([], none) := if_pos h

theorem feedWithin_of_le {state : InProgress α} {fragment : Fragment α}
    (h : size state fragment ≤ limit) : feedWithin limit state fragment = feed state fragment :=
  if_neg (Nat.not_lt.mpr h)

/-- What a sequence of fragments delivers, and the message it leaves in progress. -/
def collect : InProgress α → List (Fragment α) → List (List α) × InProgress α
  | state, [] => ([], state)
  | state, fragment :: rest =>
    let fed := feed state fragment
    let later := collect fed.2 rest
    (fed.1 ++ later.1, later.2)

theorem collect_append (state : InProgress α) (front back : List (Fragment α)) :
    collect state (front ++ back) =
      ((collect state front).1 ++ (collect (collect state front).2 back).1,
        (collect (collect state front).2 back).2) := by
  induction front generalizing state with
  | nil => rfl
  | cons fragment rest ih => simp [collect, ih]

theorem collect_prefix (state : InProgress α) (front back : List (Fragment α)) :
    (collect state front).1 <+: (collect state (front ++ back)).1 := by
  rw [collect_append]
  exact prefix_append _ _

theorem collect_short (total : Nat) (pieces : List (List α)) (front : List α)
    (h : front.length + pieces.flatten.length < total) :
    collect (some (total, front)) (pieces.map .more) =
      ([], some (total, front ++ pieces.flatten)) := by
  induction pieces generalizing front with
  | nil => simp [collect]
  | cons piece rest ih =>
    rw [flatten_cons, length_append] at h
    have hopen : ¬ total ≤ (front ++ piece).length := by
      rw [length_append]
      omega
    have hrest := ih (front ++ piece) (by rw [length_append]; omega)
    rw [map_cons, collect, feed, settle, if_neg hopen, hrest]
    simp

theorem collect_more {pieces : List (List α)}
    (hpieces : pieces ≠ [])
    (hne : ∀ piece ∈ pieces, piece ≠ [])
    (front : List α) :
    collect (some (front.length + pieces.flatten.length, front)) (pieces.map .more) =
      ([front ++ pieces.flatten], none) := by
  obtain ⟨earlier, last, rfl⟩ := (eq_nil_or_concat' pieces).resolve_left hpieces
  have hlast : 0 < last.length := length_pos_iff.mpr (hne last (by simp))
  have hearlier :=
    collect_short (front.length + (earlier ++ [last]).flatten.length) earlier front (by simp; omega)
  rw [map_append, collect_append, hearlier]
  simp [collect, feed, settle, take_of_length_le]

theorem split_of_lt (hlimit : 0 < limit) {message : List α} (hlong : ¬ message.length ≤ limit) :
    ∃ first rest,
      split limit message = .first message.length first :: rest.map .more ∧
      rest ≠ [] ∧
      (∀ piece ∈ rest, piece ≠ []) ∧
      first ++ rest.flatten = message := by
  obtain ⟨rest, hrest, hchunks⟩ := chunks_of_lt hlimit (Nat.lt_of_not_le hlong)
  refine ⟨message.take limit, rest, ?_, hrest, fun piece hpiece => ?_, ?_⟩
  · rw [split, if_neg hlong, hchunks]
  · exact ne_nil_of_mem_chunks hlimit (hchunks ▸ mem_cons_of_mem _ hpiece)
  · rw [← flatten_cons, ← hchunks, flatten_chunks hlimit]

theorem length_flatten_pos {pieces : List (List α)}
    (hpieces : pieces ≠ [])
    (hne : ∀ piece ∈ pieces, piece ≠ []) : 0 < pieces.flatten.length := by
  obtain ⟨piece, hpiece⟩ := exists_mem_of_ne_nil pieces hpieces
  refine length_pos_iff.mpr fun hnil => hne piece hpiece ?_
  exact flatten_eq_nil_iff.mp hnil piece hpiece

theorem collect_split (hlimit : 0 < limit) (message : List α) :
    collect none (split limit message) = ([message], none) := by
  by_cases hlong : message.length ≤ limit
  · rw [split, if_pos hlong]
    rfl
  · obtain ⟨first, rest, hsplit, hrest, hne, rfl⟩ := split_of_lt hlimit hlong
    have hpos := length_flatten_pos hrest hne
    have hopen : ¬ (first ++ rest.flatten).length ≤ first.length := by
      rw [length_append]
      omega
    rw [hsplit, collect, feed, settle, if_neg hopen, length_append, collect_more hrest hne]
    rfl

theorem collect_take_split
    (hlimit : 0 < limit)
    (message : List α) {n : Nat}
    (hn : n < (split limit message).length) :
    (collect none ((split limit message).take n)).1 = [] := by
  cases n with
  | zero => rfl
  | succ n =>
    by_cases hlong : message.length ≤ limit
    · rw [split, if_pos hlong] at hn
      simp at hn
    · obtain ⟨first, rest, hsplit, -, hne, rfl⟩ := split_of_lt hlimit hlong
      rw [hsplit] at hn ⊢
      have hleft : rest.drop n ≠ [] := by simpa using hn
      have hpos := length_flatten_pos hleft fun piece hpiece => hne piece (mem_of_mem_drop hpiece)
      have hall : rest.flatten.length =
          (rest.take n).flatten.length + (rest.drop n).flatten.length := by
        rw [← length_append, ← flatten_append, take_append_drop]
      have hopen : ¬ (first ++ rest.flatten).length ≤ first.length := by
        rw [length_append]
        omega
      rw [take_succ_cons, ← map_take, collect, feed, settle, if_neg hopen,
        collect_short _ _ _ (by rw [length_append]; omega)]
      rfl

theorem collect_flatMap_split (hlimit : 0 < limit) (messages : List (List α)) :
    collect none (messages.flatMap (split limit)) = (messages, none) := by
  induction messages with
  | nil => rfl
  | cons message rest ih =>
    rw [flatMap_cons, collect_append, collect_split hlimit, ih, singleton_append]

end Kmsrdp.Library.Reassembly
