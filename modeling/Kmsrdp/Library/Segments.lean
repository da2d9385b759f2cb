import Kmsrdp.Library.Chunks

/-!
# Segments with first and last flags, and a receiver with a limit

A first segment clears the receiver's buffer. A message that grows over the limit is given up: the
rest of it finds an empty buffer and is dropped.
-/
namespace Kmsrdp.Library.Segments
open Library.Chunks List Nat

structure Segment (α : Type) where
  first : Bool
  last : Bool
  data : List α

inductive Outcome (α : Type) where
  | waiting
  | complete (message : List α)
  | tooLong

variable {α : Type}

/-- Flags for the pieces of a message, or of what is left of one. -/
def tag (first : Bool) : List (List α) → List (Segment α)
  | [] => []
  | piece :: rest => ⟨first, rest.isEmpty, piece⟩ :: tag false rest

/-- The pieces of a message; an empty message has one. -/
def pieces (n : Nat) (message : List α) : List (List α) :=
  if message = [] then [[]] else chunks n message

def segments (n : Nat) (message : List α) : List (Segment α) := tag true (pieces n message)

/-- What the receiver makes of a segment, and the buffer that it keeps. -/
def receive (limit : Nat) (buffer : List α) (segment : Segment α) : Outcome α × List α :=
  if segment.first = false ∧ buffer.isEmpty then (.waiting, buffer)
  else
    let front := if segment.first then [] else buffer
    if limit < front.length + segment.data.length then (.tooLong, [])
    else if segment.last then (.complete (front ++ segment.data), [])
    else (.waiting, front ++ segment.data)

def receiveAll (limit : Nat) : List α → List (Segment α) → List (Outcome α) × List α
  | buffer, [] => ([], buffer)
  | buffer, segment :: rest =>
    let received := receive limit buffer segment
    let later := receiveAll limit received.2 rest
    (received.1 :: later.1, later.2)

/-- The outcomes of the pieces of `message` behind `front`, of which there are `count`: all but
the last are waited for, or the first piece over the limit is refused and the others are
dropped. -/
def outcomes (n limit count : Nat) (front message : List α) : List (Outcome α) :=
  if front.length + message.length ≤ limit then
    List.replicate (count - 1) .waiting ++ [.complete (front ++ message)]
  else
    let refused := (limit - front.length) / n
    List.replicate refused .waiting ++ .tooLong :: List.replicate (count - 1 - refused) .waiting

variable {limit : Nat} {front data : List α}

theorem receive_last (hfront : front ≠ []) :
    receive limit front ⟨false, true, data⟩ =
      if front.length + data.length ≤ limit then (.complete (front ++ data), [])
        else (.tooLong, []) := by
  unfold receive
  by_cases hfits : front.length + data.length ≤ limit
  · simp [hfront, hfits]
  · simp [hfront, hfits, Nat.lt_of_not_le hfits]

theorem receive_middle (hfront : front ≠ []) :
    receive limit front ⟨false, false, data⟩ =
      if front.length + data.length ≤ limit then (.waiting, front ++ data) else (.tooLong, []) := by
  unfold receive
  by_cases hfits : front.length + data.length ≤ limit
  · simp [hfront, hfits]
  · simp [hfront, hfits, Nat.lt_of_not_le hfits]

theorem receive_first {buffer : List α} (last : Bool) :
    receive limit buffer ⟨true, last, data⟩ =
      if data.length ≤ limit then
        if last then (.complete data, []) else (.waiting, data)
      else (.tooLong, []) := by
  unfold receive
  by_cases hfits : data.length ≤ limit
  · simp [hfits, not_lt.mpr hfits]
  · simp [hfits, Nat.lt_of_not_le hfits]

theorem receiveAll_dropped (limit : Nat) (rest : List (List α)) :
    receiveAll limit [] (tag false rest) = (replicate rest.length .waiting, []) := by
  induction rest with
  | nil => rfl
  | cons piece rest ih =>
    rw [tag, receiveAll]
    show (Outcome.waiting :: (receiveAll limit [] (tag false rest)).1,
        (receiveAll limit [] (tag false rest)).2) = _
    rw [ih]
    rfl

variable {n : Nat}

theorem outcomes_refused {count : Nat} {message : List α}
    (hlong : limit < front.length + message.length)
    (hlimit : limit - front.length < n) :
    outcomes n limit count front message = .tooLong :: replicate (count - 1) .waiting := by
  unfold outcomes
  rw [if_neg (not_le.mpr hlong)]
  simp [div_eq_of_lt hlimit]

theorem outcomes_step {count : Nat}
    (hn : 0 < n)
    {piece : List α} (message : List α)
    (hcount : 0 < count)
    (hpiece : piece.length = n)
    (hfits : front.length + n ≤ limit) :
    outcomes n limit (count + 1) front (piece ++ message) =
      .waiting :: outcomes n limit count (front ++ piece) message := by
  obtain ⟨left, hleft⟩ : ∃ left, limit - front.length = left + n := ⟨limit - front.length - n, by omega⟩
  have hlater : limit - (front ++ piece).length = left := by
    rw [length_append]
    omega
  have hdiv : (left + n) / n = left / n + 1 := add_div_right _ hn
  unfold outcomes
  rw [length_append, ← add_assoc, ← length_append, hlater, hleft, hdiv]
  split
  · have hone : count + 1 - 1 = (count - 1) + 1 := by omega
    rw [hone, replicate_succ, append_assoc, cons_append]
  · have hone : count + 1 - 1 - (left / n + 1) = count - 1 - left / n := by omega
    simp only [hone, replicate_succ, cons_append]

theorem take_drop_of_lt {message : List α} (hlong : n < message.length) :
    (message.take n).length = n ∧ message.drop n ≠ [] := by
  constructor
  · rw [length_take]
    omega
  · intro hnil
    have hlength := congrArg length hnil
    rw [length_drop, length_nil] at hlength
    omega

theorem receiveAll_continued
    (hn : 0 < n)
    (size : Nat) (front message : List α)
    (hsize : message.length ≤ size)
    (hfront : front ≠ [])
    (hlimit : front.length ≤ limit)
    (hmessage : message ≠ []) :
    receiveAll limit front (tag false (chunks n message)) =
      (outcomes n limit (chunks n message).length front message, []) :=
    by
  induction size generalizing front message with
  | zero => exact absurd (length_eq_zero_iff.mp (le_zero.mp hsize)) hmessage
  | succ size ih =>
    by_cases hshort : message.length ≤ n
    · -- the last piece
      rw [chunks_one hmessage hshort]
      show ([(receive limit front ⟨false, true, message⟩).1],
          (receive limit front ⟨false, true, message⟩).2) = _
      rw [receive_last hfront]
      by_cases hfits : front.length + message.length ≤ limit
      · rw [if_pos hfits, outcomes, if_pos hfits]
        rfl
      · rw [if_neg hfits, outcomes_refused (Nat.lt_of_not_le hfits) (by omega)]
        rfl
    · have hlong : n < message.length := Nat.lt_of_not_le hshort
      obtain ⟨hpiece, hrest⟩ := take_drop_of_lt hlong
      have hpieces : chunks n (message.drop n) ≠ [] := chunks_ne_nil n hrest
      have htag : tag false (chunks n message) =
          ⟨false, false, message.take n⟩ :: tag false (chunks n (message.drop n)) := by
        rw [chunks_eq_cons hn hmessage, tag, isEmpty_eq_false_iff.mpr hpieces]
      have hcount : (chunks n message).length = (chunks n (message.drop n)).length + 1 := by
        rw [chunks_eq_cons hn hmessage, length_cons]
      rw [htag, hcount, receiveAll, receive_middle hfront, hpiece]
      by_cases hfits : front.length + n ≤ limit
      · have hlater := ih (front ++ message.take n) (message.drop n) (by rw [length_drop]; omega)
          (append_ne_nil_of_left_ne_nil hfront _) (by rw [length_append, hpiece]; exact hfits) hrest
        have hstep := outcomes_step hn (message.drop n) (length_pos_iff.mpr hpieces) hpiece hfits
        rw [take_append_drop] at hstep
        rw [if_pos hfits, hstep]
        rw [hlater]
      · rw [if_neg hfits, outcomes_refused (by omega) (by omega)]
        rw [receiveAll_dropped]
        rfl

theorem receiveAll_segments (hn : 0 < n) (limit : Nat) (buffer message : List α) :
    receiveAll limit buffer (segments n message) =
      (outcomes n limit (pieces n message).length [] message, []) := by
  by_cases hshort : message.length ≤ n
  · have hpieces : pieces n message = [message] := by
      unfold pieces
      split
      · next hnil => rw [hnil]
      · next hmessage => exact chunks_one hmessage hshort
    rw [segments, hpieces]
    show ([(receive limit buffer ⟨true, true, message⟩).1],
        (receive limit buffer ⟨true, true, message⟩).2) = _
    rw [receive_first]
    by_cases hfits : message.length ≤ limit
    · have hall : ([] : List α).length + message.length ≤ limit := by simpa using hfits
      rw [if_pos hfits, outcomes, if_pos hall]
      rfl
    · rw [if_neg hfits, outcomes_refused (by simpa using hfits) (by simp only [length_nil]; omega)]
      rfl
  · have hlong : n < message.length := Nat.lt_of_not_le hshort
    have hmessage : message ≠ [] := ne_nil_of_length_pos (by omega)
    obtain ⟨hpiece, hrest⟩ := take_drop_of_lt hlong
    have hmore : chunks n (message.drop n) ≠ [] := chunks_ne_nil n hrest
    have hpieces : pieces n message = message.take n :: chunks n (message.drop n) :=
      (if_neg hmessage).trans (chunks_eq_cons hn hmessage)
    rw [segments, hpieces, tag, isEmpty_eq_false_iff.mpr hmore, receiveAll, receive_first, hpiece,
      length_cons]
    by_cases hfits : n ≤ limit
    · have hroom : ([] : List α).length + n ≤ limit := by simpa using hfits
      have hstep := outcomes_step hn (message.drop n) (length_pos_iff.mpr hmore) hpiece hroom
      rw [take_append_drop] at hstep
      rw [if_pos hfits, hstep]
      have hheld : (message.take n).length ≤ limit := by omega
      have hlater := receiveAll_continued hn (message.drop n).length (message.take n)
        (message.drop n) (le_refl _)
        (ne_nil_of_length_pos (by omega)) hheld hrest
      simp only [Bool.false_eq_true, if_false, nil_append, hlater]
    · rw [if_neg hfits,
        outcomes_refused (by simp only [length_nil]; omega) (by simp only [length_nil]; omega)]
      rw [receiveAll_dropped]
      rfl

end Kmsrdp.Library.Segments
