import Kmsrdp.Library.ByteString

/-!
# Readers built from `read_exact`

A reader that only awaits `read_exact` has returned, or waits for an exact number of bytes. A poll
that does not finish has emptied the socket, and dropping the reader drops these bytes.
-/
namespace Kmsrdp.Library.AsyncRead
open Library.ByteString List

inductive ReadProg (α : Type) where
  | done (value : α)
  | readExact (count : Nat) (next : Bytes → ReadProg α)

variable {α β : Type}

def ReadProg.bind : ReadProg α → (α → ReadProg β) → ReadProg β
  | .done value, f => f value
  | .readExact count next, f => .readExact count (fun got => (next got).bind f)

/-- What one poll leaves behind: a value and the bytes still in the socket, or the
suspended reader (and then the socket is empty). -/
inductive Poll (α : Type) where
  | ready (value : α) (socket : Bytes)
  | pending (reader : ReadProg α)

def poll : ReadProg α → Bytes → Poll α
  | .done value, socket => .ready value socket
  | .readExact count next, socket =>
    if count ≤ socket.length then poll (next (socket.take count)) (socket.drop count)
    else .pending (.readExact (count - socket.length) (fun more => next (socket ++ more)))

theorem poll_readExact_of_le (count : Nat) (next : Bytes → ReadProg α) (socket : Bytes)
    (h : count ≤ socket.length) :
    poll (.readExact count next) socket = poll (next (socket.take count)) (socket.drop count) := by
  rw [poll, if_pos h]

theorem poll_readExact_of_lt (count : Nat) (next : Bytes → ReadProg α) (socket : Bytes)
    (h : socket.length < count) :
    poll (.readExact count next) socket =
      .pending (.readExact (count - socket.length) (fun more => next (socket ++ more))) := by
  rw [poll, if_neg (by omega)]

theorem poll_readExact_append (got socket : Bytes) (next : Bytes → ReadProg α) {count : Nat}
    (h : count = got.length) :
    poll (.readExact count next) (got ++ socket) = poll (next got) socket := by
  subst h
  rw [poll_readExact_of_le _ _ _ (by simp), take_left, drop_left]

/-- A reader that finishes on a prefix of the bytes finishes the same way when more bytes
are there; the extra bytes stay in the socket. -/
theorem poll_append_of_ready {prog : ReadProg α} {early rest : Bytes} {value : α}
    (h : poll prog early = .ready value rest)
    (late : Bytes) : poll prog (early ++ late) = .ready value (rest ++ late) := by
  induction prog generalizing early with
  | done v =>
    cases h
    rfl
  | readExact count next ih =>
    by_cases hle : count ≤ early.length
    · rw [poll_readExact_of_le _ _ _ hle] at h
      rw [poll_readExact_of_le _ _ _ (by simp; omega), take_append_of_le_length hle,
        drop_append_of_le_length hle]
      exact ih _ h
    · rw [poll_readExact_of_lt _ _ _ (by omega)] at h
      cases h

theorem poll_append_of_pending {prog suspended : ReadProg α} {early late : Bytes}
    (h : poll prog early = .pending suspended) :
    poll suspended late = poll prog (early ++ late) := by
  induction prog generalizing early with
  | done v => cases h
  | readExact count next ih =>
    by_cases hle : count ≤ early.length
    · rw [poll_readExact_of_le _ _ _ hle] at h
      rw [poll_readExact_of_le _ _ (early ++ late) (by simp; omega),
        take_append_of_le_length hle, drop_append_of_le_length hle]
      exact ih _ h
    · rw [poll_readExact_of_lt _ _ _ (by omega)] at h
      cases h
      by_cases hlate : count - early.length ≤ late.length
      · rw [poll_readExact_of_le _ _ _ hlate, poll_readExact_of_le _ _ _ (by simp; omega)]
        have htake : (early ++ late).take count = early ++ late.take (count - early.length) := by
          rw [take_append, take_of_length_le (by omega)]
        have hdrop : (early ++ late).drop count = late.drop (count - early.length) := by
          rw [drop_append, drop_of_length_le (by omega), nil_append]
        rw [htake, hdrop]
      · rw [poll_readExact_of_lt _ _ _ (by omega), poll_readExact_of_lt _ _ _ (by simp; omega)]
        simp only [append_assoc, length_append, Nat.sub_sub]

end Kmsrdp.Library.AsyncRead
