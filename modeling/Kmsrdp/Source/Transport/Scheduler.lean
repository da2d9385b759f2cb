import Kmsrdp.Library.Rotation
import Mathlib.Algebra.Ring.Nat
import Mathlib.Data.List.Nodup

/-!
# The write scheduler

Model of `rdpcore-transport/src/scheduler.rs`, over any type of payload. `popNext` returns the
frame, with the channel and the priority of its queue, where the source returns the payload.
-/
namespace Kmsrdp.Source.Transport
open Library.Rotation List Option

inductive ChannelKey where
  | io
  | static (channelId : Nat)
  deriving DecidableEq

inductive Priority where
  | latency
  | bulk
  deriving DecidableEq

structure Frame (β : Type) where
  channel : ChannelKey
  priority : Priority
  bytes : β

def Frame.On {β : Type} (frame : Frame β) (channel : ChannelKey) (priority : Priority) : Bool :=
  frame.channel = channel && frame.priority = priority

structure ChannelQueue (β : Type) where
  key : ChannelKey
  priority : Priority
  pending : List β

variable {β : Type}

def ChannelQueue.label (q : ChannelQueue β) : ChannelKey × Priority := (q.key, q.priority)

structure Scheduler (β : Type) where
  queues : List (ChannelQueue β)
  bulkOrder : List Nat
  nextBulkChannel : Nat
  nodup : (queues.map ChannelQueue.label).Nodup

def pushExisting (frame : Frame β) : List (ChannelQueue β) → Option (List (ChannelQueue β))
  | [] => none
  | q :: rest =>
    if q.label = (frame.channel, frame.priority) then
      some ({ q with pending := q.pending ++ [frame.bytes] } :: rest)
    else (pushExisting frame rest).map (q :: ·)

def popLatency : List (ChannelQueue β) → Option (Frame β × List (ChannelQueue β))
  | [] => none
  | q :: rest =>
    match q.priority, q.pending with
    | .latency, bytes :: left => some (⟨q.key, q.priority, bytes⟩, { q with pending := left } :: rest)
    | _, _ => (popLatency rest).map fun popped => (popped.1, q :: popped.2)

def popAt (queues : List (ChannelQueue β)) (idx : Nat) : Option (Frame β × List (ChannelQueue β)) :=
  match queues[idx]? with
  | none => none
  | some q =>
    match q.pending with
    | [] => none
    | bytes :: left => some (⟨q.key, q.priority, bytes⟩, queues.set idx { q with pending := left })

def popBulk (queues : List (ChannelQueue β)) (bulkOrder : List Nat) (nextBulkChannel : Nat) :
    Option ((Frame β × List (ChannelQueue β)) × Nat) :=
  (List.range bulkOrder.length).findSome? fun offset =>
    match bulkOrder[(nextBulkChannel + offset) % bulkOrder.length]? with
    | none => none
    | some idx =>
      (popAt queues idx).map fun popped =>
        (popped, (nextBulkChannel + offset + 1) % bulkOrder.length)

inductive Pops : List (ChannelQueue β) → Frame β → List (ChannelQueue β) → Prop
  | mk (before : List (ChannelQueue β)) (q : ChannelQueue β) (bytes : β) (left : List β)
      (after : List (ChannelQueue β)) (pending : q.pending = bytes :: left) :
      Pops (before ++ q :: after) ⟨q.key, q.priority, bytes⟩
        (before ++ { q with pending := left } :: after)

variable {queues queues' : List (ChannelQueue β)} {frame : Frame β}

theorem pops_of_popLatency (h : popLatency queues = some (frame, queues')) :
    Pops queues frame queues' := by
  induction queues generalizing queues' with
  | nil => cases h
  | cons q rest ih =>
    unfold popLatency at h
    split at h
    · next bytes left hpriority hpending =>
      cases h
      exact .mk [] q bytes left rest hpending
    · obtain ⟨⟨frame', rest'⟩, hrest, heq⟩ := map_eq_some_iff.mp h
      cases heq
      cases ih hrest with
      | mk before q' bytes left after pending => exact .mk (q :: before) q' bytes left after pending

theorem pops_of_popAt {idx : Nat} (h : popAt queues idx = some (frame, queues')) :
    Pops queues frame queues' := by
  unfold popAt at h
  split at h
  · cases h
  · next q hq =>
    split at h
    · cases h
    · next bytes left hpending =>
      cases h
      obtain ⟨hlt, hget⟩ := List.getElem?_eq_some_iff.mp hq
      have hsplit : queues = queues.take idx ++ q :: queues.drop (idx + 1) := by
        rw [← hget, ← drop_eq_getElem_cons hlt, take_append_drop]
      have hset : queues.set idx { q with pending := left } =
          queues.take idx ++ { q with pending := left } :: queues.drop (idx + 1) :=
        set_eq_take_append_cons_drop.trans (if_pos hlt)
      rw [hset]
      nth_rewrite 1 [hsplit]
      exact .mk _ q bytes left _ hpending

theorem pops_of_popBulk {bulkOrder : List Nat} {nextBulkChannel next : Nat}
    (h : popBulk queues bulkOrder nextBulkChannel = some ((frame, queues'), next)) :
    Pops queues frame queues' := by
  obtain ⟨offset, -, hround⟩ := exists_of_findSome?_eq_some h
  split at hround
  · cases hround
  · obtain ⟨popped, hpop, heq⟩ := map_eq_some_iff.mp hround
    cases heq
    exact pops_of_popAt hpop

open ChannelQueue

theorem Pops.labels (h : Pops queues frame queues') : queues'.map label = queues.map label := by
  cases h
  simp [label]

theorem labels_pushExisting (h : pushExisting frame queues = some queues') :
    queues'.map label = queues.map label := by
  induction queues generalizing queues' with
  | nil => cases h
  | cons q rest ih =>
    unfold pushExisting at h
    split at h
    · cases h
      simp [label]
    · obtain ⟨rest', hrest, rfl⟩ := map_eq_some_iff.mp h
      simp [ih hrest]

theorem pushExisting_none (h : pushExisting frame queues = none) :
    (frame.channel, frame.priority) ∉ queues.map label := by
  induction queues with
  | nil => simp
  | cons q rest ih =>
    unfold pushExisting at h
    split at h
    · cases h
    · next hne =>
      have := ih (map_eq_none_iff.mp h)
      simp only [map_cons, mem_cons, not_or]
      exact ⟨fun heq => hne heq.symm, this⟩

theorem popLatency_none (h : popLatency queues = none) (channel : ChannelKey) :
    (queues.flatMap fun q => if q.label = (channel, Priority.latency) then q.pending else []) =
      [] := by
  induction queues with
  | nil => rfl
  | cons q rest ih =>
    unfold popLatency at h
    split at h
    · cases h
    · next hskip =>
      rw [flatMap_cons, ih (map_eq_none_iff.mp h), append_nil]
      split
      · next hlabel =>
        have hpriority : q.priority = .latency := congrArg Prod.snd hlabel
        cases hpending : q.pending with
        | nil => rfl
        | cons bytes left => exact absurd hpending (hskip bytes left hpriority)
      · rfl

theorem popLatency_priority (h : popLatency queues = some (frame, queues')) :
    frame.priority = .latency := by
  induction queues generalizing queues' with
  | nil => cases h
  | cons q rest ih =>
    unfold popLatency at h
    split at h
    · next hpriority _ =>
      cases h
      exact hpriority
    · obtain ⟨popped, hrest, heq⟩ := map_eq_some_iff.mp h
      cases heq
      exact ih hrest

namespace Scheduler

def new : Scheduler β := ⟨[], [], 0, List.nodup_nil⟩

def enqueue (s : Scheduler β) (frame : Frame β) : Scheduler β :=
  match h : pushExisting frame s.queues with
  | some queues => { s with queues := queues, nodup := by rw [labels_pushExisting h]; exact s.nodup }
  | none =>
    { s with
      queues := s.queues ++ [⟨frame.channel, frame.priority, [frame.bytes]⟩]
      bulkOrder := if frame.priority = .bulk then s.bulkOrder ++ [s.queues.length] else s.bulkOrder
      nodup := by
        rw [List.map_append, List.nodup_append]
        refine ⟨s.nodup, List.nodup_singleton _, ?_⟩
        intro label hlabel label' hlabel' heq
        subst heq
        rw [List.mem_singleton.mp hlabel'] at hlabel
        exact pushExisting_none h hlabel }

def popNext (s : Scheduler β) : Option (Frame β × Scheduler β) :=
  match h : popLatency s.queues with
  | some (frame, queues) =>
    some (frame,
      { s with queues := queues, nodup := by rw [(pops_of_popLatency h).labels]; exact s.nodup })
  | none =>
    match h : popBulk s.queues s.bulkOrder s.nextBulkChannel with
    | some ((frame, queues), next) =>
      some (frame,
        { s with
          queues := queues
          nextBulkChannel := next
          nodup := by rw [(pops_of_popBulk h).labels]; exact s.nodup })
    | none => none

def pendingOf (s : Scheduler β) (channel : ChannelKey) (priority : Priority) : List β :=
  s.queues.flatMap fun q => if q.label = (channel, priority) then q.pending else []

theorem flatMap_eq_nil_of_not_mem {label : ChannelKey × Priority}
    (h : label ∉ queues.map ChannelQueue.label) :
    (queues.flatMap fun q => if q.label = label then q.pending else []) = [] := by
  refine flatMap_eq_nil_iff.mpr fun q hq => if_neg ?_
  rintro rfl
  exact h (mem_map_of_mem hq)

theorem flatMap_pushExisting
    (hnodup : (queues.map label).Nodup)
    (h : pushExisting frame queues = some queues')
    (label : ChannelKey × Priority) :
    (queues'.flatMap fun q => if q.label = label then q.pending else []) =
      (queues.flatMap fun q => if q.label = label then q.pending else []) ++
        if (frame.channel, frame.priority) = label then [frame.bytes] else [] := by
  induction queues generalizing queues' with
  | nil => cases h
  | cons q rest ih =>
    obtain ⟨hfresh, hnodup⟩ := nodup_cons.mp hnodup
    unfold pushExisting at h
    split at h
    · next hlabel =>
      cases h
      rw [← hlabel]
      by_cases heq : q.label = label
      · subst heq
        have hrest := flatMap_eq_nil_of_not_mem hfresh
        simp only [flatMap_cons, hrest, append_nil, if_true]
        exact if_pos rfl
      · have hsame : ¬ ({ q with pending := q.pending ++ [frame.bytes] } : ChannelQueue β).label =
            label :=
          heq
        simp only [flatMap_cons, if_neg heq, if_neg hsame, append_nil]
    · obtain ⟨rest', hrest, rfl⟩ := map_eq_some_iff.mp h
      simp only [flatMap_cons, ih hnodup hrest, append_assoc]

theorem pendingOf_enqueue (s : Scheduler β) (frame : Frame β) (channel : ChannelKey)
    (priority : Priority) :
    (s.enqueue frame).pendingOf channel priority =
      s.pendingOf channel priority ++ if frame.On channel priority then [frame.bytes] else [] := by
  have hon : (frame.On channel priority = true) ↔
      (frame.channel, frame.priority) = (channel, priority) := by
    simp [Frame.On]
  simp only [hon]
  unfold enqueue
  split
  · next queues h => exact flatMap_pushExisting s.nodup h (channel, priority)
  · next h => simp [pendingOf, label]

variable {s s' : Scheduler β}

theorem pops_of_popNext (h : s.popNext = some (frame, s')) : Pops s.queues frame s'.queues := by
  unfold popNext at h
  split at h
  · next hpop =>
    cases h
    exact pops_of_popLatency hpop
  · split at h
    · next hpop =>
      cases h
      exact pops_of_popBulk hpop
    · cases h

/-- A pop takes the front of one queue and leaves the others. -/
theorem pendingOf_popNext
    (h : s.popNext = some (frame, s'))
    (channel : ChannelKey) (priority : Priority) :
    s.pendingOf channel priority =
      (if frame.On channel priority then [frame.bytes] else []) ++
        s'.pendingOf channel priority := by
  have hnodup := s.nodup
  have hpops := pops_of_popNext h
  unfold pendingOf
  generalize s.queues = queues at hnodup hpops
  generalize s'.queues = queues' at hpops
  cases hpops with
  | mk before q bytes left after pending =>
    simp only [flatMap_append, flatMap_cons]
    by_cases hlabel : q.label = (channel, priority)
    · -- the labels in front of this queue are others, so it is the first to contribute
      have hbefore : (channel, priority) ∉ before.map ChannelQueue.label := by
        rw [map_append, map_cons, hlabel] at hnodup
        exact fun hmem => (nodup_append.mp hnodup).2.2 _ hmem _ mem_cons_self rfl
      have hon : (⟨q.key, q.priority, bytes⟩ : Frame β).On channel priority = true := by
        simpa [Frame.On, ChannelQueue.label] using hlabel
      have hsame : ({ q with pending := left } : ChannelQueue β).label = (channel, priority) := hlabel
      simp only [if_pos hlabel, if_pos hsame, if_pos hon, flatMap_eq_nil_of_not_mem hbefore,
        nil_append, pending, cons_append]
    · have hon : ¬ (⟨q.key, q.priority, bytes⟩ : Frame β).On channel priority = true := by
        simpa [Frame.On, ChannelQueue.label] using hlabel
      have hsame : ¬ ({ q with pending := left } : ChannelQueue β).label = (channel, priority) := hlabel
      simp only [if_neg hlabel, if_neg hsame, if_neg hon, nil_append]

theorem pendingOf_latency_of_popNext_bulk
    (h : s.popNext = some (frame, s'))
    (hbulk : frame.priority = .bulk)
    (channel : ChannelKey) : s.pendingOf channel .latency = [] := by
  unfold popNext at h
  split at h
  · next hpop =>
    cases h
    exact absurd (popLatency_priority hpop) (by rw [hbulk]; decide)
  · next hnone => exact popLatency_none hnone channel

def BulkListed (s : Scheduler β) : Prop :=
  ∀ idx q, s.queues[idx]? = some q → q.priority = .bulk → idx ∈ s.bulkOrder

theorem bulkListed_new : (new : Scheduler β).BulkListed := fun _ _ hq => nomatch hq

theorem BulkListed.of_labels
    (h : s.BulkListed)
    (hlabels : queues.map label = s.queues.map label)
    {idx : Nat} {q : ChannelQueue β}
    (hq : queues[idx]? = some q)
    (hbulk : q.priority = .bulk) : idx ∈ s.bulkOrder := by
  have hlabel : (queues.map label)[idx]? = some q.label := by
    rw [getElem?_map, hq]
    rfl
  rw [hlabels, getElem?_map] at hlabel
  obtain ⟨q', hq', hsame⟩ := map_eq_some_iff.mp hlabel
  exact h idx q' hq' ((congrArg Prod.snd hsame).trans hbulk)

theorem BulkListed.enqueue (h : s.BulkListed) (frame : Frame β) : (s.enqueue frame).BulkListed := by
  intro idx q hq hbulk
  unfold Scheduler.enqueue at hq ⊢
  split at hq
  · next queues hpush => exact h.of_labels (labels_pushExisting hpush) hq hbulk
  · rcases Nat.lt_trichotomy idx s.queues.length with hlt | heq | hgt
    · rw [getElem?_append_left hlt] at hq
      have hmem := h idx q hq hbulk
      split
      · exact mem_append_left _ hmem
      · exact hmem
    · rw [heq, getElem?_concat_length] at hq
      cases hq
      rw [if_pos hbulk, heq]
      exact mem_append_right _ (mem_singleton.mpr rfl)
    · have hlength := (List.getElem?_eq_some_iff.mp hq).1
      rw [length_append, length_singleton] at hlength
      exact absurd hlength (by omega)

theorem bulkOrder_popNext (h : s.popNext = some (frame, s')) : s'.bulkOrder = s.bulkOrder := by
  unfold popNext at h
  split at h
  · cases h
    rfl
  · split at h
    · cases h
      rfl
    · cases h

theorem BulkListed.popNext (h : s.BulkListed) (hpop : s.popNext = some (frame, s')) :
    s'.BulkListed := by
  intro idx q hq hbulk
  rw [bulkOrder_popNext hpop]
  exact h.of_labels (pops_of_popNext hpop).labels hq hbulk

theorem popAt_of_popBulk_none {bulkOrder : List Nat} {nextBulkChannel idx : Nat}
    (h : popBulk queues bulkOrder nextBulkChannel = none)
    (hmem : idx ∈ bulkOrder) : popAt queues idx = none := by
  obtain ⟨position, hlt, rfl⟩ := mem_iff_getElem.mp hmem
  obtain ⟨offset, hoffset, hposition⟩ := exists_offset nextBulkChannel position bulkOrder.length hlt
  have hround := findSome?_eq_none_iff.mp h offset (mem_range.mpr hoffset)
  rw [hposition, getElem?_eq_getElem hlt] at hround
  exact map_eq_none_iff.mp hround

theorem pendingOf_of_popNext_none
    (hlisted : s.BulkListed)
    (h : s.popNext = none)
    (channel : ChannelKey) (priority : Priority) : s.pendingOf channel priority = [] := by
  unfold Scheduler.popNext at h
  split at h
  · cases h
  · next hlatency =>
    split at h
    · cases h
    · next hbulk =>
      cases priority with
      | latency => exact popLatency_none hlatency channel
      | bulk =>
        refine flatMap_eq_nil_iff.mpr fun q hq => ?_
        split
        · next hlabel =>
          obtain ⟨idx, hidx⟩ := mem_iff_getElem?.mp hq
          have hat := popAt_of_popBulk_none hbulk (hlisted idx q hidx (congrArg Prod.snd hlabel))
          unfold popAt at hat
          rw [hidx] at hat
          cases hpending : q.pending with
          | nil => rfl
          | cons bytes left =>
            simp only [hpending] at hat
            cases hat
        · rfl

def queueWeight (measure : Frame β → Nat) (q : ChannelQueue β) : Nat :=
  (q.pending.map fun bytes => measure ⟨q.key, q.priority, bytes⟩).sum

def weight (measure : Frame β → Nat) (s : Scheduler β) : Nat :=
  (s.queues.map (queueWeight measure)).sum

variable (measure : Frame β → Nat)

theorem weight_pushExisting (h : pushExisting frame queues = some queues') :
    (queues'.map (queueWeight measure)).sum =
      (queues.map (queueWeight measure)).sum + measure frame := by
  induction queues generalizing queues' with
  | nil => cases h
  | cons q rest ih =>
    unfold pushExisting at h
    split at h
    · next hlabel =>
      cases h
      have hkey : q.key = frame.channel := congrArg Prod.fst hlabel
      have hpriority : q.priority = frame.priority := congrArg Prod.snd hlabel
      simp only [map_cons, sum_cons, queueWeight, map_append, sum_append, map_nil, sum_nil, hkey,
        hpriority]
      rw [Nat.add_zero]
      exact Nat.add_right_comm _ _ _
    · obtain ⟨rest', hrest, rfl⟩ := map_eq_some_iff.mp h
      simp only [map_cons, sum_cons, ih hrest]
      omega

theorem weight_enqueue (s : Scheduler β) (frame : Frame β) :
    (s.enqueue frame).weight measure = s.weight measure + measure frame := by
  unfold enqueue
  split
  · next hpush => exact weight_pushExisting measure hpush
  · simp [weight, queueWeight]

theorem weight_popNext (h : s.popNext = some (frame, s')) :
    s.weight measure = measure frame + s'.weight measure := by
  have hpops := pops_of_popNext h
  unfold weight
  generalize s.queues = queues at hpops
  generalize s'.queues = queues' at hpops
  cases hpops with
  | mk before q bytes left after pending =>
    simp only [map_append, sum_append, map_cons, sum_cons, queueWeight, pending]
    omega

end Scheduler
end Kmsrdp.Source.Transport
