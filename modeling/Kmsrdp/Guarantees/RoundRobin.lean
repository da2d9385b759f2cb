import Kmsrdp.Source.Transport.Scheduler

/-!
# Order and fairness of the write scheduler

What came out of a queue, followed by what waits in it, is what went in; `pop_next` gives nothing
only when nothing waits; no bulk frame comes out while a latency frame waits.
-/
namespace Kmsrdp.Guarantees.RoundRobin
open Library.Rotation Source.Transport List Scheduler ChannelQueue
variable {β : Type}

inductive Call (β : Type) where
  | enqueue (frame : Frame β)
  | popNext

inductive Event (β : Type) where
  | enqueued (frame : Frame β)
  | popped (frame : Frame β)
  /-- `pop_next` returned `None`. -/
  | nothing

def call (s : Scheduler β) : Call β → Event β × Scheduler β
  | .enqueue frame => (.enqueued frame, s.enqueue frame)
  | .popNext =>
    match s.popNext with
    | some (frame, t) => (.popped frame, t)
    | none => (.nothing, s)

def run (s : Scheduler β) : List (Call β) → List (Event β) × Scheduler β
  | [] => ([], s)
  | c :: rest =>
    let first := call s c
    let later := run first.2 rest
    (first.1 :: later.1, later.2)

def Event.enqueuedOn (channel : ChannelKey) (priority : Priority) : Event β → Option β
  | enqueued frame => if frame.On channel priority then some frame.bytes else none
  | _ => none

def Event.poppedOn (channel : ChannelKey) (priority : Priority) : Event β → Option β
  | popped frame => if frame.On channel priority then some frame.bytes else none
  | _ => none

def Event.isBulkPop : Event β → Bool
  | popped frame => frame.priority = .bulk
  | _ => false

def Event.serves (channel : ChannelKey) : Event β → Bool
  | popped frame => frame.On channel .bulk
  | _ => false

def bulkQueues (s : Scheduler β) : Nat := s.queues.countP fun q => q.priority = .bulk

inductive Turn (s : Scheduler β) : Event β → Scheduler β → Prop
  | enqueued (frame : Frame β) : Turn s (.enqueued frame) (s.enqueue frame)
  | popped (frame : Frame β) (t : Scheduler β) (hpop : s.popNext = some (frame, t)) :
      Turn s (.popped frame) t
  | nothing (hpop : s.popNext = none) : Turn s .nothing s

theorem turn_call (s : Scheduler β) (c : Call β) : Turn s (call s c).1 (call s c).2 := by
  cases c with
  | enqueue frame => exact .enqueued frame
  | popNext =>
    unfold call
    cases hpop : s.popNext with
    | none => exact .nothing hpop
    | some popped => exact .popped popped.1 popped.2 hpop

variable {s : Scheduler β}

theorem run_invariant (inv : Scheduler β → Prop)
    (keeps : ∀ s event t, inv s → Turn s event t → inv t)
    (calls : List (Call β))
    (h : inv s) : inv (run s calls).2 := by
  induction calls generalizing s with
  | nil => exact h
  | cons c rest ih => exact ih (keeps s _ _ h (turn_call s c))

variable {t : Scheduler β} {event : Event β}
open Event

theorem turn_ordered (h : Turn s event t) (channel : ChannelKey) (priority : Priority) :
    s.pendingOf channel priority ++ (event.enqueuedOn channel priority).toList =
      (event.poppedOn channel priority).toList ++ t.pendingOf channel priority := by
  have hlist : ∀ frame : Frame β,
      (if frame.On channel priority then some frame.bytes else none).toList =
      if frame.On channel priority then [frame.bytes] else [] := by
    intro frame
    split <;> rfl
  cases h with
  | enqueued frame => rw [pendingOf_enqueue, enqueuedOn, hlist]; rfl
  | popped frame t hpop =>
    rw [pendingOf_popNext hpop channel priority, poppedOn, hlist]
    exact append_nil _
  | nothing hpop => exact append_nil _

theorem run_ordered (channel : ChannelKey) (priority : Priority) (calls : List (Call β))
    (s : Scheduler β) :
    s.pendingOf channel priority ++ (run s calls).1.filterMap (enqueuedOn channel priority) =
      (run s calls).1.filterMap (poppedOn channel priority) ++
        (run s calls).2.pendingOf channel priority := by
  have hcons : ∀ (f : Event β → Option β) (event : Event β) (later : List (Event β)),
      (event :: later).filterMap f = (f event).toList ++ later.filterMap f := by
    intro f event later
    cases h : f event <;> simp [h]
  induction calls generalizing s with
  | nil => simp [run]
  | cons c rest ih =>
    rw [run]
    rw [hcons, hcons, ← append_assoc, turn_ordered (turn_call s c), append_assoc, ih, append_assoc]

/-- `bulk_order` lists the bulk queues, and the index points into it. -/
structure Rotates (s : Scheduler β) : Prop where
  listed : s.BulkListed
  counted : s.bulkOrder.length = bulkQueues s
  pointsIn : s.nextBulkChannel < max s.bulkOrder.length 1

theorem bulkQueues_eq (s : Scheduler β) :
    bulkQueues s = (s.queues.map label).countP fun label => label.2 = .bulk := by
  rw [countP_map]
  rfl

/-- A new queue at the end, or the same queues as before. -/
inductive Grows (s t : Scheduler β) : Prop
  | same (hlabels : t.queues.map ChannelQueue.label = s.queues.map ChannelQueue.label)
      (horder : t.bulkOrder = s.bulkOrder)
  | latency (channel : ChannelKey)
      (hlabels : t.queues.map ChannelQueue.label = s.queues.map ChannelQueue.label ++
        [(channel, .latency)])
      (horder : t.bulkOrder = s.bulkOrder)
  | bulk (channel : ChannelKey)
      (hlabels : t.queues.map ChannelQueue.label = s.queues.map ChannelQueue.label ++
        [(channel, .bulk)])
      (horder : t.bulkOrder = s.bulkOrder ++ [s.queues.length])

theorem grows_enqueue (s : Scheduler β) (frame : Frame β) :
    Grows s (s.enqueue frame) ∧ (s.enqueue frame).nextBulkChannel = s.nextBulkChannel := by
  unfold enqueue
  split
  · next queues hpush => exact ⟨.same (labels_pushExisting hpush) rfl, rfl⟩
  · next hnone =>
    obtain ⟨channel, priority, bytes⟩ := frame
    cases priority with
    | latency => exact ⟨.latency channel (by simp [label]) rfl, rfl⟩
    | bulk => exact ⟨.bulk channel (by simp [label]) rfl, rfl⟩

theorem popBulk_cases {queues queues' : List (ChannelQueue β)} {bulkOrder : List Nat}
    {next next' : Nat} {frame : Frame β}
    (h : popBulk queues bulkOrder next = some ((frame, queues'), next')) :
    ∃ offset < bulkOrder.length, ∃ idx,
      bulkOrder[(next + offset) % bulkOrder.length]? = some idx ∧
      popAt queues idx = some (frame, queues') ∧
      next' = (next + offset + 1) % bulkOrder.length ∧
      ∀ j < offset, ∀ idx', bulkOrder[(next + j) % bulkOrder.length]? = some idx' →
        popAt queues idx' = none := by
  obtain ⟨offset, hlt, hfound, hearlier⟩ := findSome?_range h
  split at hfound
  · cases hfound
  · next idx hidx =>
    obtain ⟨popped, hpop, heq⟩ := Option.map_eq_some_iff.mp hfound
    cases heq
    refine ⟨offset, hlt, idx, hidx, hpop, rfl, ?_⟩
    intro j hj idx' hidx'
    have hnone := hearlier j hj
    rw [hidx'] at hnone
    exact Option.map_eq_none_iff.mp hnone

/-- A pop from a latency queue, or from the first bulk queue in turn that is not empty. -/
inductive PopTurn (s : Scheduler β) (frame : Frame β) (t : Scheduler β) : Prop
  | latency (hpriority : frame.priority = .latency) (hnext : t.nextBulkChannel = s.nextBulkChannel)
  | bulk (offset idx : Nat) (hoffset : offset < s.bulkOrder.length)
      (hidx : s.bulkOrder[(s.nextBulkChannel + offset) % s.bulkOrder.length]? = some idx)
      (hpop : popAt s.queues idx = some (frame, t.queues))
      (hnext : t.nextBulkChannel = (s.nextBulkChannel + offset + 1) % s.bulkOrder.length)
      (hearlier : ∀ j < offset, ∀ idx', s.bulkOrder[(s.nextBulkChannel + j) % s.bulkOrder.length]? =
        some idx' →
        popAt s.queues idx' = none)

theorem popTurn_of_popNext {frame : Frame β} (h : s.popNext = some (frame, t)) :
    PopTurn s frame t := by
  unfold popNext at h
  split at h
  · next hpop =>
    cases h
    exact .latency (popLatency_priority hpop) rfl
  · split at h
    · next hpop =>
      cases h
      obtain ⟨offset, hlt, idx, hidx, hat, hnext, hearlier⟩ := popBulk_cases hpop
      exact .bulk offset idx hlt hidx hat hnext hearlier
    · cases h

theorem rotates_new : Rotates (new : Scheduler β) where
  listed := bulkListed_new
  counted := rfl
  pointsIn := Nat.zero_lt_one

theorem Rotates.turn (h : Rotates s) (hturn : Turn s event t) : Rotates t := by
  obtain ⟨hlisted, hcounted, hpoints⟩ := h
  rw [bulkQueues_eq] at hcounted
  cases hturn with
  | enqueued frame =>
    obtain ⟨hgrows, hnext⟩ := grows_enqueue s frame
    refine ⟨hlisted.enqueue frame, ?_, ?_⟩
    · rw [bulkQueues_eq]
      cases hgrows with
      | same hlabels horder => rw [hlabels, horder, hcounted]
      | latency channel hlabels horder => rw [hlabels, horder, hcounted, countP_append]; rfl
      | bulk channel hlabels horder =>
        rw [hlabels, horder, length_append, hcounted, countP_append]
        rfl
    · rw [hnext]
      cases hgrows with
      | same hlabels horder => rwa [horder]
      | latency channel hlabels horder => rwa [horder]
      | bulk channel hlabels horder =>
        rw [horder, length_append]
        omega
  | popped frame t hpop =>
    refine ⟨hlisted.popNext hpop, ?_, ?_⟩
    · rw [bulkQueues_eq, (pops_of_popNext hpop).labels, bulkOrder_popNext hpop, hcounted]
    · rw [bulkOrder_popNext hpop]
      cases popTurn_of_popNext hpop with
      | latency hpriority hnext => rwa [hnext]
      | bulk offset idx hoffset hidx hat hnext hearlier =>
        have hmod := Nat.mod_lt (s.nextBulkChannel + offset + 1) (show 0 < s.bulkOrder.length by omega)
        rw [hnext]
        omega
  | nothing hpop => exact ⟨hlisted, by rw [hcounted, bulkQueues_eq], hpoints⟩

/-- The bulk queue of the channel holds something; it stands at `place` in the rotation. -/
structure Waits (s : Scheduler β) (channel : ChannelKey) (place idx : Nat) : Prop where
  position : s.bulkOrder[place]? = some idx
  label : (s.queues.map ChannelQueue.label)[idx]? = some (channel, .bulk)
  pending : s.pendingOf channel .bulk ≠ []

variable {idx : Nat} {channel : ChannelKey}

theorem pendingOf_eq_pending {q : ChannelQueue β}
    (hq : s.queues[idx]? = some q)
    {priority : Priority}
    (hlabel : q.label = (channel, priority)) : s.pendingOf channel priority = q.pending := by
  have hnodup := s.nodup
  obtain ⟨hlt, hget⟩ := List.getElem?_eq_some_iff.mp hq
  have hsplit : s.queues = s.queues.take idx ++ q :: s.queues.drop (idx + 1) := by
    rw [← hget, ← drop_eq_getElem_cons hlt, take_append_drop]
  rw [hsplit, map_append, map_cons, nodup_append] at hnodup
  obtain ⟨-, hback, hfront⟩ := hnodup
  have hnotFront : q.label ∉ (s.queues.take idx).map label :=
    fun hmem => hfront _ hmem _ mem_cons_self rfl
  have hnotBack := (nodup_cons.mp hback).1
  rw [pendingOf, hsplit, flatMap_append, flatMap_cons, ← hlabel,
    flatMap_eq_nil_of_not_mem hnotFront, flatMap_eq_nil_of_not_mem hnotBack, if_pos rfl,
    nil_append, append_nil]

variable {place : Nat}

theorem Waits.popAt (h : Waits s channel place idx) :
    ∃ bytes queues, popAt s.queues idx = some (⟨channel, .bulk, bytes⟩, queues) := by
  obtain ⟨-, hlabel, hpending⟩ := h
  rw [getElem?_map] at hlabel
  obtain ⟨q, hq, hq'⟩ := Option.map_eq_some_iff.mp hlabel
  rw [pendingOf_eq_pending hq hq'] at hpending
  obtain ⟨bytes, left, hcons⟩ := exists_cons_of_ne_nil hpending
  refine ⟨bytes, s.queues.set idx { q with pending := left }, ?_⟩
  unfold Source.Transport.popAt
  rw [hq]
  simp only [hcons]
  rw [show q.key = channel from congrArg Prod.fst hq', show q.priority =
    .bulk from congrArg Prod.snd hq']

theorem exists_waits (hlisted : s.BulkListed) (h : s.pendingOf channel .bulk ≠ []) :
    ∃ place idx, Waits s channel place idx := by
  have hmem : (channel, Priority.bulk) ∈ s.queues.map label := by
    by_contra hnone
    exact h (flatMap_eq_nil_of_not_mem hnone)
  obtain ⟨idx, hidx⟩ := mem_iff_getElem?.mp hmem
  obtain ⟨q, hq, hlabel⟩ := Option.map_eq_some_iff.mp ((getElem?_map ..).symm.trans hidx)
  obtain ⟨place, hplace⟩ := mem_iff_getElem?.mp (hlisted idx q hq (congrArg Prod.snd hlabel))
  exact ⟨place, idx, hplace, hidx, h⟩

theorem Waits.turn
    (h : Waits s channel place idx)
    (hturn : Turn s event t)
    (hunserved : event.serves channel = false) : Waits t channel place idx := by
  obtain ⟨hposition, hlabel, hpending⟩ := h
  have hgrow : ∀ {α : Type} {items : List α} {i : Nat} {a b : α}, items[i]? = some a →
      (items ++ [b])[i]? = some a := fun hitem =>
    (List.getElem?_append_left (List.getElem?_eq_some_iff.mp hitem).1).trans hitem
  cases hturn with
  | enqueued frame =>
    have hmore : (s.enqueue frame).pendingOf channel .bulk ≠ [] := by
      rw [pendingOf_enqueue]
      exact fun hnil => hpending (append_eq_nil_iff.mp hnil).1
    cases (grows_enqueue s frame).1 with
    | same hlabels horder => exact ⟨by rwa [horder], by rwa [hlabels], hmore⟩
    | latency other hlabels horder =>
      exact ⟨by rwa [horder], by rw [hlabels]; exact hgrow hlabel, hmore⟩
    | bulk other hlabels horder =>
      exact ⟨by rw [horder]; exact hgrow hposition, by rw [hlabels]; exact hgrow hlabel, hmore⟩
  | popped frame t hpop =>
    refine ⟨by rwa [bulkOrder_popNext hpop], ?_, ?_⟩
    · rwa [(pops_of_popNext hpop).labels]
    · have hsame := pendingOf_popNext hpop channel .bulk
      rw [if_neg (by simpa [serves] using hunserved), nil_append] at hsame
      rwa [← hsame]
  | nothing hpop => exact ⟨hposition, hlabel, hpending⟩

def rankIn (s : Scheduler β) (place : Nat) : Nat := rank s.bulkOrder.length s.nextBulkChannel place

theorem rank_turn {pops : Nat}
    (hrotates : Rotates s)
    (h : Waits s channel place idx)
    (hturn : Turn s event t)
    (hunserved : event.serves channel = false)
    (hrank : pops + rankIn s place < s.bulkOrder.length) :
    pops + (if event.isBulkPop then 1 else 0) + rankIn t place < t.bulkOrder.length := by
  have hplace := (List.getElem?_eq_some_iff.mp h.position).1
  have hnextLt : s.nextBulkChannel < s.bulkOrder.length := by
    have hpoints := hrotates.pointsIn
    omega
  unfold rankIn at hrank ⊢
  cases hturn with
  | enqueued frame =>
    obtain ⟨hgrows, hnext⟩ := grows_enqueue s frame
    rw [if_neg (by simp [isBulkPop]), hnext]
    cases hgrows with
    | same hlabels horder => rwa [horder]
    | latency other hlabels horder => rwa [horder]
    | bulk other hlabels horder =>
      have hgrow : rank (s.bulkOrder.length + 1) s.nextBulkChannel place ≤ _ := rank_grow hnextLt
      rw [horder, List.length_append, List.length_singleton]
      omega
  | popped frame t hpop =>
    rw [bulkOrder_popNext hpop]
    cases popTurn_of_popNext hpop with
    | latency hpriority hnext =>
      rw [if_neg (by simp [isBulkPop, hpriority]), hnext]
      exact hrank
    | bulk offset idx' hoffset hidx hat hnext hearlier =>
      obtain ⟨bytes, queues, hwaits⟩ := h.popAt
      have hours := rotate_rank hnextLt hplace
      -- the loop stops before it comes to the queue that waits
      have hahead : offset < rank s.bulkOrder.length s.nextBulkChannel place := by
        rcases Nat.lt_trichotomy offset (rank s.bulkOrder.length s.nextBulkChannel place)
          with hlt | heq | hgt
        · exact hlt
        · rw [heq, hours, h.position] at hidx
          cases hidx
          cases hat.symm.trans hwaits
          simp [serves, Frame.On] at hunserved
        · have hnone := hearlier _ hgt idx (by rw [hours]; exact h.position)
          rw [hwaits] at hnone
          cases hnone
      have hadvance := rank_advance hnextLt hplace hahead
      rw [hnext]
      split <;> omega
  | nothing hpop =>
    rw [if_neg (by simp [isBulkPop])]
    exact hrank

theorem run_waits (calls : List (Call β)) {pops : Nat}
    (hrotates : Rotates s)
    (h : Waits s channel place idx)
    (hrank : pops + rankIn s place < s.bulkOrder.length)
    (hunserved : ∀ event ∈ (run s calls).1, event.serves channel = false) :
    pops + (run s calls).1.countP isBulkPop < bulkQueues (run s calls).2 := by
  induction calls generalizing s pops with
  | nil =>
    rw [run, countP_nil, ← hrotates.counted]
    omega
  | cons c rest ih =>
    have hturn := turn_call s c
    rw [run] at hunserved ⊢
    have hfirst := hunserved _ mem_cons_self
    have hlater :=
      ih (hrotates.turn hturn) (h.turn hturn hfirst) (rank_turn hrotates h hturn hfirst hrank)
      (fun event hmem => hunserved event (mem_cons_of_mem _ hmem))
    dsimp only
    rw [countP_cons]
    omega

/-- After any calls: a bulk frame is popped only when no latency frame waits; as long as a bulk
queue that holds something is not served, fewer bulk frames are popped than there are bulk queues;
what came out of a queue, with what waits in it, is what went in, in this order; and `pop_next`
returns `None` exactly when nothing waits. -/
theorem scheduler_fair (calls : List (Call β)) :
    let s := (run new calls).2
    (∀ frame t, s.popNext = some (frame, t) → frame.priority = .bulk →
      ∀ channel, s.pendingOf channel .latency = []) ∧
    (∀ channel later, s.pendingOf channel .bulk ≠ [] →
      (∀ event ∈ (run s later).1, event.serves channel = false) →
      (run s later).1.countP isBulkPop < bulkQueues (run s later).2) ∧
    (∀ channel priority, (run new calls).1.filterMap (enqueuedOn channel priority) =
      (run new calls).1.filterMap (poppedOn channel priority) ++ s.pendingOf channel priority) ∧
    (s.popNext = none ↔ ∀ channel priority, s.pendingOf channel priority = []) := by
  intro s
  have hrotates : Rotates s :=
    run_invariant Rotates (fun _ _ _ h hturn => h.turn hturn) calls rotates_new
  refine ⟨?_, ?_, ?_, ?_⟩
  · intro frame t hpop hbulk channel
    exact pendingOf_latency_of_popNext_bulk hpop hbulk channel
  · intro channel later hpending hunserved
    obtain ⟨place, idx, hwaits⟩ := exists_waits hrotates.listed hpending
    have hplace := (List.getElem?_eq_some_iff.mp hwaits.position).1
    have hpoints := hrotates.pointsIn
    have hrank : 0 + rankIn s place < s.bulkOrder.length := by
      rw [Nat.zero_add]
      exact rank_lt (by omega) hplace
    have hfewer := run_waits later hrotates hwaits hrank hunserved
    rwa [Nat.zero_add] at hfewer
  · intro channel priority
    exact run_ordered channel priority calls new
  · constructor
    · intro hnone channel priority
      exact pendingOf_of_popNext_none hrotates.listed hnone channel priority
    · intro hempty
      cases hpop : s.popNext with
      | none => rfl
      | some popped =>
        have hfront := pendingOf_popNext hpop popped.1.channel popped.1.priority
        rw [hempty, if_pos (by simp [Frame.On])] at hfront
        cases hfront

def threeChannels : List (Call Nat) :=
  [.enqueue ⟨.static 1, .bulk, 10⟩, .enqueue ⟨.static 2, .bulk, 20⟩, .enqueue ⟨.static 3, .bulk, 30⟩]

/-- The third queue waits for the other two. -/
theorem third_waits_for_two :
    (run (run Scheduler.new threeChannels).2 [.popNext, .popNext]).1.countP Event.isBulkPop = 2 ∧
    (run (run Scheduler.new threeChannels).2 [.popNext, .popNext]).1.countP Event.isBulkPop <
      bulkQueues (run (run Scheduler.new threeChannels).2 [.popNext, .popNext]).2 :=
  ⟨by decide,
    (scheduler_fair threeChannels).2.1 (.static 3) [.popNext, .popNext] (by decide) (by decide)⟩

end Kmsrdp.Guarantees.RoundRobin
