import Kmsrdp.Source.Cliprdr.LocalClipboard

/-!
# The directions of the clipboard

From client to host nothing of the host clipboard shows in what the client is sent: runs in which
the client and the session do the same send the same frames.
-/
namespace Kmsrdp.Guarantees.ClipboardDirections
open Library.ByteString Source.Cliprdr Source.Cliprdr.LocalClipboard List Clipboard
  LocalClipboardBackend ClipboardMode

def OfSession : Action → Bool
  | .clientData _ | .encodeNext | .delayOver => true
  | _ => false

def copied (contents : Option String) : Action → Option String
  | .hostCopy next => next
  | _ => contents

variable (fromUtf8Lossy : Bytes → String)

def run (c : Clipboard) (actions : List Action) : Clipboard :=
  actions.foldl (Clipboard.step fromUtf8Lossy) c

/-- The backends are the same but for their tasks, and have none that reads the clipboard. -/
structure SameBackend (b b' : LocalClipboardBackend) : Prop where
  mode_eq : b.mode = .clientToHost
  eq : { b with tasks := [] } = { b' with tasks := [] }
  reads : .sendLocalText ∉ b.tasks
  reads' : .sendLocalText ∉ b'.tasks

structure Same (c c' : Clipboard) : Prop where
  channel_eq : c.channel = c'.channel
  frames_eq : c.frames = c'.frames
  backend : SameBackend c.backend c'.backend
  asks : .getText ∉ c.requests
  asks' : .getText ∉ c'.requests

theorem SameBackend.cases {b b' : LocalClipboardBackend} (h : SameBackend b b') :
    ∃ format delay sent delayed tasks tasks',
      b = ⟨.clientToHost, format, delay, sent, delayed, tasks⟩ ∧
      b' = ⟨.clientToHost, format, delay, sent, delayed, tasks'⟩ ∧
      .sendLocalText ∉ tasks ∧
      .sendLocalText ∉ tasks' := by
  obtain ⟨mode, format, delay, sent, delayed, tasks⟩ := b
  obtain ⟨mode', format', delay', sent', delayed', tasks'⟩ := b'
  obtain ⟨rfl, heq, hreads, hreads'⟩ := h
  obtain ⟨rfl, rfl, rfl, rfl, rfl⟩ := heq
  exact ⟨_, _, _, _, _, _, rfl, rfl, hreads, hreads'⟩

theorem sameBackend_onChannelData {b b' : LocalClipboardBackend} (h : SameBackend b b')
    (channel : CliprdrChannel) (payload : Bytes) :
    let called := channel.onChannelData fromUtf8Lossy localBackend b payload
    let called' := channel.onChannelData fromUtf8Lossy localBackend b' payload
    called.1 = called'.1 ∧ called.2.1 = called'.2.1 ∧ SameBackend called.2.2 called'.2.2 := by
  apply CliprdrChannel.onChannelData_related fromUtf8Lossy h
  all_goals obtain ⟨format, delay, sent, delayed, tasks, tasks', rfl, rfl, hreads, hreads'⟩ := h.cases
  · intro formatIds
    simp only [localBackend, onRemoteCopy, pasteDelay]
    cases selectTextFormat formatIds <;> cases delay <;> exact ⟨rfl, rfl, hreads, hreads'⟩
  · intro format
    exact ⟨rfl, rfl, hreads, hreads'⟩
  · intro status
    have hwrites : ∀ {tasks : List Task} (text : String), .sendLocalText ∉ tasks →
        .sendLocalText ∉ tasks ++ [.writeText text] := by simp
    cases status with
    | failed => exact ⟨rfl, rfl, hreads, hreads'⟩
    | ok text => exact ⟨rfl, rfl, hwrites _ hreads, hwrites _ hreads'⟩

variable {c c' : Clipboard} {action : Action}

theorem Same.step_left (h : Same c c') (haction : OfSession action = false) :
    Same (c.step fromUtf8Lossy action) c' := by
  have hsame := h
  obtain ⟨hchannel, hframes, hbackend, hasks, hasks'⟩ := h
  have hwatch : ∀ seen, c.watch seen = c := by simp [watch, hbackend.mode_eq, allowsHostToClient]
  have hkept : ∀ requests host, .getText ∉ requests →
      Same { c with requests := requests, host := host } c' :=
    fun _ _ hnone => ⟨hchannel, hframes, hbackend, hnone, hasks'⟩
  cases action with
  | clientData | encodeNext | delayOver => cases haction
  | hostCopy contents => exact hkept _ _ hasks
  | poll | selectionNotify | sessionChanged => simpa only [step, hwatch] using hsame
  | otherSession text =>
    simp only [step]
    split <;> exact hkept _ _ hasks
  | runTask number =>
    simp only [step]
    split
    · exact hkept _ _ hasks
    · next htask => exact absurd (mem_of_getElem? htask) hbackend.reads
    · next text htask =>
      refine ⟨hchannel, hframes, ⟨hbackend.mode_eq, hbackend.eq, ?_, hbackend.reads'⟩,
        by simpa using hasks, hasks'⟩
      exact fun hmem => hbackend.reads (mem_of_mem_eraseIdx hmem)
  | worker reachable =>
    simp only [step]
    split
    · exact hkept _ _ hasks
    · next hrequests => simp [hrequests] at hasks
    · next text requests hrequests =>
      have hrest : .getText ∉ requests := fun hmem => hasks (hrequests ▸ mem_cons_of_mem _ hmem)
      split <;> exact hkept _ _ hrest

theorem Same.step (h : Same c c') (haction : OfSession action = true) :
    Same (c.step fromUtf8Lossy action) (c'.step fromUtf8Lossy action) := by
  obtain ⟨channel, backend, frames, requests, host⟩ := c
  obtain ⟨channel', backend', frames', requests', host'⟩ := c'
  obtain ⟨rfl, rfl, hbackend, hasks, hasks'⟩ := h
  cases action with
  | hostCopy | otherSession | poll | selectionNotify | sessionChanged | runTask | worker =>
    cases haction
  | clientData payload =>
    obtain ⟨hanswer, hchannel, hafter⟩ :=
      sameBackend_onChannelData fromUtf8Lossy hbackend channel payload
    exact ⟨hchannel, by simp only [step, hanswer], hafter, hasks, hasks'⟩
  | encodeNext =>
    obtain ⟨format, delay, sent, delayed, tasks, tasks', rfl, rfl, hreads, hreads'⟩ := hbackend.cases
    cases sent <;> exact ⟨rfl, rfl, ⟨rfl, rfl, hreads, hreads'⟩, hasks, hasks'⟩
  | delayOver =>
    obtain ⟨format, delay, sent, delayed, tasks, tasks', rfl, rfl, hreads, hreads'⟩ := hbackend.cases
    cases delayed <;> exact ⟨rfl, rfl, ⟨rfl, rfl, hreads, hreads'⟩, hasks, hasks'⟩

theorem Same.run_left (h : Same c c') (actions : List Action) :
    Same (run fromUtf8Lossy c actions) (run fromUtf8Lossy c' (actions.filter OfSession)) := by
  induction actions generalizing c c' with
  | nil => exact h
  | cons action rest ih =>
    cases haction : OfSession action with
    | false =>
      rw [filter_cons_of_neg (by simp [haction])]
      exact ih (h.step_left fromUtf8Lossy haction)
    | true =>
      rw [filter_cons_of_pos haction]
      exact ih (h.step fromUtf8Lossy haction)

structure NoWrites (c : Clipboard) : Prop where
  mode_eq : c.backend.mode = .hostToClient
  writes : ∀ text, .writeText text ∉ c.backend.tasks
  sets : ∀ text, .setText text ∉ c.requests

theorem noWrites_onChannelData (h : NoWrites c) (payload : Bytes) :
    let called := c.channel.onChannelData fromUtf8Lossy localBackend c.backend payload
    called.2.2.mode = .hostToClient ∧ ∀ text, .writeText text ∉ called.2.2.tasks := by
  obtain ⟨channel, ⟨mode, format, delay, sent, delayed, tasks⟩, frames, requests, host⟩ := c
  obtain ⟨hmode, hwrites, -⟩ := h
  subst hmode
  apply CliprdrChannel.onChannelData_invariant fromUtf8Lossy
    fun b : LocalClipboardBackend => b.mode = .hostToClient ∧ ∀ text, .writeText text ∉ b.tasks
  · exact ⟨rfl, hwrites⟩
  · exact fun _ => ⟨rfl, hwrites⟩
  · intro format
    simp only [localBackend, onFormatDataRequest]
    split
    · exact ⟨rfl, hwrites⟩
    · exact ⟨rfl, by simpa using hwrites⟩
  · exact fun _ => ⟨rfl, hwrites⟩

theorem NoWrites.step (h : NoWrites c) (action : Action) :
    NoWrites (c.step fromUtf8Lossy action) ∧
    (c.step fromUtf8Lossy action).host.contents = copied c.host.contents action ∧
    (c.step fromUtf8Lossy action).host.lastWritten = c.host.lastWritten := by
  have hself := h
  obtain ⟨hmode, hwrites, hsets⟩ := h
  have hwatch : ∀ seen : Bool × Host, seen.2.contents = c.host.contents →
      seen.2.lastWritten = c.host.lastWritten →
      NoWrites (c.watch seen) ∧ (c.watch seen).host.contents = c.host.contents ∧
        (c.watch seen).host.lastWritten = c.host.lastWritten := by
    intro seen hcontents hlast
    simp only [watch, hmode, allowsHostToClient, if_true]
    refine ⟨?_, hcontents, hlast⟩
    split
    · exact ⟨hmode, hwrites, hsets⟩
    · exact ⟨hmode, hwrites, hsets⟩
  cases action with
  | clientData payload =>
    obtain ⟨hmode', hwrites'⟩ := noWrites_onChannelData fromUtf8Lossy hself payload
    exact ⟨⟨hmode', hwrites', hsets⟩, rfl, rfl⟩
  | encodeNext =>
    simp only [Clipboard.step]
    split <;> exact ⟨⟨hmode, hwrites, hsets⟩, rfl, rfl⟩
  | delayOver =>
    simp only [Clipboard.step]
    split <;> exact ⟨⟨hmode, hwrites, hsets⟩, rfl, rfl⟩
  | runTask number =>
    have hrest : ∀ text, .writeText text ∉ c.backend.tasks.eraseIdx number :=
      fun text hmem => hwrites text (mem_of_mem_eraseIdx hmem)
    simp only [Clipboard.step]
    split
    · exact ⟨hself, rfl, rfl⟩
    · exact ⟨⟨hmode, hrest, by simpa using hsets⟩, rfl, rfl⟩
    · next text htask => exact absurd (mem_of_getElem? htask) (hwrites text)
  | worker reachable =>
    simp only [Clipboard.step]
    split
    · exact ⟨hself, rfl, rfl⟩
    · next requests hrequests =>
      refine ⟨⟨hmode, hwrites, fun text hmem => hsets text ?_⟩, rfl, rfl⟩
      exact hrequests ▸ mem_cons_of_mem _ hmem
    · next text requests hrequests => exact absurd (hrequests ▸ mem_cons_self) (hsets text)
  | hostCopy contents => exact ⟨⟨hmode, hwrites, hsets⟩, rfl, rfl⟩
  | otherSession text =>
    simpa [Clipboard.step, hmode, allowsClientToHost, copied] using hself
  | poll reachable => exact hwatch _ rfl rfl
  | selectionNotify reachable =>
    apply hwatch <;> (unfold Host.selectionNotify; dsimp only; split <;> rfl)
  | sessionChanged => exact hwatch _ rfl rfl

theorem NoWrites.run (h : NoWrites c) (actions : List Action) :
    (run fromUtf8Lossy c actions).host.contents = actions.foldl copied c.host.contents ∧
    (run fromUtf8Lossy c actions).host.lastWritten = c.host.lastWritten := by
  induction actions generalizing c with
  | nil => exact ⟨rfl, rfl⟩
  | cons action rest ih =>
    obtain ⟨hafter, hcontents, hlast⟩ := h.step fromUtf8Lossy action
    have hrest := ih hafter
    rw [hcontents, hlast] at hrest
    exact hrest

/-- For every channel and every way to read UTF-8: from client to host, what the client is sent
depends on its messages and the session's turns only; from host to client, the host clipboard holds
what the host has copied and the record of the last written text is what it was. -/
theorem clipboard_directions (channelId userChannelId : UInt16) :
    (∀ host host' actions actions', actions.filter OfSession = actions'.filter OfSession →
       (run fromUtf8Lossy (.start .clientToHost channelId userChannelId host) actions).frames =
         (run fromUtf8Lossy (.start .clientToHost channelId userChannelId host') actions').frames) ∧
    ∀ host actions,
      (run fromUtf8Lossy (.start .hostToClient channelId userChannelId host)
         actions).host.contents =
        actions.foldl copied host.contents ∧
      (run fromUtf8Lossy (.start .hostToClient channelId userChannelId host)
         actions).host.lastWritten =
        host.lastWritten := by
  constructor
  · intro host host' actions actions' hactions
    have hstart : ∀ host, Same (.start .clientToHost channelId userChannelId host)
        (.start .clientToHost channelId userChannelId host') :=
      fun _ => ⟨rfl, rfl, ⟨rfl, rfl, not_mem_nil, not_mem_nil⟩, not_mem_nil, not_mem_nil⟩
    have hleft := ((hstart host).run_left fromUtf8Lossy actions).frames_eq
    rw [hactions] at hleft
    exact hleft.trans ((hstart host').run_left fromUtf8Lossy actions').frames_eq.symm
  · intro host actions
    have hstart : NoWrites (.start .hostToClient channelId userChannelId host) :=
      ⟨rfl, fun _ => not_mem_nil, fun _ => not_mem_nil⟩
    exact hstart.run fromUtf8Lossy actions

end Kmsrdp.Guarantees.ClipboardDirections
