import Kmsrdp.Source.Rdpdr.Channel
import Kmsrdp.Source.Rdpdr.FuseFs

/-!
# What the completions of a client can do to an operation

The client decides how long an enumeration goes on and how much a read or write has done: no
operation compares a completion with its request.
-/
namespace Kmsrdp.Guarantees.DriveCompletions
open Library.ByteString Library.Effects Source.Pdu Source.Rdpdr List Nat

def afterSubmit (s : FuseState) (command : Nat → DriveCommand) : FuseState :=
  { s with
    bridge := { s.bridge with nextTag := s.bridge.nextTag + 1 }
    replies := s.replies.tail
    sent := s.sent ++ [command s.bridge.nextTag] }

def outcome {α : Type} : Option (Except Nat α) → Except Errno α
  | some (.ok a) => .ok a
  | some (.error status) => .error (ntstatusToErrno status)
  | none => .error .eio

variable {α : Type}

theorem runOn_submitFor (command : Nat → DriveCommand)
    (completion : ClientReply → Option (Except Nat α)) (s : FuseState) :
    runOn (submitFor command completion) s =
      (outcome (completion (s.replies.headD .disconnected)), afterSubmit s command) := by
  have hsubmit : runOn (submit command) s =
      (.ok (s.replies.headD .disconnected), afterSubmit s command) := rfl
  rw [submitFor, runOn_bind, hsubmit]
  dsimp only
  cases completion (s.replies.headD .disconnected) with
  | none => rfl
  | some result => cases result <;> rfl

/-- The entries that the client gives before any other answer. -/
def listing : List ClientReply → List DirectoryEntry
  | .queryDir (.ok (some entry)) :: rest => entry :: listing rest
  | _ => []

def isListed (entry : DirectoryEntry) : Bool :=
  let name := Bridge.trimEndNul entry.fileName
  name ≠ [] ∧ name ≠ ['.'] ∧ name ≠ ['.', '.']

/-- Every entry costs a request, and one more brings the other answer. -/
theorem meets_enumerateLoop (deviceId : Nat) (parent : WinPath) (fileId : Nat) {turns : Nat}
    (first : Option WinPath) {replies : List ClientReply} (count : Nat)
    (hturns : replies.length < turns) :
    Meets (fun s => s.replies = replies ∧ s.sent.length = count)
      (enumerateLoop deviceId parent fileId turns first)
      (fun entries s =>
         entries = (listing replies).filter isListed ∧
         s.sent.length = count + ((listing replies).length + 1)) fun s =>
      s.sent.length = count + ((listing replies).length + 1) := by
  induction turns generalizing first replies count with
  | zero => exact absurd hturns (not_lt_zero _)
  | succ turns ih =>
    have hquery : Meets (fun s => s.replies = replies ∧ s.sent.length = count)
        (submitQueryDir deviceId fileId first)
        (fun found s => (s.replies = replies.tail ∧ s.sent.length = count + 1) ∧
          listing replies = found.elim [] (· :: listing replies.tail))
        fun s => s.sent.length = count + ((listing replies).length + 1) := by
      rintro s ⟨hreplies, rfl⟩
      have hsent : (afterSubmit s (.queryDirectory deviceId fileId first)).sent.length =
          s.sent.length + 1 :=
        length_append
      rw [submitQueryDir, runOn_submitFor, hreplies]
      have htail : (afterSubmit s (.queryDirectory deviceId fileId first)).replies = replies.tail :=
        congrArg tail hreplies
      cases replies with
      | nil => exact hsent
      | cons reply rest =>
        cases reply with
        | queryDir result =>
          cases result with
          | ok found => cases found <;> exact ⟨⟨htail, hsent⟩, rfl⟩
          | error status => exact hsent
        | _ => exact hsent
    rw [enumerateLoop]
    refine meets_bind hquery fun found => meets_of_fact fun hlisting => ?_
    rw [hlisting]
    cases found with
    | none => exact meets_pure fun s hs => ⟨rfl, hs.2⟩
    | some entry =>
      have hshort : replies.tail.length < turns := by
        cases replies with
        | nil => cases hlisting
        | cons reply rest => exact lt_of_succ_lt_succ hturns
      refine meets_bind (meets_modify fun s hs => hs) fun _ =>
        meets_bind (meets_mono (ih none (count + 1) hshort)
        (fun _ s hs => hs) fun s hs => ?_) fun rest => meets_pure fun s hs => ?_
      · rw [hs, Option.elim_some, length_cons]
        omega
      · rw [hs.1, hs.2, Option.elim_some, filter_cons, length_cons]
        refine ⟨?_, by omega⟩
        simp only [isListed, decide_eq_true_eq]

theorem meets_enumerateDirectory (deviceId : Nat) (parent : WinPath) (fileId : Nat)
    (replies : List ClientReply) (count : Nat) :
    Meets (fun s => s.replies = replies ∧ s.sent.length = count)
      (enumerateDirectory deviceId parent fileId)
      (fun entries s =>
         entries = (listing replies).filter isListed ∧
         s.sent.length = count + ((listing replies).length + 1)) fun s =>
      s.sent.length = count + ((listing replies).length + 1) := fun s hs =>
  meets_enumerateLoop deviceId parent fileId _ count (hs.1 ▸ lt_succ_self _) s hs

/-- An enumeration issues one request more than the client gives entries, and returns no other ones:
it keeps to a bound exactly if these do. -/
theorem enumeration_bounded_iff (deviceId : Nat) (parent : WinPath) (fileId bound : Nat)
    (s : FuseState) :
    let run := runOn (enumerateDirectory deviceId parent fileId) s
    (run.2.sent.length ≤ s.sent.length + (bound + 1) ∧
     ∀ entries, run.1 = .ok entries → entries.length ≤ bound) ↔
      (listing s.replies).length ≤ bound := by
  have hmeets := meets_enumerateDirectory deviceId parent fileId s.replies s.sent.length
  have hsent := (meets_mono hmeets (fun _ _ h => h.2) fun _ h => h).afterwards (s := s) ⟨rfl, rfl⟩
  dsimp only
  rw [hsent]
  refine ⟨fun h => by omega, fun hbound => ⟨by omega, fun entries hok => ?_⟩⟩
  have hrun := hmeets s ⟨rfl, rfl⟩
  rw [hok] at hrun
  rw [hrun.1]
  exact le_trans (length_filter_le _ _) hbound

/-- A bridge without tables, behind a client with these answers. -/
def answeredBy (replies : List ClientReply) : FuseState :=
  ⟨.new 1000 1000, ⟨[], []⟩, .asListed, replies, []⟩

def endless (count : Nat) : List ClientReply :=
  List.replicate count (.queryDir (.ok (some ⟨0, 0, ['a']⟩))) ++ [.queryDir (.ok none)]

/-- No number of requests is enough for every client. -/
theorem enumeration_unbounded :
    ¬ ∃ bound, ∀ s : FuseState,
        (runOn (enumerateDirectory 1 rootPath 7) s).2.sent.length ≤ s.sent.length + bound := by
  rintro ⟨bound, hbound⟩
  have hlisting : (listing (endless bound)).length = bound := by
    clear hbound
    induction bound with
    | zero => rfl
    | succ bound ih => exact congrArg succ ih
  have hle := hbound (answeredBy (endless bound))
  have hrun := (meets_mono (meets_enumerateDirectory 1 rootPath 7 (endless bound) 0) (fun _ _ h => h.2)
    fun _ h => h).afterwards (s := answeredBy (endless bound)) ⟨rfl, rfl⟩
  rw [hrun, hlisting] at hle
  change 0 + (bound + 1) ≤ 0 + bound at hle
  omega

theorem runOn_with_handle (fh : Nat) (next : OpenHandle → Fuse α) (s : FuseState) :
    runOn (handleOf fh >>= next) s =
      match s.bridge.opens.lookup fh with
      | some handle => runOn (next handle) s
      | none => (.error .ebadf, s) := by
  rw [runOn_bind]
  have hhandle : runOn (handleOf fh) s = runOn (orElse (s.bridge.opens.lookup fh) .ebadf) s := rfl
  rw [hhandle]
  cases s.bridge.opens.lookup fh <;> rfl

open Channel

theorem outcome_decodedResult_iff {ioStatus : Nat} {decoded : Except DecodeError α} {a : α} :
    outcome (some (decodedResult ioStatus decoded)) = .ok a ↔
      ioStatus = statusSuccess ∧ decoded = .ok a := by
  unfold decodedResult
  split
  · next hsuccess => cases decoded <;> simp [outcome, hsuccess]
  · next hfailure => simp [outcome, hfailure]

theorem size_updateMeta_le {b : Bridge} {deviceId : Nat} {path : WinPath}
    {f : CachedMeta → CachedMeta} {bound : Nat}
    (hf : ∀ cached, (f cached).size ≤ max cached.size bound)
    {key : Nat × WinPath} {cached : CachedMeta}
    (h : (b.updateMeta deviceId path f).metas.lookup key = some cached) :
    ∃ before, b.metas.lookup key = some before ∧ cached.size ≤ max before.size bound := by
  unfold Bridge.updateMeta at h
  split at h
  · next before hbefore =>
    by_cases hkey : key = (deviceId, path)
    · rw [hkey, AList.lookup_insert] at h
      cases h
      exact ⟨before, hkey ▸ hbefore, hf before⟩
    · rw [AList.lookup_insert_ne hkey] at h
      exact ⟨cached, h, le_max_left _ _⟩
  · exact ⟨cached, h, le_max_left _ _⟩

theorem bridge_updateBridge (f : Bridge → Bridge) (a : α) (s : FuseState) :
    (runOn (updateBridge f >>= fun _ => pure a) s).2.bridge = f s.bridge := rfl

def readCompletion (ioStatus : Nat) (body : Bytes) : ClientReply :=
  .read (decodedResult ioStatus (decodeReadReply body))

def writeCompletion (ioStatus : Nat) (body : Bytes) : ClientReply :=
  .write (decodedResult ioStatus (decodeWriteReply body))

def answered (s : FuseState) (reply : ClientReply) : FuseState :=
  { s with replies := reply :: s.replies }

/-- No more data goes to the kernel than it asked for. -/
def ReadWithin (s : FuseState) (fh offset size : Nat) : Prop :=
  ∀ data, (runOn (Source.Rdpdr.read fh offset size) s).1 = .ok (.data data) → data.length ≤ size

/-- No more is reported as written than was given, and the cached sizes stay within the end of the
write. -/
def WriteWithin (s : FuseState) (ino fh offset : Nat) (data : Bytes) : Prop :=
  let run := runOn (Source.Rdpdr.write ino fh offset data) s
  (∀ count, run.1 = .ok (.written count) → count ≤ data.length) ∧
  ∀ key cached, run.2.bridge.metas.lookup key = some cached → ∃ before,
    s.bridge.metas.lookup key = some before ∧ cached.size ≤ max before.size (offset + data.length)

/-- The body begins with a length above the size, and holds that much. -/
def Oversized (size : Nat) (body : Bytes) : Prop :=
  ∃ data rest, body = u32Le data.length ++ (data ++ rest) ∧ size < data.length ∧ data.length < 2 ^ 32

/-- The body begins with a count above the limit. -/
def Overcounted (limit : Nat) (body : Bytes) : Prop :=
  ∃ count rest, body = u32Le count ++ rest ∧ limit < count ∧ count < 2 ^ 32

theorem eq_of_readU32Le {buf left : Bytes} {v : Nat} (h : readU32Le buf = .ok (v, left)) :
    v < 2 ^ 32 ∧ buf = u32Le v ++ left := by
  unfold readU32Le at h
  split at h
  · next a b c d rest =>
    cases h
    have := a.toNat_lt
    have := b.toNat_lt
    have := c.toNat_lt
    have := d.toNat_lt
    refine ⟨by omega, ?_⟩
    simp only [u32Le, cons_append, nil_append, cons.injEq, and_true, ← UInt8.toNat_inj,
      UInt8.toNat_ofNat']
    omega
  · cases h

theorem decodeWriteReply_iff (body : Bytes) (count : Nat) :
    decodeWriteReply body = .ok count ↔ count < 2 ^ 32 ∧ ∃ rest, body = u32Le count ++ rest := by
  constructor
  · intro h
    obtain ⟨left, hread⟩ := exists_of_decodeFrom_eq_ok h
    obtain ⟨hlt, heq⟩ := eq_of_readU32Le hread
    exact ⟨hlt, left, heq⟩
  · rintro ⟨hlt, rest, rfl⟩
    exact (reads_readU32Le hlt).decodeFrom rest

theorem decodeReadReply_iff (body data : Bytes) :
    decodeReadReply body = .ok data ↔
      data.length < 2 ^ 32 ∧ ∃ rest, body = u32Le data.length ++ (data ++ rest) := by
  constructor
  · intro h
    obtain ⟨left, hread⟩ := exists_of_decodeFrom_eq_ok h
    obtain ⟨length, after, hlength, hslice⟩ := exists_of_bind_eq_ok hread
    obtain ⟨hlt, rfl⟩ := eq_of_readU32Le hlength
    unfold readSlice at hslice
    split at hslice
    · cases hslice
    · next hlong =>
      cases hslice
      have htaken : (take length after).length = length := length_take_of_le (not_lt.mp hlong)
      refine ⟨by rwa [htaken], drop length after, ?_⟩
      rw [htaken, take_append_drop]
  · rintro ⟨hlt, rest, rfl⟩
    rw [← append_assoc]
    exact ((reads_readU32Le hlt).bind (reads_readSlice data)).decodeFrom rest

/-- A call on a handle answers what its one request brings, if the handle is open. -/
theorem answer_iff {command : OpenHandle → Nat → Source.Rdpdr.DriveCommand}
    {completion : ClientReply → Option (Except Nat α)} {next : OpenHandle → α → Fuse FuseReply}
    {answer : α → FuseReply}
    (hanswer : Function.Injective answer)
    (hnext : ∀ handle a s, (runOn (next handle a) s).1 = .ok (answer a))
    (s : FuseState) (fh : Nat) (reply : ClientReply) (a : α) :
    (runOn (handleOf fh >>= fun handle => submitFor (command handle) completion >>= next handle)
       (answered s reply)).1 =
      .ok (answer a) ↔
      (s.bridge.opens.lookup fh).isSome ∧ outcome (completion reply) = .ok a := by
  rw [runOn_with_handle]
  simp only [answered]
  cases s.bridge.opens.lookup fh with
  | none => simp
  | some handle =>
    dsimp only
    rw [runOn_bind, runOn_submitFor]
    simp only [headD_cons]
    cases outcome (completion reply) with
    | error e => simp
    | ok result => simp [hnext, hanswer.eq_iff]

theorem read_iff (s : FuseState) (fh offset size ioStatus : Nat) (body data : Bytes) :
    (runOn (Source.Rdpdr.read fh offset size) (answered s (readCompletion ioStatus body))).1 =
      .ok (.data data) ↔
      (s.bridge.opens.lookup fh).isSome ∧
      ioStatus = statusSuccess ∧
      decodeReadReply body = .ok data := by
  rw [← outcome_decodedResult_iff]
  refine answer_iff ?_ ?_ s fh (readCompletion ioStatus body) data
  · exact fun _ _ h => FuseReply.data.inj h
  · exact fun _ _ _ => rfl

theorem write_iff (s : FuseState) (ino fh offset ioStatus : Nat) (body data : Bytes) (count : Nat) :
    (runOn (Source.Rdpdr.write ino fh offset data) (answered s (writeCompletion ioStatus body))).1 =
      .ok (.written count) ↔
      (s.bridge.opens.lookup fh).isSome ∧
      ioStatus = statusSuccess ∧
      decodeWriteReply body = .ok count := by
  rw [← outcome_decodedResult_iff]
  refine answer_iff ?_ ?_ s fh (writeCompletion ioStatus body) count
  · exact fun _ _ h => FuseReply.written.inj h
  · exact fun _ _ _ => rfl

/-- A cached size grows only if the write succeeds, to no more than the end of what the completion
counts. -/
theorem size_write_le {s : FuseState} {ino fh offset ioStatus : Nat} {body data : Bytes}
    (hcount : ∀ count,
        (runOn (Source.Rdpdr.write ino fh offset data)
           (answered s (writeCompletion ioStatus body))).1 =
          .ok (.written count) →
          count ≤ data.length) :
    WriteWithin (answered s (writeCompletion ioStatus body)) ino fh offset data := by
  refine ⟨hcount, ?_⟩
  rw [Source.Rdpdr.write, runOn_with_handle]
  have hkept : ∀ key cached, s.bridge.metas.lookup key = some cached → ∃ before,
      s.bridge.metas.lookup key = some before ∧ cached.size ≤ max before.size (offset + data.length) :=
    fun key cached h => ⟨cached, h, le_max_left _ _⟩
  cases hopen : (answered s (writeCompletion ioStatus body)).bridge.opens.lookup fh with
  | none => exact hkept
  | some handle =>
    dsimp only
    rw [runOn_bind, submitWrite, runOn_submitFor]
    simp only [answered, headD_cons, writeCompletion]
    cases hresult : outcome (some (decodedResult ioStatus (decodeWriteReply body))) with
    | error e => exact hkept
    | ok written =>
      have hsome : (s.bridge.opens.lookup fh).isSome := Option.isSome_of_eq_some hopen
      have hwritten := hcount written ((write_iff ..).mpr ⟨hsome, outcome_decodedResult_iff.mp hresult⟩)
      intro key cached h
      dsimp only at h
      rw [bridge_updateBridge] at h
      split at h
      · have hsize (cached : CachedMeta) : max cached.size (min (offset + written) (2 ^ 64 - 1)) ≤
            max cached.size (offset + data.length) := by omega
        obtain ⟨before, hbefore, hle⟩ := size_updateMeta_le hsize h
        exact ⟨before, hbefore, hle⟩
      · exact hkept key cached h

/-- Whatever completion the client sends, a read or write keeps to its request exactly if the
completion of an open file does not succeed with more. -/
theorem completions_bounded_iff (s : FuseState) (ino fh offset ioStatus : Nat) (body : Bytes) :
    (∀ size,
       ReadWithin (answered s (readCompletion ioStatus body)) fh offset size ↔
         ¬ ((s.bridge.opens.lookup fh).isSome ∧ ioStatus = statusSuccess ∧ Oversized size body)) ∧
    ∀ data,
      WriteWithin (answered s (writeCompletion ioStatus body)) ino fh offset data ↔
        ¬ ((s.bridge.opens.lookup fh).isSome ∧
           ioStatus = statusSuccess ∧
           Overcounted data.length body) := by
  refine ⟨fun size => ⟨fun hwithin => ?_, fun hmodest data hdata => ?_⟩,
    fun data => ⟨fun hwithin => ?_, fun hmodest => size_write_le fun count hcount => ?_⟩⟩
  · rintro ⟨hopen, hsuccess, data, rest, heq, hsize, hlt⟩
    have hdecoded := (decodeReadReply_iff body data).mpr ⟨hlt, rest, heq⟩
    exact not_lt.mpr (hwithin data ((read_iff ..).mpr ⟨hopen, hsuccess, hdecoded⟩)) hsize
  · obtain ⟨hopen, hsuccess, hdecoded⟩ := (read_iff ..).mp hdata
    obtain ⟨hlt, rest, heq⟩ := (decodeReadReply_iff body data).mp hdecoded
    exact not_lt.mp fun hsize => hmodest ⟨hopen, hsuccess, data, rest, heq, hsize, hlt⟩
  · rintro ⟨hopen, hsuccess, count, rest, heq, hsize, hlt⟩
    have hdecoded := (decodeWriteReply_iff body count).mpr ⟨hlt, rest, heq⟩
    exact not_lt.mpr (hwithin.1 count ((write_iff ..).mpr ⟨hopen, hsuccess, hdecoded⟩)) hsize
  · obtain ⟨hopen, hsuccess, hdecoded⟩ := (write_iff ..).mp hcount
    obtain ⟨hlt, rest, heq⟩ := (decodeWriteReply_iff body count).mp hdecoded
    exact not_lt.mp fun hsize => hmodest ⟨hopen, hsuccess, count, rest, heq, hsize, hlt⟩

/-- Handle 0 is a file that the client has open. -/
def openFile : FuseState :=
  { answeredBy [] with bridge := { Bridge.new 1000 1000 with opens := AList.singleton 0 ⟨1, 7⟩ } }

/-- Five bytes for a read of four, and 200 bytes written of one. -/
theorem completions_beyond_request :
    (runOn (Source.Rdpdr.read 0 0 4)
       (answered openFile (readCompletion 0 [5, 0, 0, 0, 1, 2, 3, 4, 5]))).1 =
      .ok (.data [1, 2, 3, 4, 5]) ∧
    (runOn (Source.Rdpdr.write 1 0 0 [1])
       (answered openFile (writeCompletion 0 [200, 0, 0, 0]))).1 =
      .ok (.written 200) :=
  ⟨rfl, rfl⟩

end Kmsrdp.Guarantees.DriveCompletions
