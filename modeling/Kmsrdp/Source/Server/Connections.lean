import Kmsrdp.Source.Server.AuthLimit
import Kmsrdp.Source.Server.Handshake

/-!
# Connections in front of the limiter

The accept loop of `RdpServer::run` and `Session::handle_connection`
(`rdpcore-server/src/server/mod.rs`), with the points of `negotiate` at which credentials are
checked and the limiter is told.

A check and the record of its outcome are two steps, which the timeout cannot part.

`checks` records the outcomes for an address since its last success or lockout, `recorded` how many
failures the limiter was told, and `lockEnd` the end of the lockout that is running.
-/
namespace Kmsrdp.Source.Server.Connections
open Source.Server.AuthLimit Option

def maxConcurrentHandshakes : Nat := 16
def handshakeTimeout : Nat := 30 * second

inductive Stage where
  /-- Spawned with a permit; `handle_connection` has not asked the limiter yet. -/
  | spawned
  /-- In `negotiate`, after a CredSSP exchange or without one. -/
  | negotiating (deadline : Nat) (nla : Bool)
  /-- A check has failed, which is not recorded yet. -/
  | failed
  /-- Client Info was found valid, which is not recorded yet. -/
  | approved (deadline : Nat)
  | authenticated (deadline : Nat)
  /-- The handshake is over and the permit returned. -/
  | done

structure Task where
  ip : IpAddr
  stage : Stage

structure World where
  map : FailureMap
  clock : Nat
  waiting : Option IpAddr
  permits : Nat
  nextConn : Nat
  tasks : Nat → Option Task
  checks : IpAddr → List Bool
  recorded : IpAddr → Nat
  lockEnd : IpAddr → Option Nat

def World.start : World where
  map := ∅
  clock := 0
  waiting := none
  permits := maxConcurrentHandshakes
  nextConn := 0
  tasks := fun _ => none
  checks := fun _ => []
  recorded := fun _ => 0
  lockEnd := fun _ => none

inductive Action where
  | tick (now : Nat)
  /-- The loop accepts a connection and asks the limiter. -/
  | accept (ip : IpAddr)
  /-- The loop gets a permit and spawns the task. -/
  | permit
  /-- The task asks the limiter again and begins to negotiate. -/
  | begin (conn : Nat)
  | credssp (conn : Nat) (ok : Bool)
  | clientInfo (conn : Nat) (ok : Bool)
  /-- `record_failure` or `record_success` after a check. -/
  | record (conn : Nat) (victim : IpAddr)
  /-- The handshake ends otherwise: an error, a rejection, or its last PDU. -/
  | finish (conn : Nat)
  /-- `HANDSHAKE_TIMEOUT` has elapsed. -/
  | timeout (conn : Nat) (victim : IpAddr)

namespace World

def advance (w : World) (now : Nat) : World :=
  let ended := fun ip => (w.lockEnd ip).any fun lockEnd => lockEnd ≤ now
  { w with
    clock := now
    checks := fun ip => if ended ip then [] else w.checks ip
    recorded := fun ip => if ended ip then 0 else w.recorded ip
    lockEnd := fun ip => if ended ip then none else w.lockEnd ip }

def setStage (w : World) (conn : Nat) (t : Task) (stage : Stage) : World :=
  { w with tasks := Function.update w.tasks conn (some { t with stage := stage }) }

def endTask (w : World) (conn : Nat) (t : Task) : World :=
  { w.setStage conn t .done with permits := w.permits + 1 }

def check (w : World) (conn : Nat) (t : Task) (ok : Bool) (next : Stage) : World :=
  { w.setStage conn t (if ok then next else .failed) with
    checks := Function.update w.checks t.ip (ok :: w.checks t.ip) }

def afterFailure (w : World) (ip : IpAddr) (map : FailureMap) : World :=
  { w with
    map := map
    lockEnd := Function.update w.lockEnd ip ((map.lookup ip).bind fun state => state.lockedUntil) }

def countFailure (w : World) (ip : IpAddr) : World :=
  { w with recorded := Function.update w.recorded ip (w.recorded ip + 1) }

def afterSuccess (w : World) (ip : IpAddr) : World :=
  { w with
    map := recordSuccess w.map ip
    checks := Function.update w.checks ip []
    recorded := Function.update w.recorded ip 0
    lockEnd := Function.update w.lockEnd ip none }

end World

def step (w : World) : Action → Option World
  | .tick now => if w.clock ≤ now then some (w.advance now) else none
  | .accept ip =>
    if w.waiting = none then
      let (blocked, map) := isBlocked w.map ip w.clock
      some { w with map := map, waiting := if blocked then none else some ip }
    else none
  | .permit =>
    w.waiting.bind fun ip =>
      if 0 < w.permits then
        some
          { w with
            waiting := none
            permits := w.permits - 1
            nextConn := w.nextConn + 1
            tasks := Function.update w.tasks w.nextConn (some ⟨ip, .spawned⟩) }
      else none
  | .begin conn =>
    (w.tasks conn).bind fun t =>
      match t.stage with
      | .spawned =>
        let (blocked, map) := isBlocked w.map t.ip w.clock
        let w := { w with map := map }
        some (if blocked then w.endTask conn t
          else w.setStage conn t (.negotiating (w.clock + handshakeTimeout) false))
      | _ => none
  | .credssp conn ok =>
    (w.tasks conn).bind fun t =>
      match t.stage with
      | .negotiating deadline false => some (w.check conn t ok (.negotiating deadline true))
      | _ => none
  | .clientInfo conn ok =>
    (w.tasks conn).bind fun t =>
      match t.stage with
      | .negotiating deadline _ => some (w.check conn t ok (.approved deadline))
      | _ => none
  | .record conn victim =>
    (w.tasks conn).bind fun t =>
      match t.stage with
      | .failed =>
        (recordFailure w.map t.ip w.clock victim).map fun map =>
          ((w.endTask conn t).afterFailure t.ip map).countFailure t.ip
      | .approved deadline => some ((w.setStage conn t (.authenticated deadline)).afterSuccess t.ip)
      | _ => none
  | .finish conn =>
    (w.tasks conn).bind fun t =>
      match t.stage with
      | .negotiating _ _ | .authenticated _ => some (w.endTask conn t)
      | _ => none
  | .timeout conn victim =>
    (w.tasks conn).bind fun t =>
      match t.stage with
      | .negotiating deadline _ =>
        if deadline ≤ w.clock then
          (recordFailure w.map t.ip w.clock victim).map fun map =>
            (w.endTask conn t).afterFailure t.ip map
        else none
      | .authenticated deadline => if deadline ≤ w.clock then some (w.endTask conn t) else none
      | _ => none

inductive Change (w : World) : Action → World → Prop
  | ticked (now : Nat) (later : w.clock ≤ now) : Change w (.tick now) (w.advance now)
  | accepted (ip : IpAddr) (waiting : Option IpAddr) :
      Change w (.accept ip) { w with map := gc w.map w.clock, waiting := waiting }
  | spawned (ip : IpAddr) :
      Change w .permit
        { w with
          waiting := none
          permits := w.permits - 1
          nextConn := w.nextConn + 1
          tasks := Function.update w.tasks w.nextConn (some ⟨ip, .spawned⟩) }
  | refused (conn : Nat) (t : Task) (task : w.tasks conn = some t) (stage : t.stage = .spawned) :
      Change w (.begin conn) ({ w with map := gc w.map w.clock }.endTask conn t)
  | begun (conn : Nat) (t : Task) (task : w.tasks conn = some t) (stage : t.stage = .spawned)
      (unblocked : ¬ Blocked w.map t.ip w.clock) (deadline : Nat) :
      Change w (.begin conn)
        ({ w with map := gc w.map w.clock }.setStage conn t (.negotiating deadline false))
  | exchanged (conn : Nat) (t : Task) (deadline : Nat) (ok : Bool) (task : w.tasks conn = some t)
      (stage : t.stage = .negotiating deadline false) :
      Change w (.credssp conn ok) (w.check conn t ok (.negotiating deadline true))
  | informed (conn : Nat) (t : Task) (deadline : Nat) (nla ok : Bool) (task : w.tasks conn = some t)
      (stage : t.stage = .negotiating deadline nla) :
      Change w (.clientInfo conn ok) (w.check conn t ok (.approved deadline))
  | recordedFailure (conn : Nat) (t : Task) (victim : IpAddr) (map : FailureMap)
      (task : w.tasks conn = some t)
      (stage : t.stage = .failed) (record : recordFailure w.map t.ip w.clock victim = some map) :
      Change w (.record conn victim) (((w.endTask conn t).afterFailure t.ip map).countFailure t.ip)
  | recordedSuccess (conn : Nat) (t : Task) (victim : IpAddr) (deadline : Nat)
      (task : w.tasks conn = some t)
      (stage : t.stage = .approved deadline) :
      Change w (.record conn victim) ((w.setStage conn t (.authenticated deadline)).afterSuccess t.ip)
  | finished (conn : Nat) (t : Task) (task : w.tasks conn = some t) (stage : t.stage ≠ .failed) :
      Change w (.finish conn) (w.endTask conn t)
  | timedOut (conn : Nat) (t : Task) (victim : IpAddr) (deadline : Nat) (nla : Bool) (map : FailureMap)
      (task : w.tasks conn = some t) (stage : t.stage = .negotiating deadline nla)
      (record : recordFailure w.map t.ip w.clock victim = some map) :
      Change w (.timeout conn victim) ((w.endTask conn t).afterFailure t.ip map)
  | timedOutLate (conn : Nat) (t : Task) (victim : IpAddr) (deadline : Nat)
      (task : w.tasks conn = some t)
      (stage : t.stage = .authenticated deadline) : Change w (.timeout conn victim) (w.endTask conn t)

theorem change_begin {w : World} {conn : Nat} {t : Task}
    (htask : w.tasks conn = some t)
    (hstage : t.stage = .spawned)
    {after : World}
    (h : step w (.begin conn) = some after) : Change w (.begin conn) after := by
  rw [step, htask, bind_some, hstage] at h
  dsimp only at h
  rw [snd_isBlocked] at h
  cases hblocked : (isBlocked w.map t.ip w.clock).1 with
  | true =>
    rw [hblocked] at h
    cases h
    exact .refused conn t htask hstage
  | false =>
    rw [hblocked] at h
    cases h
    refine .begun conn t htask hstage (fun hlocked => ?_) _
    rw [isBlocked_iff.mpr hlocked] at hblocked
    cases hblocked

/-- Every step makes one of the listed changes. -/
theorem change_of_step {w after : World} {action : Action} (h : step w action = some after) :
    Change w action after := by
  cases action with
  | tick now =>
    obtain ⟨hle, ⟨⟩⟩ := ite_none_right_eq_some.mp h
    exact .ticked now hle
  | accept ip =>
    simp only [step] at h
    split at h
    · cases h
      rw [snd_isBlocked]
      exact .accepted ip _
    · cases h
  | permit =>
    obtain ⟨ip, -, h⟩ := bind_eq_some_iff.mp h
    split at h
    · cases h
      exact .spawned ip
    · cases h
  | begin conn =>
    obtain ⟨t, htask, hrest⟩ := bind_eq_some_iff.mp h
    cases hstage : t.stage with
    | spawned => exact change_begin htask hstage h
    | _ =>
      rw [hstage] at hrest
      cases hrest
  | credssp conn ok =>
    obtain ⟨t, htask, h⟩ := bind_eq_some_iff.mp h
    split at h
    · next deadline hstage =>
      cases h
      exact .exchanged conn t deadline ok htask hstage
    · cases h
  | clientInfo conn ok =>
    obtain ⟨t, htask, h⟩ := bind_eq_some_iff.mp h
    split at h
    · next deadline nla hstage =>
      cases h
      exact .informed conn t deadline nla ok htask hstage
    · cases h
  | record conn victim =>
    obtain ⟨t, htask, h⟩ := bind_eq_some_iff.mp h
    split at h
    · next hstage =>
      obtain ⟨map, hrecord, rfl⟩ := map_eq_some_iff.mp h
      exact .recordedFailure conn t victim map htask hstage hrecord
    · next deadline hstage =>
      cases h
      exact .recordedSuccess conn t victim deadline htask hstage
    · cases h
  | finish conn =>
    obtain ⟨t, htask, h⟩ := bind_eq_some_iff.mp h
    split at h
    · next hstage =>
      cases h
      exact .finished conn t htask (by rw [hstage]; exact Stage.noConfusion)
    · next hstage =>
      cases h
      exact .finished conn t htask (by rw [hstage]; exact Stage.noConfusion)
    · cases h
  | timeout conn victim =>
    obtain ⟨t, htask, h⟩ := bind_eq_some_iff.mp h
    split at h
    · next deadline nla hstage =>
      split at h
      · obtain ⟨map, hrecord, rfl⟩ := map_eq_some_iff.mp h
        exact .timedOut conn t victim deadline nla map htask hstage hrecord
      · cases h
    · next deadline hstage =>
      split at h
      · cases h
        exact .timedOutLate conn t victim deadline htask hstage
      · cases h
    · cases h

end Kmsrdp.Source.Server.Connections
