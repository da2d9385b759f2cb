import Kmsrdp.Source.Rdpdr.FuseFs

/-!
# The shared mount of a drive

Model of `kmsrdp/src/rdpdr_fuse/mount.rs` for one drive name. When the owner of the mount leaves,
another member's bridge becomes the active one; which member depends on a hash map, so a leave names
it.

Every operation of `fs.rs` takes the active backend first and works on that one to its end, on one
of the four dispatch threads (lines 253-262). Beginning and finishing a request are therefore two
actions, and the backend may be another when the request finishes.
-/
namespace Kmsrdp.Source.Rdpdr
open Library.Effects

structure ActiveBackend where
  conn : Nat
  deviceId : Nat
  deriving DecidableEq

def ActiveBackend.site (active : ActiveBackend) : Site := ⟨active.conn, active.deviceId, true⟩

structure Request where
  operation : Operation
  visits : VisitOrder
  replies : List ClientReply

/-- A request on a dispatch thread, with the backend it took. -/
structure Begun where
  backend : ActiveBackend
  request : Request

structure SharedMount where
  ownerConn : Nat
  active : ActiveBackend
  members : Table Nat Nat
  kernel : Kernel
  begun : List Begun

structure World where
  bridges : Nat → Bridge
  mount : Option SharedMount

inductive Action where
  | begin (request : Request)
  | finish (thread : Nat)
  | join (conn deviceId : Nat)
  | leave (conn newOwner : Nat)
  | elsewhere (conn deviceId : Nat) (request : Request)
  | rootElsewhere (conn deviceId : Nat)
  | clearElsewhere (conn : Nat)

def nThreads : Nat := 4

def Kernel.empty : Kernel := ⟨[], []⟩

def World.start (users : Nat → Nat × Nat) : World :=
  ⟨fun conn => Bridge.new (users conn).1 (users conn).2, none⟩

def World.setBridge (w : World) (conn : Nat) (b : Bridge) : World :=
  { w with bridges := Function.update w.bridges conn b }

def Request.run (request : Request) (site : Site) (b : Bridge) (kernel : Kernel) :
    Except Errno FuseReply × FuseState :=
  runOn (request.operation.perform site) ⟨b, kernel, request.visits, request.replies, []⟩

def Bridge.clearOpens (b : Bridge) : Bridge := { b with opens := ∅ }

def World.join (w : World) (conn deviceId : Nat) : World :=
  let w := w.setBridge conn ((w.bridges conn).ensureRootIno deviceId)
  { w with
    mount :=
      match w.mount with
      | some m => some { m with members := m.members.insert conn deviceId }
      | none => some ⟨conn, ⟨conn, deviceId⟩, AList.singleton conn deviceId, .empty, []⟩ }

def World.handOver (w : World) (m : SharedMount) (members : Table Nat Nat)
    (newOwner deviceId : Nat) :
    World :=
  let w := w.setBridge newOwner ((w.bridges newOwner).ensureRootIno deviceId)
  let w := w.setBridge m.active.conn (w.bridges m.active.conn).clearOpens
  { w with
    mount := some { m with ownerConn := newOwner, active := ⟨newOwner, deviceId⟩, members := members } }

/-- With the last member the kernel's side is gone; what a dispatch thread still does to its bridge
is an `elsewhere`. -/
def World.leave (w : World) (conn newOwner : Nat) : Option World :=
  match w.mount with
  | none => some w
  | some m =>
    let members := m.members.erase conn
    if members.keys = [] then some { w with mount := none }
    else if m.ownerConn = conn then
      (members.lookup newOwner).map fun deviceId => w.handOver m members newOwner deviceId
    else some { w with mount := some { m with members := members } }

def step (w : World) : Action → Option World
  | .begin request =>
    w.mount.bind fun m =>
      if m.begun.length < nThreads then
        some { w with mount := some { m with begun := ⟨m.active, request⟩ :: m.begun } }
      else none
  | .finish thread =>
    w.mount.bind fun m => m.begun[thread]?.map fun b =>
      let s := (b.request.run b.backend.site (w.bridges b.backend.conn) m.kernel).2
      { w.setBridge b.backend.conn s.bridge with
        mount := some { m with kernel := s.kernel, begun := m.begun.eraseIdx thread } }
  | .join conn deviceId => some (w.join conn deviceId)
  | .leave conn newOwner => w.leave conn newOwner
  | .elsewhere conn deviceId request =>
    let kernel := w.mount.elim .empty (·.kernel)
    let s := (request.run ⟨conn, deviceId, false⟩ (w.bridges conn) kernel).2
    some
      { w.setBridge conn s.bridge with
        mount := w.mount.map fun m => { m with kernel := s.kernel } }
  | .rootElsewhere conn deviceId =>
    some (w.setBridge conn ((w.bridges conn).ensureRootIno deviceId))
  | .clearElsewhere conn => some (w.setBridge conn (w.bridges conn).clearOpens)

end Kmsrdp.Source.Rdpdr
