import Kmsrdp.Source.Cliprdr.Channel
import Kmsrdp.Source.Dvc.Mux
import Kmsrdp.Source.Rdpdr.Channel
import Kmsrdp.Source.Server.SlowPath

/-!
# One connection after the handshake

The session of `run_steady_state` (`session_loop.rs`) with the channels it serves: the acceptor,
which reads the client's frames during a resize, the clipboard, the dynamic channels and the drives.

The handlers' methods are a parameter; threads beside the loop change what they see at any time
(`outside`).
-/
namespace Kmsrdp.Source.Server.Channels
open Library.ByteString Source.Cliprdr Source.Dvc Source.Rdpdr.Channel Source.Connector
  Source.Server.SlowPath
variable {η ω β κ : Type}

structure Methods (η ω β κ : Type) where
  handlers : DvcHandlers η ω
  clipboard : CliprdrBackend β
  /-- `String::from_utf8_lossy` -/
  fromUtf8Lossy : Bytes → String
  drive : DriveConsumer κ

structure Connection (η ω β κ : Type) where
  side : SlowPathSide
  cliprdr : Option CliprdrChannel
  clipboard : β
  dvc : Option (DvcMux η)
  handlers : ω
  rdpdr : Option (World κ)

/-- What the server brings to a connection: for each channel that was joined the ids, the handlers
of dynamic channels, and the supported device types. -/
structure Setup (η ω β κ : Type) where
  cliprdr : Option (UInt16 × UInt16)
  clipboard : β
  drdynvc : Option (UInt16 × UInt16)
  registered : List η
  handlers : ω
  rdpdr : Option Nat
  drive : κ

inductive Action (ω β κ : Type) where
  /-- The order in which a DeviceListRemove visits the table comes with the frame. -/
  | slowPath (frame : Bytes) (order : List Nat)
  | fastPath (frame : Bytes)
  | resized (width height : Nat)
  | driveTurn
  | flushPendingCommands
  | outside (handlers : ω) (clipboard : β) (drive : κ)

namespace Connection

def start (methods : Methods η ω β κ) (setup : Setup η ω β κ) (acceptor : Acceptor) :
    Connection η ω β κ where
  side := SlowPath.start acceptor
  cliprdr := setup.cliprdr.map fun ids =>
    (CliprdrChannel.new methods.clipboard setup.clipboard ids.1 ids.2).1.1
  clipboard := if setup.cliprdr.isSome then methods.clipboard.onReady setup.clipboard
    else setup.clipboard
  dvc := setup.drdynvc.map fun ids =>
    setup.registered.foldl (fun mux handler => (mux.registerChannel methods.handlers handler).2)
      (.new ids.1 ids.2)
  handlers := setup.handlers
  rdpdr := setup.rdpdr.map fun supported => World.start supported setup.drive

def Ready (c : Connection η ω β κ) : Prop := ∀ w ∈ c.rdpdr, w.Ready

instance decidableReady (c : Connection η ω β κ) : Decidable c.Ready :=
  match h : c.rdpdr with
  | none => isTrue fun w hw => by rw [h] at hw; cases hw
  | some w => decidable_of_iff w.Ready
      ⟨fun hready v hv => by rw [h] at hv; cases hv; exact hready, fun hall => hall w h⟩

variable (methods : Methods η ω β κ)

def deliver (c : Connection η ω β κ) (order : List Nat) (delivery : Delivery) :
    Option (Connection η ω β κ) :=
  match delivery.handler with
  | .rdpsnd => some c
  | .cliprdr =>
    match c.cliprdr with
    | none => some c
    | some channel =>
      let called :=
        channel.onChannelData methods.fromUtf8Lossy methods.clipboard c.clipboard delivery.data
      some { c with cliprdr := some called.2.1, clipboard := called.2.2 }
  | .drdynvc =>
    match c.dvc with
    | none => some c
    | some mux =>
      let called := mux.onChannelData methods.handlers c.handlers delivery.data
      some { c with dvc := some called.2.1, handlers := called.2.2 }
  | .rdpdr =>
    match c.rdpdr with
    | none => some c
    | some w =>
      (w.step methods.drive (.deliver delivery.data order)).map fun w => { c with rdpdr := some w }

def sideStep (channels : StaticChannels) (c : Connection η ω β κ) (order : List Nat)
    (action : SlowPath.Action) :
    Option (Connection η ω β κ) :=
  match SlowPath.step channels c.side action with
  | none => none
  | some side =>
    match (side.delivered.drop c.side.delivered.length).head? with
    | none => some { c with side := side }
    | some delivery => deliver methods { c with side := side } order delivery

def driveStep (c : Connection η ω β κ) (action : Rdpdr.Channel.Action κ) :
    Option (Connection η ω β κ) :=
  match c.rdpdr with
  | none => none
  | some w => (w.step methods.drive action).map fun w => { c with rdpdr := some w }

def step (channels : StaticChannels) (c : Connection η ω β κ) :
    Action ω β κ → Option (Connection η ω β κ)
  | .slowPath frame order =>
    if c.Ready then sideStep methods channels c order (.slowPath frame) else none
  | .fastPath _ => if c.Ready then some c else none
  | .resized width height =>
    if c.Ready then sideStep methods channels c [] (.resized width height) else none
  | .driveTurn => driveStep methods c .turn
  | .flushPendingCommands => driveStep methods c .flushPendingCommands
  | .outside handlers clipboard drive =>
    some { c with
      handlers := handlers
      clipboard := clipboard
      rdpdr := c.rdpdr.map fun w => { w with consumer := drive } }

end Connection
end Kmsrdp.Source.Server.Channels
