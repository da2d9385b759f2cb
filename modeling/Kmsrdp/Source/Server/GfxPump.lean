import Kmsrdp.Source.Server.DynamicChannels

/-!
# Display updates on the GFX channel

Model of `try_encode_gfx_frame` in `server/frame_pump.rs` and of what `run_steady_state` does with
it: `DynamicChannels` with the GFX session that the GFX handler shares with the loop, and
`last_gfx_data`.
-/
namespace Kmsrdp.Source.Server.GfxPump
open Library.ByteString Source.Dvc Source.Rdpegfx Source.Server.DynamicChannels Session Option
variable {ω : Type}

def withGfx (others : Behaviour ω) : Behaviour (Inner × ω) where
  onOpen := fun handler world =>
    match handler with
    | .gfx => ([], world)
    | handler =>
      let answered := others.onOpen handler world.2
      (answered.1, world.1, answered.2)
  onData := fun handler world data =>
    match handler with
    | .gfx =>
      let answered := world.1.onData data
      (answered.1, answered.2, world.2)
    | handler =>
      let answered := others.onData handler world.2 data
      (answered.1, world.1, answered.2)

structure Framebuffer where
  data : Nat
  (width height : UInt16)

structure Pump (ω : Type) where
  session : Session (Inner × ω)
  gfxEnabled : Bool
  lastGfxData : Option Nat

namespace Pump

def inner (p : Pump ω) : Inner := p.session.world.1

def tryEncodeGfxFrame (p : Pump ω) (source : Framebuffer) (first retry : Option EncodedAu) :
    GfxEncodeOutcome × Option Nat × Inner :=
  if ¬ p.gfxEnabled then (.fallback, p.lastGfxData, p.inner)
  else if ¬ p.inner.isReady then (.fallback, p.lastGfxData, p.inner)
  else if p.lastGfxData = some source.data then (.softSkip, p.lastGfxData, p.inner)
  else
    let result := p.inner.encodeFrame source.width.toNat source.height.toNat first retry
    match result.1 with
    | .frames payloads => (.send payloads, some source.data, result.2)
    | .skip => (.softSkip, p.lastGfxData, result.2)
    | .fallback teardown => (.disable teardown, p.lastGfxData, result.2)

end Pump

inductive Event (ω : Type) where
  | clientData (payload : Bytes)
  | bitmap (source : Framebuffer) (first retry : Option EncodedAu) (bitmapFrames : List Bytes)
  | resized (width height : UInt16)
  | transport (action : Action (Inner × ω))

def OfTransport : Action ω → Prop
  | .clientData _ | .pump _ _ _ | .resize _ _ => False
  | _ => True

instance : (action : Action ω) → Decidable (OfTransport action)
  | .clientData _ | .pump _ _ _ | .resize _ _ => isFalse not_false
  | .pushReply | .dropReply | .pushBulk | .failBulk | .joinBulk | .pushResize | .abandonResize
  | .otherSend _
  | .otherLive _ | .writer _ | .finish => isTrue trivial

namespace Pump
variable (others : Behaviour ω)

def step (p : Pump ω) : Event ω → Option (Pump ω)
  | .clientData payload =>
    (p.session.step (withGfx others) (.clientData payload)).map fun session => { p with session }
  | .bitmap source first retry bitmapFrames =>
    let tried := p.tryEncodeGfxFrame source first retry
    (p.session.step (withGfx others) (.pump tried.1 (tried.2.2, p.session.world.2) bitmapFrames)).map
      fun session => { p with session, lastGfxData := tried.2.1 }
  | .resized width height =>
    let resized := if p.gfxEnabled then p.inner.resize width.toNat height.toNat else (none, p.inner)
    (p.session.step (withGfx others) (.resize resized.1 (resized.2, p.session.world.2))).map
      fun session =>
      { p with session, lastGfxData := if resized.1.isSome then none else p.lastGfxData }
  | .transport action =>
    if OfTransport action then
      (p.session.step (withGfx others) action).map fun session => { p with session }
    else none

def start (channelId userChannelId : UInt16) (echo audioInput gfx : Bool) (width height : UInt16)
    (world : ω) :
    Pump ω where
  session := .start (withGfx others) channelId userChannelId echo audioInput gfx
    (Inner.new width.toNat height.toNat, world)
  gfxEnabled := gfx
  lastGfxData := none

end Pump
variable {behaviour : Behaviour ω} {s t : Session ω}

theorem step_ofTransport {action : Action ω}
    (h : OfTransport action)
    (hstep : s.step behaviour action = some t) : t.mux = s.mux ∧ t.world = s.world := by
  cases action with
  | clientData payload => exact h.elim
  | pump outcome world bitmapFrames => exact h.elim
  | resize payloads world => exact h.elim
  | pushReply | pushResize =>
    simp only [step] at hstep
    split at hstep
    · obtain ⟨connection, _, rfl⟩ := map_eq_some_iff.mp hstep
      exact ⟨rfl, rfl⟩
    · cases hstep
  | dropReply | abandonResize =>
    simp only [step] at hstep
    split at hstep
    · split at hstep <;> cases hstep
      exact ⟨rfl, rfl⟩
    · cases hstep
  | pushBulk =>
    simp only [step] at hstep
    split at hstep
    · cases hstep
    · obtain ⟨connection, _, rfl⟩ := map_eq_some_iff.mp hstep
      exact ⟨rfl, rfl⟩
    · cases hstep
  | failBulk =>
    simp only [step] at hstep
    split at hstep
    · cases hstep
    · split at hstep <;> cases hstep
      exact ⟨rfl, rfl⟩
    · cases hstep
  | joinBulk =>
    simp only [step] at hstep
    split at hstep <;> cases hstep <;> exact ⟨rfl, rfl⟩
  | otherSend frame | otherLive frames =>
    simp only [step] at hstep
    split at hstep <;> cases hstep
    exact ⟨rfl, rfl⟩
  | writer move =>
    obtain ⟨connection, _, rfl⟩ := map_eq_some_iff.mp hstep
    exact ⟨rfl, rfl⟩
  | finish =>
    simp only [step] at hstep
    split at hstep <;> cases hstep
    exact ⟨rfl, rfl⟩

theorem step_pump {outcome : GfxEncodeOutcome} {world : ω} {bitmapFrames : List Bytes}
    (hstep : s.step behaviour (.pump outcome world bitmapFrames) = some t) :
    t.mux = s.mux ∧ t.world = world := by
  simp only [step] at hstep
  split at hstep
  · cases hstep
    unfold pump
    split <;> exact ⟨rfl, rfl⟩
  · cases hstep

theorem step_resize {payloads : Option (List Bytes)} {world : ω}
    (hstep : s.step behaviour (.resize payloads world) = some t) :
    t.mux = s.mux ∧ t.world = world := by
  simp only [step] at hstep
  split at hstep
  · cases hstep
    unfold resize
    split
    · exact ⟨rfl, rfl⟩
    · split <;> exact ⟨rfl, rfl⟩
  · cases hstep

variable (others : Behaviour ω)

theorem withGfx_inner {handler : Handler} {world world' : Inner × ω}
    (h : handler ≠ .gfx)
    (hworld : world' = ((withGfx others).handlers.onOpen handler world).2 ∨
      ∃ data, world' = ((withGfx others).handlers.onData handler world data).2) :
    world'.1 = world.1 := by
  cases handler with
  | gfx => exact absurd rfl h
  | echo | audioInput =>
    rcases hworld with rfl | ⟨data, rfl⟩
    · rfl
    · rfl

def HasGfx (mux : DvcMux Handler) : Prop := ∃ channelId, (channelId, Handler.gfx) ∈ mux.slots

theorem channelName_eq_gfx {handler : Handler} :
    handler.channelName = gfxChannelName ↔ handler = .gfx := by
  cases handler <;> decide

theorem channelIdForName_gfx (mux : DvcMux Handler) {channelId : Nat}
    (h : mux.channelIdForName (withGfx others).handlers gfxChannelName = some channelId) :
    (channelId, Handler.gfx) ∈ mux.slots := by
  obtain ⟨slot, hfind, rfl⟩ := map_eq_some_iff.mp h
  have hfound := List.find?_some hfind
  have hname : slot.handler.channelName = gfxChannelName := of_decide_eq_true hfound
  exact List.mem_map.mpr ⟨slot, List.mem_of_find?_eq_some hfind, by rw [channelName_eq_gfx.mp hname]⟩

theorem hasGfx_iff (mux : DvcMux Handler) :
    HasGfx mux ↔ (mux.channelIdForName (withGfx others).handlers gfxChannelName).isSome := by
  constructor
  · rintro ⟨channelId, hmem⟩
    obtain ⟨slot, hslot, heq⟩ := List.mem_map.mp hmem
    have hgfx : slot.handler = .gfx := congrArg Prod.snd heq
    rw [DvcMux.channelIdForName, isSome_map, List.find?_isSome]
    exact ⟨slot, hslot, decide_eq_true (channelName_eq_gfx.mpr hgfx)⟩
  · intro hsome
    obtain ⟨channelId, h⟩ := isSome_iff_exists.mp hsome
    exact ⟨channelId, channelIdForName_gfx others mux h⟩

end Kmsrdp.Source.Server.GfxPump
