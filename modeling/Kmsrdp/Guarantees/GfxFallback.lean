import Kmsrdp.Library.Execution
import Kmsrdp.Source.Server.GfxPump

/-!
# Readiness of the GFX session and its channel

A display update should never end the session because of the GFX channel. But the mux drops a
channel that the client closes without a word to its handler: the session stays ready,
`build_gfx_frames` finds no channel, and its error ends the session. So it holds exactly when the
client never closes the GFX channel, by Close or by a Create Response with an error, while the GFX
session is ready.
-/
namespace Kmsrdp.Guarantees.GfxFallback
open Library.ByteString Library.Execution Source.Dvc Source.Rdpegfx Source.Server.DynamicChannels
  List Session Option DvcMux
  Source.Server.GfxPump
variable {ω : Type}

/-- The channel is there when the GFX session is ready, and no display update ends the session. -/
def Safe (others : Behaviour ω) (p : Pump ω) : Prop :=
  (p.inner.isReady = true →
    (p.session.mux.channelIdForName (withGfx others).handlers gfxChannelName).isSome) ∧
  ∀ source first retry,
    (p.session.applyGfxEncodeOutcome (withGfx others) (p.tryEncodeGfxFrame source first retry).1).isSome

/-- The client does not close the GFX channel while the GFX session is ready. -/
def KeepsChannel (p : Pump ω) : Event ω → Prop
  | .clientData payload => p.session.loop = .selecting → p.inner.isReady = true →
    ∀ channelId ∈ (p.session.mux.incomingMessage payload).bind DvcMux.closes,
      (channelId, Handler.gfx) ∉ p.session.mux.slots
  | _ => True

structure Inv (p : Pump ω) : Prop where
  ready : p.inner.isReady = true → HasGfx p.session.mux
  unique : (p.session.mux.slots.map Prod.snd ++ p.session.mux.pending).Nodup

variable {p : Pump ω}

theorem Inv.safe (h : Inv p) (others : Behaviour ω) : Safe others p := by
  have hchannel := fun hready => (hasGfx_iff others p.session.mux).mp (h.ready hready)
  refine ⟨hchannel, fun source first retry => ?_⟩
  unfold Pump.tryEncodeGfxFrame
  split
  · rfl
  · split
    · rfl
    · next hready =>
      have hready : p.inner.isReady = true := by simpa using hready
      split
      · rfl
      · dsimp only
        split
        · simp only [applyGfxEncodeOutcome, buildGfxFrames, isSome_map]
          exact hchannel hready
        · rfl
        · simp only [applyGfxEncodeOutcome]
          split
          · rfl
          · split <;> rfl

theorem isReady_resize (inner : Inner) (width height : Nat) :
    (inner.resize width height).2.isReady = inner.isReady := by
  by_cases hresizes : inner.Resizes width height
  · rw [Inner.resize_of_resizes hresizes]
    split <;> rfl
  · rw [Inner.resize_of_not_resizes hresizes]

theorem isReady_of_tryEncodeGfxFrame {source : Framebuffer} {first retry : Option EncodedAu}
    (h : (p.tryEncodeGfxFrame source first retry).2.2.isReady = true) : p.inner.isReady = true := by
  by_contra hready
  unfold Pump.tryEncodeGfxFrame at h
  split at h
  · exact hready h
  · exact hready h

variable {others : Behaviour ω}

theorem Inv.effect (h : Inv p) {closed : Option Nat} {after : DvcMux Handler × Inner × ω}
    (heffect : DvcMux.Effect (withGfx others).handlers p.session.mux p.session.world closed after)
    (hkeeps : p.inner.isReady = true →
      ∀ channelId ∈ closed, (channelId, Handler.gfx) ∉ p.session.mux.slots) :
    (after.2.1.isReady = true → HasGfx after.1) ∧
      (after.1.slots.map Prod.snd ++ after.1.pending).Nodup := by
  have hunique := h.unique
  cases heffect with
  | opened after added hslots hpending =>
    refine ⟨fun hready => ?_, ?_⟩
    · obtain ⟨channelId, hmem⟩ := h.ready hready
      exact ⟨channelId, hslots ▸ mem_append_left _ hmem⟩
    · rw [← hpending] at hunique
      rwa [hslots, map_append, append_assoc]
  | closed closedId after hslots hpending =>
    refine ⟨fun hready => ?_, ?_⟩
    · obtain ⟨channelId, hmem⟩ := h.ready hready
      refine ⟨channelId, hslots ▸ mem_filter.mpr ⟨hmem, decide_eq_true fun heq => ?_⟩⟩
      have heq : channelId = closedId := heq
      exact hkeeps hready closedId rfl (heq ▸ hmem)
    · rw [hslots, hpending]
      exact hunique.sublist ((filter_sublist.map _).append_right _)
  | called handler after world' hopen hslots hpending hworld =>
    refine ⟨fun hready => ?_, hslots ▸ hpending ▸ hunique⟩
    by_cases hgfx : handler = .gfx
    · subst hgfx
      obtain ⟨channelId, hmem⟩ := hopen
      exact ⟨channelId, hslots ▸ hmem⟩
    · rw [withGfx_inner others hgfx hworld] at hready
      obtain ⟨channelId, hmem⟩ := h.ready hready
      exact ⟨channelId, hslots ▸ hmem⟩

theorem onClientData_effect (others : Behaviour ω) (s : Session (Inner × ω)) (payload : Bytes) :
    ((s.onClientData (withGfx others) payload).mux,
      (s.onClientData (withGfx others) payload).world) =
      (s.mux.onChannelData (withGfx others).handlers s.world payload).2 := by
  unfold onClientData
  dsimp only
  split <;> rfl

theorem step_clientData (others : Behaviour ω) (p : Pump ω) (payload : Bytes) :
    p.step others (.clientData payload) =
      match p.session.loop with
      | .selecting => some { p with session := p.session.onClientData (withGfx others) payload }
      | _ => none := by
  simp only [Pump.step, step]
  cases p.session.loop <;> rfl

theorem Inv.of_mux {q : Pump ω}
    (h : Inv p)
    (hmux : q.session.mux = p.session.mux)
    (hready : q.inner.isReady = true → p.inner.isReady = true) : Inv q where
  ready hq := hmux ▸ h.ready (hready hq)
  unique := hmux ▸ h.unique

theorem inv_step {q : Pump ω} {event : Event ω}
    (h : Inv p)
    (hkeeps : KeepsChannel p event)
    (hstep : p.step others event = some q) : Inv q := by
  cases event with
  | clientData payload =>
    rw [step_clientData] at hstep
    split at hstep
    · next hloop =>
      cases hstep
      have heffect :=
        effect_onChannelData (withGfx others).handlers p.session.mux p.session.world payload
      rw [← onClientData_effect] at heffect
      obtain ⟨hready, hunique⟩ := h.effect heffect (hkeeps hloop)
      exact ⟨hready, hunique⟩
    · cases hstep
  | bitmap source first retry bitmapFrames =>
    obtain ⟨session, hsession, rfl⟩ := map_eq_some_iff.mp hstep
    obtain ⟨hmux, hworld⟩ := step_pump hsession
    refine h.of_mux hmux fun hready => ?_
    rw [Pump.inner, hworld] at hready
    exact isReady_of_tryEncodeGfxFrame hready
  | resized width height =>
    obtain ⟨session, hsession, rfl⟩ := map_eq_some_iff.mp hstep
    obtain ⟨hmux, hworld⟩ := step_resize hsession
    refine h.of_mux hmux fun hready => ?_
    rw [Pump.inner, hworld] at hready
    split at hready
    · rwa [isReady_resize] at hready
    · exact hready
  | transport action =>
    obtain ⟨htransport, hstep⟩ := ite_none_right_eq_some.mp hstep
    obtain ⟨session, hsession, rfl⟩ := map_eq_some_iff.mp hstep
    obtain ⟨hmux, hworld⟩ := step_ofTransport htransport hsession
    refine h.of_mux hmux fun hready => ?_
    rwa [Pump.inner, hworld] at hready

theorem not_safe_of_closed
    (h : Inv p)
    {payload : Bytes} {channelId : Nat}
    (hready : p.inner.isReady = true)
    (hcloses : (p.session.mux.incomingMessage payload).bind closes = some channelId)
    (hmem : (channelId, Handler.gfx) ∈ p.session.mux.slots) :
    ¬ Safe others { p with session := p.session.onClientData (withGfx others) payload } := by
  have heffect := effect_onChannelData (withGfx others).handlers p.session.mux p.session.world payload
  rw [← onClientData_effect, hcloses] at heffect
  rintro ⟨hchannel, _⟩
  generalize hmux : (p.session.onClientData (withGfx others) payload).mux = mux at heffect hchannel
  generalize hworld : (p.session.onClientData (withGfx others) payload).world = world at heffect
  cases heffect with
  | closed _ _ hslots hpending =>
    rw [Pump.inner, hworld] at hchannel
    obtain ⟨other, hother⟩ := (hasGfx_iff others mux).mpr (hchannel hready)
    rw [hslots] at hother
    obtain ⟨hother, hne⟩ := mem_filter.mp hother
    -- the handlers are all different, so this is the channel that was closed
    have hsame := inj_on_of_nodup_map (List.Nodup.of_append_left h.unique) hother hmem rfl
    exact of_decide_eq_true hne (congrArg Prod.fst hsame)

theorem not_safe_of_not_keepsChannel {event : Event ω} (h : Inv p) (hbad : ¬ KeepsChannel p event) :
    ∃ q, p.step others event = some q ∧ ¬ Safe others q := by
  cases event with
  | clientData payload =>
    simp only [KeepsChannel, Classical.not_imp, not_forall, not_not] at hbad
    obtain ⟨hloop, hready, channelId, hcloses, hmem⟩ := hbad
    refine ⟨_, ?_, not_safe_of_closed h hready hcloses hmem⟩
    rw [step_clientData, hloop]
  | bitmap source first retry bitmapFrames => exact absurd trivial hbad
  | resized width height => exact absurd trivial hbad
  | transport action => exact absurd trivial hbad

theorem inv_start (others : Behaviour ω) (channelId userChannelId : UInt16)
    (echo audioInput gfx : Bool) (width height : UInt16) (world : ω) :
    Inv (Pump.start others channelId userChannelId echo audioInput gfx width height world) := by
  have hmux := foldl_registerChannel (withGfx others).handlers
    (show (new channelId userChannelId).capabilityNegotiated = false from rfl)
    (registered echo audioInput gfx)
  refine ⟨fun hready => (nomatch hready), ?_⟩
  show (slots (foldl _ _ _) |>.map Prod.snd) ++ pending (foldl _ _ _) |>.Nodup
  rw [hmux]
  show (registered echo audioInput gfx).Nodup
  cases echo <;> cases audioInput <;> cases gfx <;> decide

/-- Along every run the session is safe in every state exactly when the client never closes the
GFX channel of a ready GFX session. -/
theorem safe_always_iff_keepsChannel (others : Behaviour ω) (channelId userChannelId : UInt16)
    (echo audioInput gfx : Bool) (width height : UInt16) (world : ω) (schedule : List (Event ω)) :
    Always (Pump.step others) (Safe others)
      (Pump.start others channelId userChannelId echo audioInput gfx width height world) schedule ↔
      Careful (Pump.step others) KeepsChannel
        (Pump.start others channelId userChannelId echo audioInput gfx width height world)
        schedule :=
  always_iff_careful Inv (fun _ h => h.safe others) (fun _ _ _ h hok hstep => inv_step h hok hstep)
    (fun _ _ h hbad => not_safe_of_not_keepsChannel h hbad) schedule
    (inv_start others channelId userChannelId echo audioInput gfx width height world)

open Source.Pdu

def noOthers : Behaviour Unit where
  onOpen := fun _ world => ([], world)
  onData := fun _ world _ => ([], world)

def clientSays (pdu : Bytes) : Event Unit :=
  .clientData (channelChunk pdu.length (channelFlagFirst ||| channelFlagLast) pdu)

def capsAdvertise : Bytes :=
  gfxPdu cmdCapsAdvertise (u16Le 1 ++ RawCapabilitySet.encodeBody ⟨capVersion107, u32Le 0⟩)

def closingRun : List (Event Unit) :=
  [clientSays (0x50 :: 0 :: u16Le 2), .transport .pushReply, clientSays (0x10 :: 1 :: u32Le 0),
    clientSays (encodeData 1 capsAdvertise)] ++ List.replicate 4 (.transport .pushReply) ++
    [clientSays [0x40, 1], .bitmap ⟨0, 64, 48⟩ (some ⟨[7], 20⟩) none [[1]]]

def hasEnded : LoopPhase → Bool
  | .ended => true
  | _ => false

theorem closing_ends_session :
    ∃ p,
      exec (Pump.step noOthers) (Pump.start noOthers 1005 1003 false false true 64 48 ())
        closingRun =
        some p ∧
      p.inner.isReady = true ∧
      hasEnded p.session.loop = true ∧
      ¬ Safe noOthers p := by
  have hrun : (exec (Pump.step noOthers) (Pump.start noOthers 1005 1003 false false true 64 48 ())
      closingRun).any
      (fun p => p.inner.isReady && hasEnded p.session.loop &&
        (p.session.mux.channelIdForName (withGfx noOthers).handlers gfxChannelName).isNone) = true := by
    decide +kernel
  obtain ⟨p, hp, hbad⟩ := (any_eq_true _ _).mp hrun
  simp only [Bool.and_eq_true] at hbad
  obtain ⟨⟨hready, hended⟩, hnone⟩ := hbad
  refine ⟨p, hp, hready, hended, fun hsafe => ?_⟩
  have hsome := hsafe.1 hready
  rw [isNone_iff_eq_none.mp hnone] at hsome
  cases hsome

end Kmsrdp.Guarantees.GfxFallback
