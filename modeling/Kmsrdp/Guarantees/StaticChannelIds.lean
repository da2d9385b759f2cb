import Mathlib.Data.List.Nodup
import Kmsrdp.Guarantees.Authentication

/-!
# The static channels of a connection

The identifiers of the static channels are worked out for the Connect-Response and again, when the
connection is accepted, for the server's table.
-/
namespace Kmsrdp.Guarantees.StaticChannelIds
open Library.ByteString Library.Execution Source.Connector Source.Pdu Guarantees.Authentication List
  Acceptor ServerGccBlocks

def decodeConnectResponse (frame : Bytes) : Except DecodeError (Nat × ServerGccBlocks) := do
  let payload ← unwrapData frame
  let connectResponse ← decodeFrom ConnectResponse.decode payload
  let response ← decodeFrom ConferenceCreateResponse.decode connectResponse.userData
  let server ← ServerGccBlocks.decode response.serverGccBlocks
  return (response.nodeId, server)

def channelIds (count : Nat) : List Nat := (List.range count).map (ioChannelId + 1 + ·)

theorem mem_channelIds {count id : Nat} :
    id ∈ channelIds count ↔ ioChannelId + 1 ≤ id ∧ id < ioChannelId + 1 + count := by
  simp only [channelIds, mem_map, mem_range]
  constructor
  · rintro ⟨i, hi, rfl⟩
    omega
  · rintro ⟨hle, hlt⟩
    exact ⟨id - (ioChannelId + 1), by omega, by omega⟩

theorem nodup_channelIds (count : Nat) : (channelIds count).Nodup :=
  List.Nodup.map (fun _ _ h => Nat.add_left_cancel h) nodup_range

theorem ConferenceCreateResponse.length_encode_le (response : ConferenceCreateResponse) :
    response.encode.length ≤ response.serverGccBlocks.length + 28 := by
  have hlength : ∀ n, (writePerLength n).length ≤ 2 := by
    intro n
    unfold writePerLength
    split <;> simp [u16Be]
  have hfirst := hlength (response.serverGccBlocks.length + 13)
  have hsecond := hlength response.serverGccBlocks.length
  have hu16 : (writePerU16 response.nodeId 1001).length = 2 := rfl
  have hu32 : (writePerU32 1).length = 2 := by decide
  have hname : (writePerOctetString serverToClientH221 4).length = 5 := by decide
  have hobject : gccConferenceObjectId.length = 6 := rfl
  simp only [ConferenceCreateResponse.encode, length_append, length_cons, length_nil, hu16, hu32,
    hname, hobject]
  omega

theorem decodeConnectResponse_encode (protocols : Nat) {count : Nat}
    (hcount : count ≤ channelsMax)
    {message : Option Nat}
    (hmessage : ∀ id ∈ message, id < 65536) :
    decodeConnectResponse (encodeConnectResponse protocols (channelIds count) message) =
      .ok
        (userChannelId,
          ⟨⟨0x00080004, some (protocols % 2 ^ 32), none⟩, ⟨ioChannelId, channelIds count⟩,
            message⟩) := by
  have hlength : (channelIds count).length = count := by
    rw [channelIds, length_map, length_range]
  have hmax : count ≤ 31 := hcount
  have hids : ∀ id ∈ channelIds count, id < 65536 := by
    intro id hid
    have hrange := mem_channelIds.mp hid
    have hio : ioChannelId = 1003 := rfl
    omega
  have hserver : decode (encode
      ⟨⟨0x00080004, some protocols, none⟩, ⟨ioChannelId, channelIds count⟩, message⟩) = .ok
      ⟨⟨0x00080004, some (protocols % 2 ^ 32), none⟩, ⟨ioChannelId, channelIds count⟩, message⟩ :=
    decode_encode (by decide) protocols (by decide : ioChannelId < 65536)
      (by dsimp only; omega) hids hmessage
  have hblocks := length_encode_le
    ⟨⟨0x00080004, some protocols, none⟩, ⟨ioChannelId, channelIds count⟩, message⟩
  rw [hlength] at hblocks
  generalize hencoded : encode
    ⟨⟨0x00080004, some protocols, none⟩, ⟨ioChannelId, channelIds count⟩, message⟩ = blocks
      at hserver hblocks
  have hconference : Reads ConferenceCreateResponse.decode
      (ConferenceCreateResponse.encode ⟨userChannelId, blocks⟩)
      ⟨userChannelId, blocks⟩ :=
    ConferenceCreateResponse.reads_encode (by decide : userChannelId < 65536) (by dsimp only; omega)
  have huserData := ConferenceCreateResponse.length_encode_le ⟨userChannelId, blocks⟩
  dsimp only at huserData
  have hconnect : Reads ConnectResponse.decode
      (ConnectResponse.encode ⟨0, .target, ConferenceCreateResponse.encode ⟨userChannelId, blocks⟩⟩)
      ⟨0, .target, ConferenceCreateResponse.encode ⟨userChannelId, blocks⟩⟩ :=
    ConnectResponse.reads_encode (by decide : 0 < 2 ^ 32) DomainParameters.target_inRange
      (by dsimp only; omega)
  have hconferenceOk := hconference.decodeFrom []
  have hconnectOk := hconnect.decodeFrom []
  rw [append_nil] at hconferenceOk hconnectOk
  rw [decodeConnectResponse, encodeConnectResponse]
  simp only [hencoded, unwrapData_wrapData, hconnectOk, hconferenceOk, hserver, bind, Except.bind,
    pure, Except.pure]

/-- The acceptor is behind Connect-Initial and remembers these channels. -/
def Remembers (names : List Bytes) (a : Acceptor) : Prop :=
  Acceptor.PastConnect a.phase ∧ a.staticChannelNames = names

theorem kept_remembers (names : List Bytes) : Acceptor.Kept (Remembers names) :=
  ⟨fun _ _ hphase h => ⟨hphase, h.2⟩, fun _ _ _ h => h, fun _ _ _ h => h⟩

/-- What has been accepted so far has the table of these channels. -/
structure Inv (names : List Bytes) (s : Driven) : Prop where
  remembers : Remembers names s.acceptor
  accepted : ∀ connection, .event (.accepted connection) ∈ s.log →
    connection.ioChannelId = ioChannelId ∧ connection.userChannelId = userChannelId ∧
      connection.staticChannels = names.zip (channelIds names.length)

theorem staticChannels_eq (a : Acceptor) :
    a.acceptedConnection.staticChannels =
      a.staticChannelNames.zip (channelIds a.staticChannelNames.length) := by
  have hindexed : (fun entry : Bytes × Nat => (entry.1, ioChannelId + 1 + entry.2)) =
      Prod.map id (ioChannelId + 1 + ·) := rfl
  show (a.staticChannelNames.zipIdx.map fun entry => (entry.1, ioChannelId + 1 + entry.2)) = _
  rw [zipIdx_eq_zip_range', hindexed, channelIds, zip_map_right, range_eq_range']

theorem Inv.log {names : List Bytes} {s : Driven}
    (h : Inv names s)
    {a : Acceptor}
    (ha : Remembers names a)
    {entry : Entry}
    (hentry :
      ∀ connection, entry = .event (.accepted connection) → connection = a.acceptedConnection) :
    Inv names ⟨a, s.log ++ [entry]⟩ := by
  refine ⟨ha, fun connection hmem => ?_⟩
  rcases mem_append.mp hmem with hold | hnew
  · exact h.accepted connection hold
  · rw [hentry connection (mem_singleton.mp hnew).symm]
    exact ⟨rfl, rfl, ha.2 ▸ staticChannels_eq a⟩

theorem inv_step {names : List Bytes} {s t : Driven} {call : Call}
    (h : Inv names s)
    (hstep : s.step call = some t) : Inv names t := by
  have hremembers := h.remembers
  cases call with
  | step input =>
    have hafter := (kept_remembers names).step hremembers.1 hremembers input
    have hdescribes := describes_step s.acceptor input
    simp only [Driven.step] at hstep
    generalize s.acceptor.step input = outcome at hafter hdescribes hstep
    cases hstep
    refine h.log hafter fun connection hentry => ?_
    obtain ⟨result, after⟩ := outcome
    cases result with
    | error error => cases hentry
    | ok result =>
      have hevent : result.event = .accepted connection := Entry.event.inj hentry
      exact hdescribes result.response connection (by rw [← hevent])
  | approve =>
    simp only [Driven.step, approveClientInfo] at hstep
    by_cases hphase : s.acceptor.phase = .waitAuthApproval
    · simp only [hphase, if_true] at hstep
      cases hstep
      exact h.log ((kept_remembers names).phase _ _ ⟨by simp, by simp⟩ hremembers) fun _ hentry =>
        by cases hentry
    · simp only [hphase, if_false] at hstep
      cases hstep
      exact h.log hremembers fun _ hentry => by cases hentry
  | reject =>
    cases hstep
    refine h.log ?_ fun _ hentry => by cases hentry
    unfold rejectClientInfo
    split
    · exact (kept_remembers names).phase _ _ pastConnect_rejected hremembers
    · exact hremembers
  | beginResize desktopWidth desktopHeight =>
    cases hstep
    refine h.log ?_ fun _ hentry => by cases hentry
    unfold beginResize
    split
    · exact ⟨⟨by simp, by simp⟩, hremembers.2⟩
    · exact hremembers

theorem exists_decode_of_decodeClientBlocks {input : Bytes} {client : ClientGccBlocks}
    (h : decodeClientBlocks input = .ok client) :
    ∃ blocks, ClientGccBlocks.decode blocks = .ok client := by
  obtain ⟨payload, -, h⟩ := ok_of_bind_eq_ok h
  obtain ⟨initial, -, h⟩ := ok_of_bind_eq_ok h
  obtain ⟨blocks, -, h⟩ := ok_of_bind_eq_ok h
  exact ⟨blocks, h⟩

/-- Every accepted Connect-Initial is answered with one identifier for each channel it asks for. All
the identifiers of the connection differ, and each later accepted connection has the names with
exactly these identifiers, whatever the client sends and the server does in between. -/
theorem static_channel_ids (a : Acceptor)
    (hphase : a.phase = .waitConnectInitial)
    (input : Bytes) (client : ClientGccBlocks)
    (hclient : Acceptor.decodeClientBlocks input = .ok client) :
    ∃ protocols ids message after userId server,
      a.step input = (.ok (.just [.connectResponse protocols ids message]), after) ∧
      decodeConnectResponse (Acceptor.encodeConnectResponse protocols ids message) =
        .ok (userId, server) ∧
      server.network.channelIds.length = (client.network.getD []).length ∧
      server.messageChannel.isSome = client.messageChannel ∧
      (server.network.channelIds ++ [server.network.ioChannelId, userId] ++
         server.messageChannel.toList).Nodup ∧
      ∀ calls s, exec Driven.step ⟨after, []⟩ calls = some s → ∀ connection,
        .event (.accepted connection) ∈ s.log →
          connection.ioChannelId = server.network.ioChannelId ∧
          connection.userChannelId = userId ∧
          connection.staticChannels = (client.network.getD []).zip server.network.channelIds := by
  have hcount : (client.network.getD []).length ≤ channelsMax := by
    obtain ⟨blocks, hblocks⟩ := exists_decode_of_decodeClientBlocks hclient
    exact length_network_le hblocks
  have hmax : channelsMax = 31 := rfl
  have hio : ioChannelId = 1003 := rfl
  have huser : userChannelId = 1002 := rfl
  have hmessage : ∀ id ∈ (if client.messageChannel then
      some (ioChannelId + 1 + (client.network.getD []).length) else none), id < 65536 := by
    intro id hid
    split at hid
    · cases hid
      omega
    · cases hid
  have hstep : a.step input = (.ok (.just [.connectResponse a.clientRequestedProtocols
      (channelIds (client.network.getD []).length)
      (if client.messageChannel then some (ioChannelId + 1 + (client.network.getD []).length)
        else none)]),
      { a with
        clientName := client.clientName, staticChannelNames := client.network.getD []
        messageChannelId :=
          if client.messageChannel then some (ioChannelId + 1 + (client.network.getD []).length)
          else none
        phase := .waitErectDomainRequest }) := by
    rw [step, hphase]
    rw [onConnectInitial, hclient]
    rfl
  refine ⟨_, _, _, _, _, _, hstep, decodeConnectResponse_encode _ hcount hmessage, ?_, ?_, ?_, ?_⟩
  · rw [channelIds, length_map, length_range]
  · cases client.messageChannel <;> rfl
  · have hids : ∀ id ∈ channelIds (client.network.getD []).length,
        id ≠ ioChannelId ∧ id ≠ userChannelId ∧ id ≠
          ioChannelId + 1 + (client.network.getD []).length := by
      intro id hid
      have hrange := mem_channelIds.mp hid
      omega
    rw [append_assoc]
    refine (nodup_channelIds _).append ?_ ?_
    · split
      · simp only [Option.toList_some, cons_append, nil_append, nodup_cons, mem_cons,
          not_mem_nil, not_false_eq_true, nodup_nil, and_true, or_false, not_or]
        omega
      · simp only [Option.toList_none, append_nil, nodup_cons, mem_cons, not_mem_nil,
          not_false_eq_true, nodup_nil, and_true, or_false]
        omega
    · intro id hid hother
      obtain ⟨hneIo, hneUser, hneMessage⟩ := hids id hid
      split at hother
      · simp only [Option.toList_some, cons_append, nil_append, mem_cons, not_mem_nil, or_false]
          at hother
        omega
      · simp only [Option.toList_none, append_nil, mem_cons, not_mem_nil, or_false] at hother
        omega
  · intro calls s hexec connection hmem
    have hinv := exec_invariant (Inv (client.network.getD [])) (fun _ _ _ => inv_step) calls
      ⟨⟨⟨by simp, by simp⟩, rfl⟩, fun _ h => absurd h not_mem_nil⟩ hexec
    exact hinv.accepted connection hmem

def cliprdrName : Bytes := [99, 108, 105, 112, 114, 100, 114]

def cliprdrConnectInitial : Bytes :=
  let blocks := writeBlock 0xC001 (List.replicate 128 0) ++ writeBlock 0xC002 (List.replicate 8 0) ++
    writeBlock 0xC003 (u32Le 1 ++ cliprdrName ++ [0] ++ u32Le 0) ++ writeBlock 0xC006 (u32Le 0)
  let request := [0, 5, 0, 0x14, 0x7C, 0, 1] ++ writePerLength (blocks.length + 12) ++
    [0, 8, 0, 0x10, 0, 1, 0xC0, 0, 0x44, 0x75, 0x63, 0x61] ++ writePerLength blocks.length ++ blocks
  wrapData (ConnectInitial.encode ⟨.target, .target, .target, request⟩)

theorem static_channel_ids_cliprdr :
    ∃ a : Acceptor,
      a.phase = .waitConnectInitial ∧
      Acceptor.decodeClientBlocks cliprdrConnectInitial = .ok ⟨"", some [cliprdrName], true⟩ ∧
      ∃ protocols ids message after userId server,
        a.step cliprdrConnectInitial =
          (.ok (.just [.connectResponse protocols ids message]), after) ∧
        decodeConnectResponse (Acceptor.encodeConnectResponse protocols ids message) =
          .ok (userId, server) ∧
        server.network.channelIds.length = 1 := by
  have hclient : decodeClientBlocks cliprdrConnectInitial = .ok ⟨"", some [cliprdrName], true⟩ := by
    decide +kernel
  obtain ⟨protocols, ids, message, after, userId, server, hstep, hdecode, hlength, -⟩ :=
    static_channel_ids { new 1024 768 false with phase := .waitConnectInitial } rfl _ _ hclient
  exact ⟨_, rfl, hclient, protocols, ids, message, after, userId, server, hstep, hdecode, hlength⟩

end Kmsrdp.Guarantees.StaticChannelIds
