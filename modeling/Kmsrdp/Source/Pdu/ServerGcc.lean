import Kmsrdp.Source.Pdu.McsConnect

/-!
# The server's GCC blocks

Model of the server half of `rdpcore-pdu/src/gcc.rs`, both directions. The walk over the blocks is
shared with the client half, in `Connect`.
-/
namespace Kmsrdp.Source.Pdu
open Library.ByteString List Option

def writeBlock (kind : Nat) (body : Bytes) : Bytes :=
  u16Le kind ++ (u16Le (body.length + 4) ++ body)

theorem forEachUserDataBlock_invariant {σ : Type} {f : σ → Nat → Bytes → Except DecodeError σ}
    (inv : σ → Prop)
    (hf : ∀ s kind body t, inv s → f s kind body = .ok t → inv t)
    {fuel : Nat} {s t : σ} {input : Bytes} (hs : inv s)
    (h : forEachUserDataBlock f fuel s input = .ok t) : inv t := by
  induction fuel generalizing s input with
  | zero =>
    cases h
    exact hs
  | succ fuel ih =>
    unfold forEachUserDataBlock at h
    split at h
    · cases h
      exact hs
    · obtain ⟨⟨⟨kind, body⟩, rest⟩, -, h⟩ := ok_of_bind_eq_ok h
      obtain ⟨u, hnext, h⟩ := ok_of_bind_eq_ok h
      exact ih (hf s kind body u hs hnext) h

theorem reads_readBlock {kind : Nat} {body : Bytes}
    (hkind : kind < 65536)
    (hbody : body.length + 4 < 65536) : Reads readBlock (writeBlock kind body) (kind, body) := by
  refine (reads_readU16Le hkind).bind ((reads_readU16Le hbody).bind ?_)
  rw [if_neg (Nat.not_lt.mpr (Nat.le_add_left 4 _)), Nat.add_sub_cancel]
  exact (reads_readSlice body).return (Prod.mk kind)

theorem forEachUserDataBlock_flatMap {σ : Type} (f : σ → Nat → Bytes → Except DecodeError σ)
    {blocks : List (Nat × Bytes)}
    (hblocks : ∀ block ∈ blocks, block.1 < 65536 ∧ block.2.length + 4 < 65536)
    {fuel : Nat}
    (hfuel : blocks.length ≤ fuel)
    (s : σ) :
    forEachUserDataBlock f fuel s (blocks.flatMap fun block => writeBlock block.1 block.2) =
      blocks.foldlM (fun s block => f s block.1 block.2) s := by
  induction blocks generalizing fuel s with
  | nil => cases fuel <;> rfl
  | cons block blocks ih =>
    obtain ⟨fuel, rfl⟩ := Nat.exists_eq_add_of_le hfuel
    rw [length_cons, Nat.add_right_comm] at *
    obtain ⟨hkind, hbody⟩ := hblocks block mem_cons_self
    have hlong : ¬ (((block :: blocks).flatMap fun block => writeBlock block.1 block.2).length <
        4) := by
      simp only [flatMap_cons, writeBlock, length_append, length_u16Le]
      omega
    rw [forEachUserDataBlock, if_neg hlong, flatMap_cons, reads_readBlock hkind hbody, foldlM_cons]
    have hrest : ∀ t, forEachUserDataBlock f (blocks.length + fuel) t
        (blocks.flatMap fun block => writeBlock block.1 block.2) =
        blocks.foldlM (fun s block => f s block.1 block.2) t :=
      ih (fun other hmem => hblocks other (mem_cons_of_mem _ hmem)) (Nat.le_add_right _ _)
    simp only [← hrest]
    rfl

theorem length_le_flatMap_writeBlock (blocks : List (Nat × Bytes)) :
    blocks.length ≤ (blocks.flatMap fun block => writeBlock block.1 block.2).length := by
  induction blocks with
  | nil => exact Nat.le_refl _
  | cons block blocks ih =>
    simp only [flatMap_cons, writeBlock, length_append, length_u16Le, length_cons] at ih ⊢
    omega

theorem length_eq_of_mapM_eq_ok {α β : Type} {f : β → Decoder α} {turns : List β}
    {buf left : Bytes} {values : List α}
    (h : turns.mapM f buf = .ok (values, left)) : values.length = turns.length := by
  induction turns generalizing buf left values with
  | nil =>
    cases h
    rfl
  | cons turn turns ih =>
    rw [mapM_cons] at h
    obtain ⟨value, between, -, hrest⟩ := exists_of_bind_eq_ok h
    obtain ⟨others, left', hothers, hpure⟩ := exists_of_bind_eq_ok hrest
    cases hpure
    rw [length_cons, length_cons, ih hothers]

theorem length_decodeClientNetwork {body : Bytes} {names : List Bytes}
    (h : decodeFrom decodeClientNetwork body = .ok names) : names.length ≤ channelsMax := by
  obtain ⟨left, hread⟩ := exists_of_decodeFrom_eq_ok h
  obtain ⟨count, between, -, hnames⟩ := exists_of_bind_eq_ok hread
  rw [length_eq_of_mapM_eq_ok hnames, length_range]
  exact Nat.min_le_right _ _

theorem length_scanGccBlock {scan t : GccScan} {kind : Nat} {body : Bytes}
    (hscan : (scan.network.getD []).length ≤ channelsMax)
    (h : scanGccBlock scan kind body = .ok t) : (t.network.getD []).length ≤ channelsMax := by
  unfold scanGccBlock at h
  split at h
  · obtain ⟨_, -, h⟩ := ok_of_bind_eq_ok h
    cases h
    exact hscan
  split at h
  · obtain ⟨_, -, h⟩ := ok_of_bind_eq_ok h
    cases h
    exact hscan
  split at h
  · obtain ⟨names, hnetwork, h⟩ := ok_of_bind_eq_ok h
    cases h
    exact length_decodeClientNetwork hnetwork
  split at h
  · obtain ⟨_, -, h⟩ := ok_of_bind_eq_ok h
    cases h
    exact hscan
  split at h
  · obtain ⟨_, -, h⟩ := ok_of_bind_eq_ok h
    cases h
    exact hscan
  · cases h
    exact hscan

theorem length_network_le {input : Bytes} {blocks : ClientGccBlocks}
    (h : ClientGccBlocks.decode input = .ok blocks) :
    (blocks.network.getD []).length ≤ channelsMax := by
  obtain ⟨scan, hscan, h⟩ := ok_of_bind_eq_ok h
  have hinv : (scan.network.getD []).length ≤ channelsMax :=
    forEachUserDataBlock_invariant (fun scan => (scan.network.getD []).length ≤ channelsMax)
      (fun _ _ _ _ => length_scanGccBlock) (Nat.zero_le _) hscan
  split at h
  · cases h
  · split at h
    · cases h
      exact hinv
    · cases h

structure ServerCoreData where
  version : Nat
  (clientRequestedProtocols earlyCapabilityFlags : Option Nat)

def ServerCoreData.encode (core : ServerCoreData) : Bytes :=
  u32Le core.version ++
    (core.clientRequestedProtocols.elim [] u32Le ++ core.earlyCapabilityFlags.elim [] u32Le)

def readOptionalU32 : Decoder (Option Nat) := do
  let left ← remaining
  if 4 ≤ left then some <$> readU32Le else pure none

def ServerCoreData.decode : Decoder ServerCoreData := do
  let version ← readU32Le
  let clientRequestedProtocols ← readOptionalU32
  let earlyCapabilityFlags ← readOptionalU32
  return { version, clientRequestedProtocols, earlyCapabilityFlags }

structure ServerNetworkData where
  ioChannelId : Nat
  channelIds : List Nat

def ServerNetworkData.encode (network : ServerNetworkData) : Bytes :=
  u16Le network.ioChannelId ++ (u16Le network.channelIds.length ++ (network.channelIds.flatMap u16Le ++
    if network.channelIds.length % 2 = 1 then u16Le 0 else []))

def ServerNetworkData.decode : Decoder ServerNetworkData := do
  let ioChannelId ← readU16Le
  let count ← readU16Le
  let channelIds ← (List.range count).mapM fun _ => readU16Le
  let left ← remaining
  if count % 2 = 1 ∧ 2 ≤ left then advance 2
  return { ioChannelId, channelIds }

def encodeServerSecurityData : Bytes := u32Le 0 ++ u32Le 0
def decodeServerSecurityData : Decoder Unit := do
  let encryptionMethod ← readU32Le
  let encryptionLevel ← readU32Le
  if encryptionMethod ≠ 0 ∨ encryptionLevel ≠ 0 then
    fail "gcc.server_security" "only the no-security (TLS-only) encoding is supported"

structure ServerGccBlocks where
  core : ServerCoreData
  network : ServerNetworkData
  messageChannel : Option Nat

def scCore : Nat := 0x0C01
def scSecurity : Nat := 0x0C02
def scNet : Nat := 0x0C03
def scMcsMsgchannel : Nat := 0x0C04

namespace ServerGccBlocks

def blocks (server : ServerGccBlocks) : List (Nat × Bytes) :=
  [(scCore, server.core.encode), (scNet, server.network.encode),
    (scSecurity, encodeServerSecurityData)] ++
    server.messageChannel.toList.map fun mcsChannelId => (scMcsMsgchannel, u16Le mcsChannelId)

def encode (server : ServerGccBlocks) : Bytes :=
  server.blocks.flatMap fun block => writeBlock block.1 block.2

end ServerGccBlocks

structure ServerGccScan where
  core : Option ServerCoreData
  network : Option ServerNetworkData
  security : Bool
  messageChannel : Option Nat

def scanServerBlock (scan : ServerGccScan) (kind : Nat) (body : Bytes) :
    Except DecodeError ServerGccScan := do
  if kind = scCore then
    return { scan with core := some (← decodeFrom ServerCoreData.decode body) }
  else if kind = scNet then
    return { scan with network := some (← decodeFrom ServerNetworkData.decode body) }
  else if kind = scSecurity then
    let _ ← decodeFrom decodeServerSecurityData body
    return { scan with security := true }
  else if kind = scMcsMsgchannel then
    return { scan with messageChannel := some (← decodeFrom readU16Le body) }
  else return scan

def ServerGccScan.finish (scan : ServerGccScan) : Except DecodeError ServerGccBlocks :=
  match scan.core with
  | none => .error (.invalidValue "gcc.server_blocks.core" "missing mandatory SC_CORE block")
  | some core =>
    match scan.network with
    | none => .error (.invalidValue "gcc.server_blocks.network" "missing mandatory SC_NET block")
    | some network =>
      if scan.security then .ok { core, network, messageChannel := scan.messageChannel }
      else .error (.invalidValue "gcc.server_blocks.security" "missing mandatory SC_SECURITY block")

def ServerGccBlocks.decode (input : Bytes) : Except DecodeError ServerGccBlocks := do
  let scan ← forEachUserDataBlock scanServerBlock input.length ⟨none, none, false, none⟩ input
  scan.finish

open ServerCoreData

theorem decode_encode_core {version : Nat} (hversion : version < 2 ^ 32) (protocols : Nat) :
    decodeFrom decode (encode ⟨version, some protocols, none⟩) =
      .ok ⟨version, some (protocols % 2 ^ 32), none⟩ := by
  have hsome : readOptionalU32 (u32Le protocols) = .ok (some (protocols % 2 ^ 32), []) := by
    have hread : Reads readU32Le (u32Le protocols) (protocols % 2 ^ 32) := readU32Le_u32Le protocols
    have hmap := hread.map some []
    rw [append_nil] at hmap
    exact hmap
  rw [decodeFrom, decode, encode, bind_ok (reads_readU32Le hversion _)]
  simp only [elim_some, elim_none, append_nil]
  rw [bind_ok hsome]
  rfl

theorem length_flatMap_u16Le (ids : List Nat) : (ids.flatMap u16Le).length = 2 * ids.length := by
  induction ids with
  | nil => rfl
  | cons id ids ih =>
    rw [flatMap_cons, length_append, ih, length_u16Le, length_cons]
    omega

open ServerNetworkData

theorem ServerNetworkData.length_encode_le (network : ServerNetworkData) :
    network.encode.length ≤ 6 + 2 * network.channelIds.length := by
  unfold encode
  split
  · simp only [length_append, length_u16Le, length_flatMap_u16Le]
    omega
  · simp only [length_append, length_u16Le, length_flatMap_u16Le, length_nil]
    omega

theorem ServerNetworkData.decode_encode {network : ServerNetworkData}
    (hio : network.ioChannelId < 65536)
    (hcount : network.channelIds.length < 65536)
    (hids : ∀ id ∈ network.channelIds, id < 65536) :
    decodeFrom decode network.encode = .ok network := by
  have hread : Reads ((range network.channelIds.length).mapM fun _ => readU16Le)
      (network.channelIds.flatMap u16Le) network.channelIds :=
    reads_mapM (fun id hmem => reads_readU16Le (hids id hmem)) (by rw [length_range])
  rw [decodeFrom, decode, encode, bind_ok (reads_readU16Le hio _),
    bind_ok (reads_readU16Le hcount _), bind_ok (hread _)]
  by_cases hodd : network.channelIds.length % 2 = 1
  · rw [if_pos hodd, bind_ok (rfl : remaining (u16Le 0) = _), if_pos ⟨hodd, Nat.le_refl 2⟩]
    rfl
  · rw [if_neg hodd, bind_ok (rfl : remaining [] = _), if_neg fun h => hodd h.1]
    rfl

theorem decode_encodeServerSecurityData :
    decodeFrom decodeServerSecurityData encodeServerSecurityData = .ok () := by
  decide +kernel

namespace ServerGccBlocks

theorem decode_encode {version : Nat}
    (hversion : version < 2 ^ 32)
    (protocols : Nat) {network : ServerNetworkData}
    (hio : network.ioChannelId < 65536)
    (hcount : network.channelIds.length < 32000)
    (hids : ∀ id ∈ network.channelIds, id < 65536)
    {messageChannel : Option Nat}
    (hmessage : ∀ id ∈ messageChannel, id < 65536) :
    decode (encode ⟨⟨version, some protocols, none⟩, network, messageChannel⟩) =
      .ok ⟨⟨version, some (protocols % 2 ^ 32), none⟩, network, messageChannel⟩ := by
  have hscan : ∀ scan : ServerGccScan,
      scanServerBlock scan scCore (ServerCoreData.encode ⟨version, some protocols, none⟩) =
        .ok { scan with core := some ⟨version, some (protocols % 2 ^ 32), none⟩ } ∧
      scanServerBlock scan scNet network.encode = .ok { scan with network := some network } ∧
      scanServerBlock scan scSecurity encodeServerSecurityData = .ok { scan with security := true } ∧
      ∀ id ∈ messageChannel, scanServerBlock scan scMcsMsgchannel (u16Le id) =
        .ok { scan with messageChannel := some id } := by
    intro scan
    refine ⟨?_, ?_, ?_, fun id hid => ?_⟩
    · simp only [scanServerBlock, if_true, decode_encode_core hversion protocols]
      rfl
    · simp only [scanServerBlock, ServerNetworkData.decode_encode hio (by omega) hids]
      rfl
    · simp only [scanServerBlock, decode_encodeServerSecurityData]
      rfl
    · have hread := (reads_readU16Le (hmessage id hid)).decodeFrom []
      rw [append_nil] at hread
      simp only [scanServerBlock, hread]
      rfl
  have hblocks : ∀ block ∈ (ServerGccBlocks.mk ⟨version, some protocols, none⟩ network
      messageChannel).blocks, block.1 < 65536 ∧ block.2.length + 4 < 65536 := by
    have hlength := ServerNetworkData.length_encode_le network
    intro block hmem
    rcases mem_append.mp hmem with hfixed | hoptional
    · simp only [mem_cons, not_mem_nil, or_false] at hfixed
      rcases hfixed with rfl | rfl | rfl
      · exact ⟨(by decide : scCore < 65536), by simp [ServerCoreData.encode, u32Le]⟩
      · exact ⟨(by decide : scNet < 65536), by dsimp only; omega⟩
      · exact ⟨by decide, by decide⟩
    · obtain ⟨id, -, rfl⟩ := mem_map.mp hoptional
      exact ⟨(by decide : scMcsMsgchannel < 65536), by rw [length_u16Le]; decide⟩
  rw [decode, encode, forEachUserDataBlock_flatMap _ hblocks (length_le_flatMap_writeBlock _),
    blocks, foldlM_append]
  simp only [foldlM_cons, foldlM_nil, (hscan _).1, (hscan _).2.1, (hscan _).2.2.1]
  cases messageChannel with
  | none => rfl
  | some id =>
    simp only [toList_some, map_cons, map_nil, foldlM_cons, foldlM_nil]
    show (scanServerBlock _ scMcsMsgchannel (u16Le id) >>= fun s => pure s) >>= _ = _
    rw [(hscan _).2.2.2 id rfl]
    rfl

theorem length_encode_le (server : ServerGccBlocks) :
    server.encode.length ≤ 50 + 2 * server.network.channelIds.length := by
  have hlength := ServerNetworkData.length_encode_le server.network
  have hcore : server.core.encode.length ≤ 12 := by
    simp only [ServerCoreData.encode, length_append]
    cases server.core.clientRequestedProtocols <;> cases server.core.earlyCapabilityFlags <;>
      simp [u32Le]
  have hsecurity : encodeServerSecurityData.length = 8 := rfl
  cases hmessage : server.messageChannel with
  | none =>
    simp only [encode, blocks, hmessage, toList_none, map_nil, append_nil, flatMap_cons,
      flatMap_nil, writeBlock, length_append, length_u16Le]
    omega
  | some id =>
    simp only [encode, blocks, hmessage, toList_some, map_cons, map_nil, cons_append,
      nil_append, flatMap_cons, flatMap_nil, writeBlock, length_append, length_u16Le,
      length_nil]
    omega

end ServerGccBlocks

structure ConferenceCreateResponse where
  nodeId : Nat
  serverGccBlocks : Bytes

def gccConferenceObjectId : Bytes := [5, 0, 20, 124, 0, 1]

def serverToClientH221 : Bytes := [0x4D, 0x63, 0x44, 0x6E]

def writePerOctetString (bytes : Bytes) (min : Nat) : Bytes :=
  writePerLength (bytes.length - min) ++ bytes

namespace ConferenceCreateResponse

def encode (response : ConferenceCreateResponse) : Bytes :=
  [0x00] ++
    (gccConferenceObjectId ++ (writePerLength (response.serverGccBlocks.length + 13) ++ ([0x14] ++
    (writePerU16 response.nodeId 1001 ++ (writePerU32 1 ++ ([0x00] ++ ([0x01] ++ ([0xC0] ++
      (writePerOctetString serverToClientH221 4 ++
        (writePerLength response.serverGccBlocks.length ++ response.serverGccBlocks))))))))))

def decode : Decoder ConferenceCreateResponse := do
  expectByte 0x00 "gcc.conference_response.key_choice"
  let _ ← readObjectId
  let _ ← readPerLength
  expectByte 0x14 "gcc.conference_response.gcc_pdu_choice"
  let nodeId ← readPerU16 1001
  let _ ← readPerU32
  let _ ← readU8
  let _ ← readU8
  let _ ← readU8
  let _ ← readPerOctetString 4
  let blocksLen ← readPerLength
  let serverGccBlocks ← readSlice blocksLen
  return { nodeId, serverGccBlocks }

theorem reads_encode {response : ConferenceCreateResponse}
    (hnode : response.nodeId < 65536)
    (hblocks : response.serverGccBlocks.length + 13 < 0x8000) :
    Reads decode response.encode response := by
  have hbyte : ∀ (byte : UInt8) (field : String), Reads (expectByte byte field) [byte] () := by
    intro byte field rest
    rw [expectByte, bind_ok (reads_readU8 byte rest), if_neg (not_not.mpr rfl)]
    rfl
  have hobject : Reads readObjectId gccConferenceObjectId [0, 0, 20, 124, 0, 1] := fun _ => rfl
  have hname : Reads (readPerOctetString 4) (writePerOctetString serverToClientH221 4)
      serverToClientH221 :=
    (reads_readPerLength (by decide)).bind (reads_readSlice serverToClientH221)
  refine (hbyte _ _).bind (hobject.bind ((reads_readPerLength hblocks).bind ((hbyte _ _).bind ?_)))
  refine (reads_readPerU16 hnode (by decide)).bind ((reads_readPerU32 (by decide)).bind ?_)
  refine (reads_readU8 _).bind ((reads_readU8 _).bind ((reads_readU8 _).bind (hname.bind ?_)))
  refine (reads_readPerLength (by omega)).bind ?_
  exact (reads_readSlice response.serverGccBlocks).return (ConferenceCreateResponse.mk response.nodeId)

end ConferenceCreateResponse
end Kmsrdp.Source.Pdu
