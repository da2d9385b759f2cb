import Kmsrdp.Source.Pdu.McsConnect

/-!
# MCS PDUs on the wire

Every MCS PDU of the connection sequence and of the channels, in both directions. `kind` selects the
decoder, as the phase of the connection does in the source.
-/
namespace Kmsrdp.Guarantees.McsCodec
open Library.ByteString Source.Pdu

inductive McsKind where
  | connectInitial
  | connectResponse
  | erectDomainRequest
  | attachUserRequest
  | attachUserConfirm
  | channelJoinRequest
  | channelJoinConfirm
  | sendDataRequest
  | sendDataIndication

inductive McsPdu where
  | connectInitial (pdu : ConnectInitial)
  | connectResponse (pdu : ConnectResponse)
  | erectDomainRequest (pdu : ErectDomainRequest)
  | attachUserRequest
  | attachUserConfirm (pdu : AttachUserConfirm)
  | channelJoinRequest (pdu : ChannelJoinRequest)
  | channelJoinConfirm (pdu : ChannelJoinConfirm)
  | sendDataRequest (pdu : SendData)
  | sendDataIndication (pdu : SendData)

namespace McsPdu

def kind : McsPdu → McsKind
  | connectInitial _ => .connectInitial
  | connectResponse _ => .connectResponse
  | erectDomainRequest _ => .erectDomainRequest
  | attachUserRequest => .attachUserRequest
  | attachUserConfirm _ => .attachUserConfirm
  | channelJoinRequest _ => .channelJoinRequest
  | channelJoinConfirm _ => .channelJoinConfirm
  | sendDataRequest _ => .sendDataRequest
  | sendDataIndication _ => .sendDataIndication

def encode : McsPdu → Bytes
  | connectInitial pdu => pdu.encode
  | connectResponse pdu => pdu.encode
  | erectDomainRequest pdu => pdu.encode
  | attachUserRequest => encodeAttachUserRequest
  | attachUserConfirm pdu => pdu.encode
  | channelJoinRequest pdu => pdu.encode
  | channelJoinConfirm pdu => pdu.encode
  | sendDataRequest pdu => pdu.encodeRequest
  | sendDataIndication pdu => pdu.encodeIndication

end McsPdu

def McsKind.decode : McsKind → Decoder McsPdu
  | connectInitial => .connectInitial <$> ConnectInitial.decode
  | connectResponse => .connectResponse <$> ConnectResponse.decode
  | erectDomainRequest => .erectDomainRequest <$> ErectDomainRequest.decode
  | attachUserRequest => (fun _ => .attachUserRequest) <$> decodeAttachUserRequest
  | attachUserConfirm => .attachUserConfirm <$> AttachUserConfirm.decode
  | channelJoinRequest => .channelJoinRequest <$> ChannelJoinRequest.decode
  | channelJoinConfirm => .channelJoinConfirm <$> ChannelJoinConfirm.decode
  | sendDataRequest => .sendDataRequest <$> SendData.decodeRequestFromCursor
  | sendDataIndication => .sendDataIndication <$> SendData.decodeFromCursor .sendDataIndication

/-- A 16-bit identifier that is written as its distance from the base. -/
def UserId (id : Nat) : Prop := baseChannelId ≤ id ∧ id < 65536

/-- Unsegmented, with data that a PER length can give. -/
def SendDataFits (pdu : SendData) : Prop :=
  UserId pdu.initiator ∧ pdu.channelId < 65536 ∧ pdu.data.length ≤ 32767 ∧ pdu.complete = true

/-- The fields are of their widths and the lengths fit their fields. -/
def McsPdu.Fits : McsPdu → Prop
  | .connectInitial pdu =>
    pdu.targetParameters.InRange ∧ pdu.minParameters.InRange ∧ pdu.maxParameters.InRange ∧
      pdu.userData.length ≤ 65535
  | .connectResponse pdu =>
    pdu.calledConnectId < 2 ^ 32 ∧ pdu.domainParameters.InRange ∧ pdu.userData.length ≤ 65535
  | .erectDomainRequest pdu => pdu.subHeight < 2 ^ 32 ∧ pdu.subInterval < 2 ^ 32
  | .attachUserRequest => True
  | .attachUserConfirm pdu => UserId pdu.initiator
  | .channelJoinRequest pdu => UserId pdu.initiator ∧ pdu.channelId < 65536
  | .channelJoinConfirm pdu =>
    UserId pdu.initiator ∧ pdu.requestedChannelId < 65536 ∧ pdu.channelId < 65536
  | .sendDataRequest pdu => SendDataFits pdu
  | .sendDataIndication pdu => SendDataFits pdu

theorem reads_sendData (kind : DomainMcsPdu) {pdu : SendData} (h : SendDataFits pdu) :
    Reads (SendData.decodeFromCursor kind) (pdu.encode kind) pdu := by
  obtain ⟨⟨-, hinitiator⟩, hchannel, hdata, hcomplete⟩ := h
  exact SendData.reads_encode kind hinitiator hchannel (Nat.lt_succ_of_le hdata) hcomplete

/-- Every MCS PDU is read back from its encoding, and what follows it is left alone. -/
theorem mcs_round_trip (pdu : McsPdu) (h : pdu.Fits) (rest : Bytes) :
    pdu.kind.decode (pdu.encode ++ rest) = .ok (pdu, rest) := by
  have hreads : Reads pdu.kind.decode pdu.encode pdu := by
    cases pdu with
    | connectInitial pdu =>
      obtain ⟨htarget, hmin, hmax, hdata⟩ := h
      exact (ConnectInitial.reads_encode htarget hmin hmax (Nat.lt_succ_of_le hdata)).map _
    | connectResponse pdu =>
      obtain ⟨hid, hparameters, hdata⟩ := h
      exact (ConnectResponse.reads_encode hid hparameters (Nat.lt_succ_of_le hdata)).map _
    | erectDomainRequest pdu => exact (ErectDomainRequest.reads_encode h.1 h.2).map _
    | attachUserRequest => exact reads_encodeAttachUserRequest.map _
    | attachUserConfirm pdu => exact (AttachUserConfirm.reads_encode h.2).map _
    | channelJoinRequest pdu => exact (ChannelJoinRequest.reads_encode h.1.2 h.2).map _
    | channelJoinConfirm pdu => exact (ChannelJoinConfirm.reads_encode h.1.2 h.2.1 h.2.2).map _
    | sendDataRequest pdu => exact (reads_sendData .sendDataRequest h).map _
    | sendDataIndication pdu =>
      rw [McsPdu.encode, SendData.encodeIndication]
      exact (reads_sendData .sendDataIndication h).map _
  exact hreads rest

/-- The server's Connect-Response with the shortest user data of a two-byte length form, and the
next unit behind it. -/
theorem mcs_round_trip_connectResponse :
    let pdu : McsPdu := .connectResponse ⟨0x80000000, .target, List.replicate 256 0x2A⟩
    pdu.Fits ∧ pdu.kind.decode (pdu.encode ++ [0x03, 0x00]) = .ok (pdu, [0x03, 0x00]) := by
  have hfits : (McsPdu.connectResponse ⟨0x80000000, .target, List.replicate 256 0x2A⟩).Fits :=
    ⟨by decide, DomainParameters.target_inRange, List.length_replicate.symm ▸ (by decide : 256 ≤ 65535)⟩
  exact ⟨hfits, mcs_round_trip _ hfits _⟩

end Kmsrdp.Guarantees.McsCodec
