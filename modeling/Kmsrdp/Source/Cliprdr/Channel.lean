import Kmsrdp.Source.Pdu.ClientInfo
import Kmsrdp.Source.Pdu.Svc

/-!
# The clipboard channel

Model of `rdpcore-cliprdr/src/pdu.rs` and of `CliprdrChannel` in `lib.rs`, for any `CliprdrBackend`
over a state that its methods change.
-/
namespace Kmsrdp.Source.Cliprdr
open Library.ByteString Source.Pdu

def cbMonitorReady : Nat := 0x0001
def cbFormatList : Nat := 0x0002
def cbFormatListResponse : Nat := 0x0003
def cbFormatDataRequest : Nat := 0x0004
def cbFormatDataResponse : Nat := 0x0005
def cbClipCaps : Nat := 0x0007
def cbResponseOk : Nat := 0x0001
def cbResponseFail : Nat := 0x0002

def writeHeader (msgType msgFlags bodyLen : Nat) : Bytes :=
  u16Le msgType ++ (u16Le msgFlags ++ u32Le bodyLen)

def encodeCapabilities : Bytes :=
  let body :=
    u16Le 1 ++ (u16Le 0 ++ (u16Le 0x0001 ++ (u16Le 12 ++ (u32Le 0x00000002 ++ u32Le 0x00000002))))
  writeHeader cbClipCaps 0 body.length ++ body

def encodeMonitorReady : Bytes := writeHeader cbMonitorReady 0 0
def encodeFormatListResponseOk : Bytes := writeHeader cbFormatListResponse cbResponseOk 0
def cfUnicodetext : Nat := 13

def encodeFormatListUnicodeText : Bytes :=
  let body := u32Le cfUnicodetext ++ u16Le 0
  writeHeader cbFormatList 0 body.length ++ body

def encodeFormatDataRequest (formatId : Nat) : Bytes :=
  writeHeader cbFormatDataRequest 0 4 ++ u32Le formatId

def encodeFormatDataResponseText (text : String) : Bytes :=
  let body := encodeUnits text ++ u16Le 0
  writeHeader cbFormatDataResponse cbResponseOk body.length ++ body

def encodeFormatDataResponseError : Bytes := writeHeader cbFormatDataResponse cbResponseFail 0

inductive FormatDataStatus where
  | ok (text : String)
  | failed

inductive ClientMessage where
  | formatList (formatIds : List Nat)
  | formatListResponse
  | formatDataRequest (format : Nat)
  | formatDataResponse (status : FormatDataStatus)
  | other

/-- The inner loop of `decode_format_list`, over a format name. Each round reads two bytes, so the
number of bytes is enough fuel. -/
def skipFormatName : Nat → Decoder Unit
  | 0 => return ()
  | fuel + 1 => do
    let left ← remaining
    if 2 ≤ left then
      let codeUnit ← readU16Le
      if codeUnit = 0 then return () else skipFormatName fuel
    else return ()

def decodeFormatIds : Nat → Decoder (List Nat)
  | 0 => return []
  | fuel + 1 => do
    let left ← remaining
    if 4 ≤ left then
      let id ← readU32Le
      skipFormatName fuel
      let rest ← decodeFormatIds fuel
      return id :: rest
    else return []

def decodeFormatList (body : Bytes) : Except DecodeError (List Nat) :=
  decodeFrom (decodeFormatIds body.length) body

def evenBytes : Bytes → Bytes
  | [] => []
  | [low] => [low]
  | low :: _ :: rest => low :: evenBytes rest

/-- The test of `decode_text_body` (lines 155-158): the length is even, and the second byte or an
even byte behind the first is zero. -/
def guessesUtf16 (body : Bytes) : Bool :=
  2 ≤ body.length && body.length % 2 ==
    0 && (body.getD 1 0 == 0 || ((evenBytes body).drop 1).any (· == 0))

-- `String::from_utf8_lossy`, which is the string itself where the bytes are UTF-8
variable (fromUtf8Lossy : Bytes → String)

def decodeTextBody (body : Bytes) : String :=
  if body = [] then ""
  else if guessesUtf16 body then readFixed body
  else fromUtf8Lossy (body.takeWhile (· ≠ 0))

def decodeClientMessage (input : Bytes) : Except DecodeError ClientMessage :=
  decodeFrom (do
    let msgType ← readU16Le
    let msgFlags ← readU16Le
    let dataLen ← readU32Le
    let body ← readSlice dataLen
    if msgType = cbFormatList then
      match decodeFormatList body with
      | .ok formatIds => return .formatList formatIds
      | .error e => throw e
    else if msgType = cbFormatListResponse then return .formatListResponse
    else if msgType = cbFormatDataRequest then
      match decodeFrom readU32Le body with
      | .ok format => return .formatDataRequest format
      | .error e => throw e
    else if msgType = cbFormatDataResponse then
      if msgFlags &&& cbResponseFail ≠ 0 then return .formatDataResponse .failed
      else return .formatDataResponse (.ok (decodeTextBody fromUtf8Lossy body))
    else return .other) input

structure CliprdrBackend (β : Type) where
  onReady : β → β
  onRemoteCopy : β → List Nat → β
  onFormatDataRequest : β → Nat → β
  onFormatDataResponse : β → FormatDataStatus → β

inductive ClipboardMessage where
  | sendInitiateCopy (formatIds : List Nat)
  | sendInitiatePaste (formatId : Nat)
  | sendFormatData (response : Option String)

structure CliprdrChannel where
  (channelId userChannelId : UInt16)
  incomingBuffer : Bytes

def maxCliprdrMessageSize : Nat := 16 * 1024 * 1024

namespace CliprdrChannel
variable {β : Type}

def new (backend : CliprdrBackend β) (state : β) (channelId userChannelId : UInt16) :
    (CliprdrChannel × List Bytes) × β :=
  ((⟨channelId, userChannelId, []⟩,
    wrapIndication userChannelId.toNat channelId.toNat encodeCapabilities ++
      wrapIndication userChannelId.toNat channelId.toNat encodeMonitorReady),
    backend.onReady state)

def onMessage (backend : CliprdrBackend β) (channel : CliprdrChannel) (state : β) :
    ClientMessage → List Bytes × β
  | .formatList formatIds =>
    (wrapIndication channel.userChannelId.toNat channel.channelId.toNat encodeFormatListResponseOk,
      backend.onRemoteCopy state formatIds)
  | .formatListResponse => ([], state)
  | .formatDataRequest format => ([], backend.onFormatDataRequest state format)
  | .formatDataResponse status => ([], backend.onFormatDataResponse state status)
  | .other => ([], state)

def onChannelData (backend : CliprdrBackend β) (channel : CliprdrChannel) (state : β)
    (payload : Bytes) :
    Except DecodeError (List Bytes) × CliprdrChannel × β :=
  let incoming :=
    reassemble channel.incomingBuffer payload maxCliprdrMessageSize "cliprdr.incoming_buffer"
  let channel := { channel with incomingBuffer := incoming.2 }
  match incoming.1 with
  | .error e => (.error e, channel, state)
  | .ok none => (.ok [], channel, state)
  | .ok (some message) =>
    match decodeClientMessage fromUtf8Lossy message with
    | .error e => (.error e, channel, state)
    | .ok message =>
      let answered := channel.onMessage backend state message
      (.ok answered.1, channel, answered.2)

def encodeMessage (channel : CliprdrChannel) (message : ClipboardMessage) : List Bytes :=
  let wrap (body : Bytes) : List Bytes :=
    wrapIndication channel.userChannelId.toNat channel.channelId.toNat body
  match message with
  | .sendInitiateCopy formatIds =>
    if cfUnicodetext ∈ formatIds then wrap encodeFormatListUnicodeText else []
  | .sendInitiatePaste formatId => wrap (encodeFormatDataRequest formatId)
  | .sendFormatData (some text) => wrap (encodeFormatDataResponseText text)
  | .sendFormatData none => wrap encodeFormatDataResponseError

theorem onChannelData_related {γ : Type} {backend : CliprdrBackend β} {backend' : CliprdrBackend γ}
    {related : β → γ → Prop} {state : β} {state' : γ} (h : related state state')
    (hcopy : ∀ formatIds,
      related (backend.onRemoteCopy state formatIds) (backend'.onRemoteCopy state' formatIds))
    (hrequest : ∀ format,
      related (backend.onFormatDataRequest state format)
        (backend'.onFormatDataRequest state' format))
    (hresponse : ∀ status,
      related (backend.onFormatDataResponse state status)
        (backend'.onFormatDataResponse state' status))
    (channel : CliprdrChannel) (payload : Bytes) :
    let called := channel.onChannelData fromUtf8Lossy backend state payload
    let called' := channel.onChannelData fromUtf8Lossy backend' state' payload
    called.1 = called'.1 ∧ called.2.1 = called'.2.1 ∧ related called.2.2 called'.2.2 := by
  unfold onChannelData
  generalize reassemble channel.incomingBuffer payload maxCliprdrMessageSize
    "cliprdr.incoming_buffer" = incoming
  obtain ⟨_ | _ | message, buffer⟩ := incoming
  · exact ⟨rfl, rfl, h⟩
  · exact ⟨rfl, rfl, h⟩
  · dsimp only
    cases decodeClientMessage fromUtf8Lossy message with
    | error e => exact ⟨rfl, rfl, h⟩
    | ok message =>
      cases message with
      | formatList formatIds => exact ⟨rfl, rfl, hcopy formatIds⟩
      | formatListResponse => exact ⟨rfl, rfl, h⟩
      | formatDataRequest format => exact ⟨rfl, rfl, hrequest format⟩
      | formatDataResponse status => exact ⟨rfl, rfl, hresponse status⟩
      | other => exact ⟨rfl, rfl, h⟩

theorem onChannelData_invariant {backend : CliprdrBackend β} (inv : β → Prop) {state : β}
    (h : inv state)
    (hcopy : ∀ formatIds, inv (backend.onRemoteCopy state formatIds))
    (hrequest : ∀ format, inv (backend.onFormatDataRequest state format))
    (hresponse : ∀ status, inv (backend.onFormatDataResponse state status))
    (channel : CliprdrChannel) (payload : Bytes) :
    inv (channel.onChannelData fromUtf8Lossy backend state payload).2.2 :=
  (@onChannelData_related fromUtf8Lossy β β backend backend (fun b _ => inv b) state state h hcopy
    hrequest hresponse channel payload).2.2

theorem onChannelData_channel (backend : CliprdrBackend β) (channel : CliprdrChannel) (state : β)
    (payload : Bytes) :
    (channel.onChannelData fromUtf8Lossy backend state payload).2.1 =
      { channel with
        incomingBuffer :=
          (reassemble channel.incomingBuffer payload maxCliprdrMessageSize
            "cliprdr.incoming_buffer").2 } := by
  unfold onChannelData
  generalize reassemble channel.incomingBuffer payload maxCliprdrMessageSize
    "cliprdr.incoming_buffer" = incoming
  dsimp only
  split
  · rfl
  · rfl
  · split <;> rfl

end CliprdrChannel
end Kmsrdp.Source.Cliprdr
