import Kmsrdp.Source.Cliprdr.Channel

/-!
# The clipboard of the host

Model of `kmsrdp/src/clipboard.rs` for one connection, with the loop that encodes the backend's
messages. Messages, delayed pastes, blocking tasks and requests to the clipboard worker that wait
are lists, and a schedule says what runs when. `from_utf8_lossy` is a parameter.
-/
namespace Kmsrdp.Source.Cliprdr.LocalClipboard
open Library.ByteString

inductive ClipboardMode where
  | bidirectional
  | hostToClient
  | clientToHost
  | disabled

def ClipboardMode.allowsHostToClient : ClipboardMode → Bool
  | .bidirectional | .hostToClient => true
  | .clientToHost | .disabled => false

def ClipboardMode.allowsClientToHost : ClipboardMode → Bool
  | .bidirectional | .clientToHost => true
  | .hostToClient | .disabled => false

def cfText : Nat := 1
def cfOemtext : Nat := 7

def isTextFormat (id : Nat) : Bool := id = cfText || id = cfOemtext || id = cfUnicodetext

def selectTextFormat (formatIds : List Nat) : Option Nat :=
  if cfUnicodetext ∈ formatIds then some cfUnicodetext
  else if cfText ∈ formatIds then some cfText
  else if cfOemtext ∈ formatIds then some cfOemtext
  else none

inductive Task where
  | sendLocalText
  | writeText (text : String)

structure LocalClipboardBackend where
  mode : ClipboardMode
  remoteTextFormat : Option Nat
  delayFirstPaste : Bool
  sent : List ClipboardMessage
  delayed : List Nat
  tasks : List Task

namespace LocalClipboardBackend

def send (b : LocalClipboardBackend) (message : ClipboardMessage) : LocalClipboardBackend :=
  { b with sent := b.sent ++ [message] }

def advertiseUnicodeFormats (b : LocalClipboardBackend) : LocalClipboardBackend :=
  b.send (.sendInitiateCopy [cfUnicodetext])

def onReady (b : LocalClipboardBackend) : LocalClipboardBackend :=
  if b.mode.allowsHostToClient then b.advertiseUnicodeFormats else b

def pasteDelay (b : LocalClipboardBackend) : Option Nat × LocalClipboardBackend :=
  match b.remoteTextFormat with
  | none => (none, b)
  | some _ => if b.delayFirstPaste then (some 500, { b with delayFirstPaste := false }) else (some 0, b)

def onRemoteCopy (b : LocalClipboardBackend) (formatIds : List Nat) : LocalClipboardBackend :=
  if !b.mode.allowsClientToHost then b
  else
    let b := { b with remoteTextFormat := selectTextFormat formatIds }
    match b.remoteTextFormat, b.pasteDelay with
    | some formatId, (some 0, b) => b.send (.sendInitiatePaste formatId)
    | some formatId, (some _, b) => { b with delayed := b.delayed ++ [formatId] }
    | _, (_, b) => b

def onFormatDataRequest (b : LocalClipboardBackend) (format : Nat) : LocalClipboardBackend :=
  if !b.mode.allowsHostToClient || !isTextFormat format then b.send (.sendFormatData none)
  else { b with tasks := b.tasks ++ [.sendLocalText] }

def onFormatDataResponse (b : LocalClipboardBackend) (status : FormatDataStatus) :
    LocalClipboardBackend :=
  if !b.mode.allowsClientToHost then b
  else
    match status with
    | .failed => b
    | .ok text => { b with tasks := b.tasks ++ [.writeText text] }

end LocalClipboardBackend

def localBackend : CliprdrBackend LocalClipboardBackend :=
  ⟨.onReady, .onRemoteCopy, .onFormatDataRequest, .onFormatDataResponse⟩

def maxHostClipboardBytes : Nat := 1024 * 1024

inductive ClipboardReq where
  | setText (text : String)
  | getText

structure Host where
  (contents lastWritten : Option String)
  /-- what the poll has seen last -/
  (last lastAdvertised : Option String)

def Host.localText (host : Host) (reachable : Bool) : Option String :=
  if reachable then host.contents else none

def Host.poll (host : Host) (reachable : Bool) : Bool × Host :=
  let current := host.localText reachable
  (current ≠ host.last && current.any (· ≠ "") && current ≠ host.lastWritten,
    { host with last := current })

def Host.selectionNotify (host : Host) (reachable : Bool) : Bool × Host :=
  let current := host.localText reachable
  if current.any (· ≠ "") then
    (current ≠ host.lastWritten && current ≠ host.lastAdvertised,
      { host with lastAdvertised := current })
  else (false, host)

structure Clipboard where
  channel : CliprdrChannel
  backend : LocalClipboardBackend
  frames : List Bytes
  requests : List ClipboardReq
  host : Host

inductive Action where
  | clientData (payload : Bytes)
  | encodeNext
  | delayOver
  | runTask (number : Nat)
  | worker (reachable : Bool)
  | hostCopy (contents : Option String)
  | otherSession (text : String)
  | poll (reachable : Bool)
  | selectionNotify (reachable : Bool)
  | sessionChanged

namespace Clipboard

def start (mode : ClipboardMode) (channelId userChannelId : UInt16) (host : Host) : Clipboard :=
  let backend : LocalClipboardBackend := ⟨mode, none, true, [], [], []⟩
  let opened := CliprdrChannel.new localBackend backend channelId userChannelId
  ⟨opened.1.1, opened.2, opened.1.2, [], host⟩

def watch (c : Clipboard) (seen : Bool × Host) : Clipboard :=
  if c.backend.mode.allowsHostToClient then
    { c with host := seen.2, backend := if seen.1 then c.backend.advertiseUnicodeFormats
      else c.backend }
  else c

def step (fromUtf8Lossy : Bytes → String) (c : Clipboard) : Action → Clipboard
  | .clientData payload =>
    let outcome := c.channel.onChannelData fromUtf8Lossy localBackend c.backend payload
    { c with channel := outcome.2.1, backend := outcome.2.2, frames := c.frames ++
      outcome.1.toOption.getD [] }
  | .encodeNext =>
    match c.backend.sent with
    | [] => c
    | message :: sent =>
      { c with backend := { c.backend with sent := sent }, frames := c.frames ++
        c.channel.encodeMessage message }
  | .delayOver =>
    match c.backend.delayed with
    | [] => c
    | formatId :: delayed =>
      { c with backend := { c.backend with delayed := delayed }.send (.sendInitiatePaste formatId) }
  | .runTask number =>
    let backend := { c.backend with tasks := c.backend.tasks.eraseIdx number }
    match c.backend.tasks[number]? with
    | none => c
    | some .sendLocalText => { c with backend := backend, requests := c.requests ++ [.getText] }
    | some (.writeText text) =>
      { c with
        backend := backend
        requests := c.requests ++ [.setText text]
        host := { c.host with lastWritten := some text } }
  | .worker reachable =>
    match c.requests with
    | [] => c
    | .getText :: requests =>
      { c with
        requests := requests
        backend := c.backend.send (.sendFormatData (c.host.localText reachable)) }
    | .setText text :: requests =>
      if reachable && text.utf8ByteSize ≤ maxHostClipboardBytes then
        { c with requests := requests, host := { c.host with contents := some text } }
      else { c with requests := requests }
  | .hostCopy contents => { c with host := { c.host with contents := contents } }
  | .otherSession text =>
    if c.backend.mode.allowsClientToHost then
      { c with host := { c.host with contents := some text, lastWritten := some text } }
    else c
  | .poll reachable => c.watch (c.host.poll reachable)
  | .selectionNotify reachable => c.watch (c.host.selectionNotify reachable)
  | .sessionChanged => c.watch (false, { c.host with last := none, lastAdvertised := none })

end Clipboard
end Kmsrdp.Source.Cliprdr.LocalClipboard
