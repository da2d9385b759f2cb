import Kmsrdp.Source.Connector.Acceptor
import Kmsrdp.Source.Server.Credentials
import Kmsrdp.Source.Server.Framing

/-!
# The handshake of a connection

Model of `negotiate` in `rdpcore-server/src/server/handshake.rs`. What TLS and CredSSP make of the
client's bytes is part of the `Client`.
-/
namespace Kmsrdp.Source.Server.Handshake
open Library.AsyncRead Library.ByteString Source.Connector Source.Server.Authorization
  Source.Server.Framing

inductive ServerError where
  | framing (error : FramingError)
  | unexpectedEof
  | connector (error : ConnectorError)
  | unexpectedAcceptorEvent (event : AcceptorEvent)
  | tls

structure HandshakeParams where
  desktopWidth : Nat
  desktopHeight : Nat
  requireNla : Bool
  tlsPublicKey : Bytes
  nlaCredentials : Option Credentials
  credentialValidator : Option CredentialValidator

structure Client where
  /-- The bytes in front of the TLS handshake. -/
  cleartext : Bytes
  /-- The bytes inside TLS, if the TLS handshake succeeds. -/
  plaintext : Option Bytes
  /-- `run_credssp_nla`: the account, and the bytes it leaves unread. -/
  runCredsspNla : Bytes → Credentials → Bytes → Option (String × Bytes)

inductive Event where
  | sent (pdus : List ServerPdu)
  | credsspSucceeded (user : String)
  | clientInfo (credentials : ClientCredentials)
  | recordFailure
  | authenticated
  deriving DecidableEq

abbrev Trace := List Event

abbrev Run := Except ServerError (Option (Acceptor × AcceptedConnection)) × Trace

def readFrame (stream : Bytes) : Except ServerError (Bytes × Bytes) :=
  match poll readTpktFrame stream with
  | .ready (.ok frame) rest => .ok (frame, rest)
  | .ready (.error error) _ => .error (.framing error)
  | .pending _ => .error .unexpectedEof

def sentIfAny (response : List ServerPdu) : Trace := if response = [] then [] else [.sent response]

/-- The loop behind TLS and CredSSP. A frame takes at least four bytes, so the length of the
stream bounds the number of rounds. -/
def handshakeLoop (params : HandshakeParams) (nlaAuthenticatedUser : Option String) :
    Nat → Acceptor → Bytes → Trace → Run
  | 0, _, _, trace => (.error .unexpectedEof, trace)
  | fuel + 1, acceptor, stream, trace =>
    match readFrame stream with
    | .error error => (.error error, trace)
    | .ok (frame, stream) =>
      match acceptor.step frame with
      | (.error error, _) => (.error (.connector error), trace)
      | (.ok result, acceptor) =>
        match result.event with
        | .none | .tlsUpgrade =>
          handshakeLoop params nlaAuthenticatedUser fuel acceptor stream
            (trace ++ sentIfAny result.response)
        | .clientInfoReceived credentials =>
          let trace := trace ++ [.clientInfo credentials]
          if clientInfoIsAuthorized nlaAuthenticatedUser params.credentialValidator
              credentials.username credentials.password credentials.domain then
            let trace := trace ++ [.authenticated] ++ sentIfAny result.response
            match acceptor.approveClientInfo with
            | (.error error, _) => (.error (.connector error), trace)
            | (.ok demandActive, acceptor) =>
              handshakeLoop params nlaAuthenticatedUser fuel acceptor stream
                (trace ++ [.sent demandActive])
          else (.ok none, trace ++ [.recordFailure])
        | .accepted accepted => (.ok (some (acceptor, accepted)), trace ++ sentIfAny result.response)
        | .rejected => (.ok none, trace)

def negotiateTls (params : HandshakeParams) (client : Client) (acceptor : Acceptor) (stream : Bytes)
    (trace : Trace) : Run :=
  if acceptor.requiresCredssp then
    match params.nlaCredentials with
    | none => (.ok none, trace)
    | some credentials =>
      if params.tlsPublicKey = [] then (.ok none, trace)
      else
        match client.runCredsspNla params.tlsPublicKey credentials stream with
        | some (user, stream) =>
          handshakeLoop params (some user) (stream.length + 1) acceptor stream
            (trace ++ [.credsspSucceeded user])
        | none => (.ok none, trace ++ [.recordFailure])
  else handshakeLoop params none (stream.length + 1) acceptor stream trace

def negotiate (params : HandshakeParams) (client : Client) : Run :=
  let acceptor := Acceptor.new params.desktopWidth params.desktopHeight params.requireNla
  match readFrame client.cleartext with
  | .error error => (.error error, [])
  | .ok (frame, _) =>
    match acceptor.step frame with
    | (.error error, _) => (.error (.connector error), [])
    | (.ok result, acceptor) =>
      let trace := [.sent result.response]
      match result.event with
      | .tlsUpgrade =>
        match client.plaintext with
        | none => (.error .tls, trace)
        | some stream => negotiateTls params client acceptor stream trace
      | .rejected => (.ok none, trace)
      | event => (.error (.unexpectedAcceptorEvent event), trace)

end Kmsrdp.Source.Server.Handshake
