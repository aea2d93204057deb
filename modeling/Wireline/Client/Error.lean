import Wireline.Binary64.Shortest
import Wireline.Domain.Error
import Wireline.Text.Quoted
import Wireline.Transport.Error
import Wireline.Value.Describe

/-!
# Why a call fails

`ClientError` lists what a caller of the client can be told instead of an answer, and
`ClientError.message` is the wording. Faults of the server's frames and of a configuration are
causes of their own.
-/

set_option autoImplicit false
set_option relaxedAutoImplicit false

namespace Wireline

/-- Why a connection was given up with all that was pending on it. -/
inductive DisconnectReason
  /-- The client was closed, or nobody holds it any more. -/
  | closed
  /-- The link is gone and reconnecting is disabled. -/
  | transportLost
  /-- No further attempt to reconnect is allowed. -/
  | reconnectExhausted
  /-- The server sent a frame that makes no sense. -/
  | protocol
  deriving DecidableEq

def DisconnectReason.message : DisconnectReason → String
  | .closed => "connection closed"
  | .transportLost => "transport lost"
  | .reconnectExhausted => "reconnection attempts exhausted"
  | .protocol => "protocol error"

/-- What is wrong with something the server sent. -/
inductive ProtocolFault
  | notAMap
  | invalidReplyId (id : Value)
  | errorWithoutCode
  | errorWithoutMessage
  /-- An error that belongs to no request. -/
  | uncorrelatedError (code : Int64) (message : String)
  | unexpectedResponse
  | notificationWithoutId
  | notificationId (error : DomainError)
  | notificationWithoutAction
  | unknownAction (action : String)
  /-- The answer to a live query is no id. -/
  | liveId (error : DomainError)
  | versionNotText (version : Value)
  | other (description : String)

def ProtocolFault.message : ProtocolFault → String
  | .notAMap => "frame is not a map"
  | .invalidReplyId id => "invalid reply id " ++ id.describe
  | .errorWithoutCode => "error object without integer code"
  | .errorWithoutMessage => "error object without message"
  | .uncorrelatedError code message =>
    "uncorrelated server error " ++ toString code.toInt ++ ": " ++ message
  | .unexpectedResponse => "unexpected server response"
  | .notificationWithoutId => "notification without id"
  | .notificationId error => "notification id: " ++ error.message
  | .notificationWithoutAction => "notification without action"
  | .unknownAction action => "unknown live action " ++ Text.quoted action
  | .liveId error => "live query id: " ++ error.message
  | .versionNotText version => "version is not text: " ++ version.describe
  | .other description => description

/-- What is wrong with a configuration. -/
inductive ConfigFault
  | noKeepAlive
  | noOutboundQueue
  | noNotificationBuffer
  | multiplierBelowOne (multiplier : Binary64)
  | jitterOutOfRange (jitter : Binary64)
  | noReconnectWindow
  /-- The file cannot be read. -/
  | missingFile (path : String)
  /-- The text is not a configuration. -/
  | malformed
  | other (description : String)

def ConfigFault.message : ConfigFault → String
  | .noKeepAlive => "keepalive_interval must be non-zero"
  | .noOutboundQueue => "outbound_queue_capacity must be non-zero"
  | .noNotificationBuffer => "notification_buffer_capacity must be non-zero"
  | .multiplierBelowOne multiplier =>
    "retry_delay_multiplier must be at least 1, got " ++ multiplier.text .plain
  | .jitterOutOfRange jitter =>
    "retry_delay_jitter must be in [0, 1), got " ++ jitter.text .plain
  | .noReconnectWindow => "reconnect window must allow at least one reconnection"
  | .missingFile path => path ++ ": No such file or directory (os error 2)"
  | .malformed => "malformed configuration text"
  | .other description => description

inductive ClientError
  | transport (error : TransportError)
  | wire (error : WireError)
  /-- The server sent something that makes no sense. -/
  | protocol (fault : ProtocolFault)
  /-- The server answered with an error of its own. -/
  | server (code : Int64) (message : String)
  | disconnected (reason : DisconnectReason)
  | reconnectExhausted
  | unavailable
  | config (fault : ConfigFault)

def ClientError.message : ClientError → String
  | .transport error => "transport error: " ++ error.message
  | .wire error => "codec error: " ++ error.message
  | .protocol fault => "protocol error: " ++ fault.message
  | .server code message => "server error " ++ toString code.toInt ++ ": " ++ message
  | .disconnected reason => "disconnected: " ++ reason.message
  | .reconnectExhausted => "reconnection attempts exhausted"
  | .unavailable => "connection unavailable"
  | .config fault => "invalid configuration: " ++ fault.message

end Wireline
