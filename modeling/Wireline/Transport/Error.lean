/-!
# Why a transport fails

`TransportError` lists the causes and `TransportError.message` is their wording.
-/

set_option autoImplicit false
set_option relaxedAutoImplicit false

namespace Wireline

inductive TransportError
  /-- The other end cannot be reached, or does not take the connection. -/
  | refused (reason : String)
  /-- The other end was reached, but the two did not agree on how to talk. -/
  | handshake (reason : String)
  | closed
  /-- A frame is longer than the transport takes. -/
  | payloadTooLarge (length limit : Nat)
  deriving DecidableEq

def TransportError.message : TransportError → String
  | .refused reason => "connection refused: " ++ reason
  | .handshake reason => "handshake failed: " ++ reason
  | .closed => "link is closed"
  | .payloadTooLarge length limit =>
    "payload of " ++ toString length ++ " bytes exceeds max payload hint (" ++ toString limit ++
      " bytes)"

end Wireline
