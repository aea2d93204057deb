/-!
# Transport counters

What a transport counts about itself.
-/

set_option autoImplicit false
set_option relaxedAutoImplicit false

namespace Wireline

structure Health where
  connectAttempts : Nat := 0
  /-- Frames that were handed over. -/
  sent : Nat := 0
  /-- Frames that could not be handed over. -/
  sendFailures : Nat := 0
  received : Nat := 0
  deriving DecidableEq

namespace Health

def recordConnectAttempt (health : Health) : Health :=
  { health with connectAttempts := health.connectAttempts + 1 }

def recordSent (health : Health) : Health :=
  { health with sent := health.sent + 1 }

def recordSendFailure (health : Health) : Health :=
  { health with sendFailures := health.sendFailures + 1 }

def recordReceived (health : Health) : Health :=
  { health with received := health.received + 1 }

end Health

end Wireline
