import Wireline.Client.Backoff

/-!
# Configurations

How a client keeps its connection alive and how much it may hold, how it reconnects, and what it
selects and presents once it is connected. `ClientConfig.validate` tells a configuration that a
client can work with from one that it cannot, and names the first fault.
-/

set_option autoImplicit false
set_option relaxedAutoImplicit false

namespace Wireline

structure ClientConfig where
  keepAlive : Span := .ofSeconds 30
  reconnect : BackoffPolicy := {}
  /-- Room for calls between the callers and the connection. -/
  outboundCapacity : Nat := 256
  /-- Room for notifications that no stream listens to yet. -/
  notificationCapacity : Nat := 1024
  namespaceName : Option String := none
  database : Option String := none
  token : Option String := none

namespace ClientConfig

/-- The first fault of a configuration, if it has one. -/
def fault? (config : ClientConfig) : Option ConfigFault :=
  let policy := config.reconnect
  if config.keepAlive = .zero then some .noKeepAlive
  else if config.outboundCapacity = 0 then some .noOutboundQueue
  else if config.notificationCapacity = 0 then some .noNotificationBuffer
  else if !Binary64.one.le policy.multiplier then some (.multiplierBelowOne policy.multiplier)
  else if !(Binary64.zero.le policy.jitter && policy.jitter.lt .one) then
    some (.jitterOutOfRange policy.jitter)
  else if policy.window = .zero ∨ policy.windowAttempts = 0 then some .noReconnectWindow
  else none

def validate (config : ClientConfig) : Except ClientError Unit :=
  match config.fault? with
  | some fault => .error (.config fault)
  | none => .ok ()

end ClientConfig

end Wireline
