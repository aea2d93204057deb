import Wireline.Client.Config
import Wireline.Domain.SpelledSpan
import Wireline.Toml.Document

/-!
# Configurations as text

A configuration can be written as a TOML text. What is not mentioned keeps its usual value, and
names that mean nothing are ignored. Spans of time are spelled out, and an integer may stand for a
float. The table of the reconnection policy may also be given as a list of its values in order.
-/

set_option autoImplicit false
set_option relaxedAutoImplicit false

namespace Wireline

/-! ### Single values -/

namespace Toml

/-- The value under a name in a table. -/
def field? (entries : List (String × Toml)) (name : String) : Option Toml :=
  (entries.find? (·.1 == name)).map Prod.snd

def toText? : Toml → Option String
  | .text t => some t
  | _ => none

def toFlag? : Toml → Option Bool
  | .flag b => some b
  | _ => none

/-- A count that fits a word of a number of bits. -/
def toCount? (bits : Nat) : Toml → Option Nat
  | .integer n => if 0 ≤ n ∧ n < (1 <<< bits : Nat) then some n.toNat else none
  | _ => none

def toFloat? : Toml → Option Binary64
  | .float x => some x
  | .integer n => some (.ofInt n)
  | _ => none

def toSpan? (value : Toml) : Option Span :=
  value.toText?.bind SpelledSpan.parse?

/-- What a value that may be missing stands for: the usual value if it is missing, and nothing if it
cannot be read. -/
def orElse? {α : Type} (read : Toml → Option α) (usual : α) : Option Toml → Option α
  | none => some usual
  | some value => read value

end Toml

/-! ### The reconnection policy -/

namespace BackoffPolicy

/-- The names of the fields in the order of a list of values. -/
def fieldNames : List String :=
  ["enabled", "attempts", "window_attempts", "window", "retry_delay", "retry_delay_multiplier",
    "retry_delay_jitter", "retry_delay_max"]

/-- Reads a policy from values under the names of its fields. -/
def ofFields? (entries : List (String × Toml)) : Option BackoffPolicy := do
  let usual : BackoffPolicy := {}
  let field := Toml.field? entries
  return {
    enabled := ← Toml.orElse? Toml.toFlag? usual.enabled (field "enabled")
    attempts := ← Toml.orElse? (Toml.toCount? 32) usual.attempts (field "attempts")
    windowAttempts :=
      ← Toml.orElse? (Toml.toCount? 32) usual.windowAttempts (field "window_attempts")
    window := ← Toml.orElse? Toml.toSpan? usual.window (field "window")
    retryDelay := ← Toml.orElse? Toml.toSpan? usual.retryDelay (field "retry_delay")
    multiplier := ← Toml.orElse? Toml.toFloat? usual.multiplier (field "retry_delay_multiplier")
    jitter := ← Toml.orElse? Toml.toFloat? usual.jitter (field "retry_delay_jitter")
    retryDelayMax := ← Toml.orElse? Toml.toSpan? usual.retryDelayMax (field "retry_delay_max") }

/-- Reads a policy from a table or from a list of values. A moment counts as a table without any of
the names. -/
def ofToml? : Toml → Option BackoffPolicy
  | .table entries => ofFields? entries
  | .list items => ofFields? (fieldNames.zip items)
  | .moment => ofFields? []
  | _ => none

end BackoffPolicy

/-! ### Configurations -/

namespace ClientConfig

/-- Reads a configuration from values under the names of its fields. -/
def ofFields? (entries : List (String × Toml)) : Option ClientConfig := do
  let usual : ClientConfig := {}
  let field := Toml.field? entries
  let text? (value : Toml) : Option (Option String) := value.toText?.map some
  return {
    keepAlive := ← Toml.orElse? Toml.toSpan? usual.keepAlive (field "keepalive_interval")
    reconnect := ← Toml.orElse? BackoffPolicy.ofToml? usual.reconnect (field "reconnect")
    outboundCapacity :=
      ← Toml.orElse? (Toml.toCount? 64) usual.outboundCapacity (field "outbound_queue_capacity")
    notificationCapacity :=
      ← Toml.orElse? (Toml.toCount? 64) usual.notificationCapacity
        (field "notification_buffer_capacity")
    namespaceName := ← Toml.orElse? text? usual.namespaceName (field "namespace")
    database := ← Toml.orElse? text? usual.database (field "database")
    token := ← Toml.orElse? text? usual.token (field "token") }

/-- Reads a configuration that a client can work with. -/
def parse (text : String) : Except ClientError ClientConfig := do
  match (Toml.Grammar.parse? text).bind ofFields? with
  | some config =>
    config.validate
    return config
  | none => throw (.config .malformed)

end ClientConfig

end Wireline
