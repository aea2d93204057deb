import Wireline.Client.Error
import Wireline.Domain.Span

/-!
# Backing off

After a link is lost, attempts to reconnect are made after delays that grow by a factor from one
attempt to the next, up to a longest delay. Two limits apply: on the attempts since the last
connection, and on the connections made within a window of time (`Backoff.allow`).

What chance adds to a delay is not decided here: it comes in as a number that chance draws, and
counts as far as the policy lets it (`BackoffPolicy.shareOf`). How long a delay the timer can wait
for is not decided here either (`Backoff.pause`).

Times are nanoseconds on a clock that never runs backwards.
-/

set_option autoImplicit false
set_option relaxedAutoImplicit false

namespace Wireline

/-- When and how often to reconnect. -/
structure BackoffPolicy where
  enabled : Bool := true
  /-- Attempts allowed since the last connection. -/
  attempts : Nat := 5
  /-- Connections allowed within the window. -/
  windowAttempts : Nat := 20
  window : Span := .ofSeconds 300
  retryDelay : Span := .ofSeconds 1
  multiplier : Binary64 := .ofNat 2
  /-- The share of a delay by which chance may shorten or lengthen it. -/
  jitter : Binary64 := .ofRatio false 1 10
  retryDelayMax : Span := .ofSeconds 60

/-- The policy of never reconnecting. -/
def BackoffPolicy.disabled : BackoffPolicy :=
  { enabled := false }

/-- A span as a number of seconds. Whole seconds and the rest are rounded on their own, then their
sum. -/
def Span.toSeconds (span : Span) : Binary64 :=
  .add (.ofNat span.seconds) (.ofRatio false span.subsecond nanosPerSecond)

namespace BackoffPolicy

/-- The largest power the multiplier is raised to. -/
def maxExponent : Nat := 0x7fffffff

/-- The share of a delay that chance adds to it, for a number that chance draws. Without jitter
nothing is drawn, and what is beyond the jitter is never drawn and counts for nothing. -/
def shareOf (policy : BackoffPolicy) (draw : Binary64) : Binary64 :=
  if Binary64.zero.lt policy.jitter && draw.abs.le policy.jitter then draw else .zero

/-- The delay before an attempt, where chance adds a share of it. What is not a finite number counts
as the longest delay. There is no delay if it comes to more seconds than a span can have, which
takes a longest delay that is rounded up to as many. -/
def delayFor (policy : BackoffPolicy) (attempt : Nat) (share : Binary64) : Option Span :=
  let longest := policy.retryDelayMax.toSeconds
  let delay :=
    Binary64.mul
      (.mul policy.retryDelay.toSeconds (.pow policy.multiplier (min attempt maxExponent)))
      (.add .one share)
  let seconds :=
    if !delay.isFinite then longest
    else if delay.lt .zero then .zero
    else if longest.lt delay then longest
    else delay
  Span.ofNanoseconds? seconds.toNanoseconds

end BackoffPolicy

/-- The attempts and connections that count against the limits of a policy. -/
structure Backoff where
  policy : BackoffPolicy
  /-- Attempts since the last connection. -/
  attempts : Nat := 0
  /-- When connections were made within the window, the oldest first. -/
  history : List Nat := []

namespace Backoff

/-- How long a timer waits at most unless something else is known of it: thirty years of 365 days. -/
def longestPause : Span :=
  .ofSeconds (30 * 365 * 86400)

/-- How long to pause for a delay, with a timer that cuts short what is longer than it can wait. -/
def pause (delay : Span) (longest : Span := longestPause) : Span :=
  if longest.nanoseconds < delay.nanoseconds then longest else delay

/-- The number of attempts is not counted further than this. -/
def maxAttempts : Nat := 0xffffffff

/-- Forgets the connections that are older than the window. -/
def prune (backoff : Backoff) (now : Nat) : Backoff :=
  { backoff with
    history := backoff.history.dropWhile fun time ↦
      decide (backoff.policy.window.nanoseconds ≤ now - time) }

/-- Whether the limits permit another attempt. Connections older than the window are forgotten. -/
def allow (backoff : Backoff) (now : Nat) : Backoff × Bool :=
  let pruned := backoff.prune now
  (pruned, pruned.policy.enabled && decide (pruned.attempts < pruned.policy.attempts) &&
    decide (pruned.history.length < pruned.policy.windowAttempts))

/-- The delay before the next attempt, for a number that chance draws. -/
def nextDelay (backoff : Backoff) (draw : Binary64) : Option Span :=
  backoff.policy.delayFor (min (backoff.attempts + 1) maxAttempts) (backoff.policy.shareOf draw)

/-- Counts an attempt, if one is permitted, and gives the delay before it. An attempt that is
permitted may yet have no delay, and is not counted then. -/
def beginAttempt (backoff : Backoff) (now : Nat) (draw : Binary64) :
    Backoff × Except ClientError (Option Span) :=
  match backoff.allow now with
  | (pruned, true) =>
    match pruned.nextDelay draw with
    | some delay => ({ pruned with attempts := pruned.attempts + 1 }, .ok (some delay))
    | none => (pruned, .ok none)
  | (pruned, false) => (pruned, .error .reconnectExhausted)

/-- Records a connection. -/
def reset (backoff : Backoff) (now : Nat) : Backoff :=
  let pruned := backoff.prune now
  { pruned with attempts := 0, history := pruned.history ++ [now] }

end Backoff

end Wireline
