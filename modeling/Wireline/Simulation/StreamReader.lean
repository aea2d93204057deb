import Wireline.Client.Live

/-!
# Reading streams

A reader takes the events of a stream in order, each once. A stream has ended for it after the
closing event.
-/

set_option autoImplicit false
set_option relaxedAutoImplicit false

namespace Wireline

/-- What a reader is shown. -/
inductive ReaderStyle
  | events
  /-- Notifications alone. The closing event is shown as the end. -/
  | messages
  deriving DecidableEq

/-- What a reader gets. -/
inductive Reading
  | event (event : LiveEvent)
  | ended

/-- What a reader gets for one event. -/
def ReaderStyle.readings (style : ReaderStyle) : LiveEvent → List Reading
  | .message message => [.event (.message message)]
  | .closed reason =>
    match style with
    | .events => [.event (.closed reason), .ended]
    | .messages => [.ended]

/-- A reader of the stream with a handle. -/
structure StreamReader where
  handle : Nat
  /-- How many events were read. -/
  position : Nat := 0

/-- Reads all that has come in. -/
def StreamReader.read (reader : StreamReader) (style : ReaderStyle) (stream : LiveStream) :
    StreamReader × List Reading :=
  ({ reader with position := stream.events.length },
    (stream.events.drop reader.position).flatMap style.readings)

end Wireline
