import Wireline.Client.ConfigText
import Wireline.Client.Switchboard
import Wireline.Domain.Decimal
import Wireline.Domain.Geometry
import Wireline.Domain.Instant
import Wireline.Domain.Record
import Wireline.Simulation.Step
import Wireline.Transport.Patchbay
import Wireline.Proofs.Session.Moves
import Wireline.Proofs.Session.Control
import Wireline.Proofs.Session.Settling
import Wireline.Proofs.Session.Stepping
import Wireline.Proofs.Emitter
import Wireline.Proofs.EmitterRuns
import Wireline.Proofs.Delivery
import Wireline.Proofs.Session.Replies
import Wireline.Proofs.Session.ExactlyOnce
import Wireline.Proofs.Session.LiveTable
import Wireline.Proofs.Session.Notifications
import Wireline.Proofs.Session.Outbox
import Wireline.Proofs.Session.Turns
import Wireline.Proofs.Session.Restoring
import Wireline.Proofs.Session.Waiting
import Wireline.Proofs.Session.Coherence
import Wireline.Proofs.Session.Progress
import Wireline.Proofs.Session.RestoreOrder
import Wireline.Proofs.Session.Resumption
import Wireline.Proofs.Session.FrameOrder
import Wireline.Proofs.Session.Closings
import Wireline.Proofs.Session.Endings
import Wireline.Proofs.Session.Reconnection
import Wireline.Proofs.Wire.Grammar
import Wireline.Proofs.Wire.Completeness
import Wireline.Proofs.Wire.Soundness
import Wireline.Proofs.Wire.Acceptance
import Wireline.Proofs.Wire.Writing
import Wireline.Proofs.Wire.Nesting
import Wireline.Proofs.Wire.RoundTrip
import Wireline.Proofs.Wire.Filling
import Wireline.Proofs.Wire.Deferral
import Wireline.Proofs.Domain.Convention
import Wireline.Proofs.Session.Backlog
import Wireline.Proofs.Session.EarlyNotifications
import Wireline.Proofs.Wire.Splicing
import Wireline.Proofs.Wire.Staging
import Wireline.Proofs.Wire.Entries
import Wireline.Proofs.Wire.Hooks
import Wireline.Proofs.Wire.Truncation
import Wireline.Proofs.Wire.Reencoding
import Wireline.Proofs.Wire.Shortest
import Wireline.Proofs.Domain.Resending
import Wireline.Proofs.Session.Retirement
import Wireline.Proofs.Session.QueryEnd
import Wireline.Proofs.Session.StreamEvents
import Wireline.Proofs.Session.Attachment
import Wireline.Proofs.Session.LiveCallers
import Wireline.Proofs.Backoff
import Wireline.Proofs.Session.Course
import Wireline.Proofs.Session.Finality
import Wireline.Proofs.Session.Pacing
import Wireline.Proofs.Domain.Span
import Wireline.Proofs.Domain.Conversion
import Wireline.Proofs.Standing
import Wireline.Proofs.Domain.Calendar
import Wireline.Proofs.Domain.WordCalendar
import Wireline.Proofs.Text.Digits
import Wireline.Proofs.Domain.Instant
import Wireline.Proofs.Domain.Geometry
import Wireline.Proofs.Domain.Uuid
import Wireline.Proofs.Text.Ascii
import Wireline.Proofs.Text.Hexadecimal
import Wireline.Proofs.Domain.UuidSpelling
import Wireline.Proofs.Domain.Decimal
import Wireline.Proofs.Domain.Clock
import Wireline.Proofs.Domain.Ident
import Wireline.Proofs.Domain.Record
import Wireline.Proofs.Collecting
import Wireline.Proofs.EmitterInvariant
import Wireline.Proofs.Session.KeepAlive
import Wireline.Proofs.Session.LinkLoss
import Wireline.Proofs.Wire.Scan
import Wireline.Proofs.Wire.Cost
