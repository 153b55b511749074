import SharedBoard.Json.Writer
import SharedBoard.Session
import SharedBoard.Settings
import SharedBoard.Snapshot
import SharedBoard.Transport
import SharedBoard.Wire.Command
import SharedBoard.Proofs.OrderKey.Binary64
import SharedBoard.Proofs.Plan.Agreement
import SharedBoard.Proofs.Session.WellFormed
import SharedBoard.Proofs.Session.Rollback
import SharedBoard.Proofs.Session.Convergence
import SharedBoard.Proofs.Store.Posts
import SharedBoard.Proofs.Store.Idempotence
import SharedBoard.Proofs.Session.Pending
import SharedBoard.Proofs.Session.Refusal
import SharedBoard.Proofs.Plan.Removal
import SharedBoard.Proofs.Session.Survival
import SharedBoard.Proofs.Plan.Looks
import SharedBoard.Proofs.Session.Answers
import SharedBoard.Proofs.Transport
import SharedBoard.Proofs.Session.Presence
import SharedBoard.Proofs.Session.Authority
import SharedBoard.Proofs.Session.Handshake
import SharedBoard.Proofs.Client.Queues
import SharedBoard.Proofs.Client.Delivery
import SharedBoard.Proofs.Client.Reconnect
import SharedBoard.Proofs.Transport.Protocol
import SharedBoard.Proofs.Wire.RoundTrip
import SharedBoard.Proofs.Wire.Reports
import SharedBoard.Proofs.Session.Frames
import SharedBoard.Proofs.OrderKey.Dense
import SharedBoard.Proofs.Store.Placement
import SharedBoard.Proofs.Store.Upsert
import SharedBoard.Proofs.Store.Frame
import SharedBoard.Proofs.Plan.Dropped
import SharedBoard.Proofs.Plan.Restack
import SharedBoard.Proofs.Plan.Landing
import SharedBoard.Proofs.Store.Independence
import SharedBoard.Proofs.Session.Correlation
import SharedBoard.Proofs.Session.Gating
import SharedBoard.Proofs.Store.Participants
import SharedBoard.Proofs.Session.Attendance
import SharedBoard.Proofs.Decimal.Integer
import SharedBoard.Proofs.Text.Spelling
import SharedBoard.Proofs.Uuid.Text
import SharedBoard.Proofs.Settings
import SharedBoard.Proofs.Session.LifeCycle
import SharedBoard.Proofs.Store.Marks
import SharedBoard.Proofs.Session.Typing
import SharedBoard.Proofs.Store.Difference
import SharedBoard.Proofs.Store.Sameness
import SharedBoard.Proofs.Canvas.Height
import SharedBoard.Proofs.OrderKey.Insertion
import SharedBoard.Proofs.Ledger.Bookkeeping
import SharedBoard.Proofs.Canvas.Grid
