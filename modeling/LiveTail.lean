import LiveTail.Link.Listening
import LiveTail.Main
import LiveTail.View.Viewer
import LiveTail.Proofs.Rows.Window
import LiveTail.Proofs.Tail
import LiveTail.Proofs.Wire.Frame
import LiveTail.Proofs.Accounts
import LiveTail.Proofs.Overtaking
import LiveTail.Proofs.Decoding.Forwarder
import LiveTail.Proofs.Link.Feed
import LiveTail.Proofs.Rows.Covered
import LiveTail.Proofs.Rows.Measured
import LiveTail.Proofs.View.Measuring
import LiveTail.Proofs.View.Placing
import LiveTail.Proofs.View.Pane
import LiveTail.Proofs.Rows.Growing
import LiveTail.Proofs.View.Calm
import LiveTail.Proofs.Room
import LiveTail.Proofs.Decoding.Ordered
import LiveTail.Proofs.Link.Delivery
import LiveTail.Proofs.Packed
import LiveTail.Proofs.Time.Signed
import LiveTail.Proofs.Record.Read
import LiveTail.Proofs.Wire.Reencoded
import LiveTail.Proofs.Following
import LiveTail.Proofs.Paused
import LiveTail.Proofs.Link.Switchboard
import LiveTail.Proofs.Wire.Envelope
import LiveTail.Proofs.Sliding
import LiveTail.Proofs.Rows.Truthful
import LiveTail.Proofs.Rows.Anchored
import LiveTail.Proofs.Rows.Shown
import LiveTail.Proofs.Truncated
import LiveTail.Proofs.Wire.Truncated
import LiveTail.Proofs.Link.Pacing
import LiveTail.Proofs.View.Level
import LiveTail.Proofs.Text.Wrap
import LiveTail.Proofs.Rows.Scrolled
import LiveTail.Proofs.Record.Spelled
import LiveTail.Proofs.Demo.Frame
import LiveTail.Proofs.View.Line
import LiveTail.Proofs.Demo.Numbered
