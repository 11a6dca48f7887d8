import PortalNet.Activation
import PortalNet.Address
import PortalNet.Backend
import PortalNet.Backend.Loop
import PortalNet.Command
import PortalNet.Decimal.Shortest
import PortalNet.Decimal.Text
import PortalNet.Disk
import PortalNet.Error
import PortalNet.Floating.Arithmetic
import PortalNet.Floating.Format
import PortalNet.Geometry.Direction
import PortalNet.Geometry.Scalar
import PortalNet.Geometry.Vec3
import PortalNet.Geometry.Window
import PortalNet.Hex
import PortalNet.Json.Basic
import PortalNet.Json.Form
import PortalNet.Json.Literal
import PortalNet.Json.Printer
import PortalNet.Json.Source
import PortalNet.Json.Token
import PortalNet.Main
import PortalNet.Options
import PortalNet.Packet
import PortalNet.Packet.Json
import PortalNet.Portal.Archive
import PortalNet.Portal.Basic
import PortalNet.Portal.Record
import PortalNet.Portal.Storage
import PortalNet.Position
import PortalNet.Region
import PortalNet.Registry.Basic
import PortalNet.Registry.Link
import PortalNet.Relay
import PortalNet.Relay.Directory
import PortalNet.Relay.Loop
import PortalNet.Report
import PortalNet.Selection
import PortalNet.Session.Basic
import PortalNet.Session.Store
import PortalNet.Settings
import PortalNet.Table
import PortalNet.Traversal
import PortalNet.Uuid
import PortalNet.Wire.Codec
import PortalNet.Wire.Packet
import PortalNet.World
import PortalNet.Proofs.Session.Run
import PortalNet.Proofs.Session.Consistency
import PortalNet.Proofs.Session.Presence
import PortalNet.Proofs.Session.Admission
import PortalNet.Proofs.Session.Arrival
import PortalNet.Proofs.Registry.Outline
import PortalNet.Proofs.Backend.Tick
import PortalNet.Proofs.Delivery
import PortalNet.Proofs.Relay.Members
import PortalNet.Proofs.Relay.Routing
import PortalNet.Proofs.Backend.Run
import PortalNet.Proofs.Crossing
import PortalNet.Proofs.Relay.Run
import PortalNet.Proofs.Relay.Loop
import PortalNet.Proofs.Relay.Answers
import PortalNet.Proofs.Selection.Words
import PortalNet.Proofs.Session.Selected
import PortalNet.Proofs.Backend.Selected
import PortalNet.Proofs.Mirroring
import PortalNet.Proofs.Wire.Codec
import PortalNet.Proofs.Wire.Packet
import PortalNet.Proofs.Anchor
import PortalNet.Proofs.Registry.Steps
import PortalNet.Proofs.Registry.Holding
import PortalNet.Proofs.Registry.Order
import PortalNet.Proofs.Registry.Recall
import PortalNet.Proofs.Backend.Portals
import PortalNet.Proofs.Command
import PortalNet.Proofs.Session.Cooldown
import PortalNet.Proofs.Json.RoundTrip
import PortalNet.Proofs.Portal.Archive
import PortalNet.Proofs.Backend.Restart
import PortalNet.Proofs.Relay.Dispatch
import PortalNet.Proofs.Backend.Isolation
import PortalNet.Proofs.Backend.Loop
import PortalNet.Proofs.Healing
import PortalNet.Proofs.Registry.Cascade
import PortalNet.Proofs.Registry.Pairing
import PortalNet.Proofs.Floating.Order
import PortalNet.Proofs.Json.Number
import PortalNet.Proofs.Decimal.Readable
import PortalNet.Proofs.Portal.Saved
import PortalNet.Proofs.Backend.Transfers
import PortalNet.Proofs.Backend.Survival
import PortalNet.Proofs.Geometry.Passage
import PortalNet.Proofs.Geometry.Blocks
import PortalNet.Proofs.Registry.Activation
import PortalNet.Proofs.Passes
import PortalNet.Proofs.Selection.Picking
import PortalNet.Proofs.Selection.Linking
import PortalNet.Proofs.Selection.Measure
import PortalNet.Proofs.Session.Choice
import PortalNet.Proofs.Registry.Renaming
import PortalNet.Proofs.Relay.Hearing
import PortalNet.Proofs.Anchor.Edits
import PortalNet.Proofs.Command.Nearest
import PortalNet.Proofs.Portal.Tolerance
import PortalNet.Proofs.Registry.Clocks
