import Handoff.Address.Reader
import Handoff.Main
import Handoff.Script
import Handoff.Session.Sites
import Handoff.Proofs.Loopback.Change
import Handoff.Proofs.Loopback.Ownership
import Handoff.Proofs.Loopback.Wiring
import Handoff.Proofs.Loopback.Stream
import Handoff.Proofs.Exchange.Turns
import Handoff.Proofs.Loopback.Frame
import Handoff.Proofs.Exchange.Caller
import Handoff.Proofs.Exchange.Meeting
import Handoff.Proofs.Exchange.Crowd
import Handoff.Proofs.Exchange.Listening
import Handoff.Proofs.Exchange.Pair
import Handoff.Proofs.Exchange.Draining
import Handoff.Proofs.Loopback.Holders
import Handoff.Proofs.Loopback.Sections
import Handoff.Proofs.Loopback.Arrivals
import Handoff.Proofs.Loopback.Sound
import Handoff.Proofs.Loopback.Fates
import Handoff.Proofs.Loopback.Hangup
import Handoff.Proofs.Loopback.Closing
import Handoff.Proofs.Exchange.Handles
import Handoff.Proofs.Script.Plan
import Handoff.Proofs.Script.Server
import Handoff.Proofs.Script.Client
import Handoff.Proofs.Exchange.Lifecycle
import Handoff.Proofs.Exchange.Addresses
import Handoff.Proofs.Json.Grammar
import Handoff.Proofs.Json.Reading
import Handoff.Proofs.Json.Passing
import Handoff.Proofs.Address.Codec
import Handoff.Proofs.Address.Forms
import Handoff.Proofs.Address.Equality
import Handoff.Proofs.Exchange.OneWay
import Handoff.Proofs.Loopback.Binding
import Handoff.Proofs.Loopback.Isolation
import Handoff.Proofs.Loopback.Parting
import Handoff.Proofs.Loopback.Refusals
import Handoff.Proofs.Exchange.Opening
import Handoff.Proofs.Exchange.Delivery
import Handoff.Proofs.Script.Interruption
import Handoff.Proofs.Loopback.Allotments
import Handoff.Proofs.Loopback.Search
import Handoff.Proofs.Json.Members
import Handoff.Proofs.Exchange.Reports
import Handoff.Proofs.Address.Truncation
import Handoff.Proofs.Exchange.Backlogs
