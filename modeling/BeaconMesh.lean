import BeaconMesh.Beacon.Generate
import BeaconMesh.Beacon.Parse
import BeaconMesh.Config
import BeaconMesh.Peer.Availability
import BeaconMesh.Round.Config
import BeaconMesh.Round.Context
import BeaconMesh.Queue.Scenario
import BeaconMesh.Quit.Scenario
import BeaconMesh.Notification.ServerScenario
import BeaconMesh.Notification.ClientScenario
import BeaconMesh.Round.Scenario
import BeaconMesh.Round.Tasks
import BeaconMesh.Transport.IpScenario
import BeaconMesh.Exchange
import BeaconMesh.Proofs.Bytes.Layout
import BeaconMesh.Proofs.Crypto.Sealing
import BeaconMesh.Proofs.Beacon.Records
import BeaconMesh.Proofs.Key.HashText
import BeaconMesh.Proofs.Beacon.RoundTrip
import BeaconMesh.Proofs.Notification.Operation
import BeaconMesh.Proofs.Notification.PresharedKey
import BeaconMesh.Proofs.Notification.Announcing
import BeaconMesh.Proofs.Notification.Fetching
import BeaconMesh.Proofs.Queue.Isolation
import BeaconMesh.Proofs.Round.Barrier
import BeaconMesh.Proofs.Round.Dialing
import BeaconMesh.Proofs.Round.Completion
import BeaconMesh.Proofs.Round.Counting
import BeaconMesh.Proofs.Notification.Consistency
import BeaconMesh.Proofs.Notification.Breakdowns
import BeaconMesh.Proofs.Notification.Generations
import BeaconMesh.Proofs.Round.Endings
import BeaconMesh.Proofs.Round.Rounds
import BeaconMesh.Proofs.Quit.Raising
import BeaconMesh.Proofs.Quit.Timers
import BeaconMesh.Proofs.Notification.Lifecycle
import BeaconMesh.Proofs.Round.Handshake
import BeaconMesh.Proofs.Beacon.Reading
import BeaconMesh.Proofs.Beacon.Making
import BeaconMesh.Proofs.Beacon.Expiry
import BeaconMesh.Proofs.Round.Tasks
import BeaconMesh.Proofs.Round.Exchanges
import BeaconMesh.Proofs.Round.Teardown
import BeaconMesh.Proofs.Queue.Routing
import BeaconMesh.Proofs.Key.Identity
import BeaconMesh.Proofs.Round.Codec
import BeaconMesh.Proofs.Peer.IdentifierText
import BeaconMesh.Proofs.Peer.AvailabilityText
import BeaconMesh.Proofs.Peer.StaticPeer
import BeaconMesh.Proofs.Peer.DialText
import BeaconMesh.Proofs.Transport.Announcements
import BeaconMesh.Proofs.Config.Variables
