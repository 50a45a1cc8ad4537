import BeaconMesh.Config
import BeaconMesh.Notification.Client
import BeaconMesh.Notification.Fetch
import BeaconMesh.Notification.Server
import BeaconMesh.Transport.Ip

/-!
A node: a server and a client of one device on one transport for IP networks, put together as its
configuration says. It hands out beacons for those it is to notify, looks for beacons of those in
its address book, and in the end undoes both.
-/

set_option autoImplicit false
set_option relaxedAutoImplicit false

namespace BeaconMesh

open Notification

structure Node where
  config : Config
  keys : KeyPair
  server : Server
  client : Client
  transport : IpTransport

namespace Node

structure World where
  binding : Except String Net.SocketAddress
  request : String → Except String HttpReply
  clock : Instant
  now : Nat

/-- A node that has not been used; its keys are made up if none are configured. -/
def ofConfig (config : Config) (e : Entropy) : Node × Entropy :=
  let (keys, e) := match config.secret with
    | some secret => (KeyPair.ofSecret secret, e)
    | none => KeyPair.generate e
  (⟨config, keys, .fresh keys config.beaconTtl, .fresh keys,
    .fresh config.httpAddress config.peers config.announceInterval⟩, e)

def call (n : Node) (w : World) (c : TransportCall) : Except String Unit × Node :=
  let (outcome, transport) := n.transport.call w.binding w.now c
  (outcome, { n with transport := transport })

def carry (n : Node) (w : World) (progress : Server.Progress) : Except Fault Unit × Node :=
  match progress with
  | .done result => (result, n)
  | .waits pending =>
    let (outcome, n) := n.call w pending.call
    let resumed := n.server.resume pending outcome
    carry { n with server := resumed.2 } w resumed.1
termination_by progress.callsLeft
decreasing_by exact Server.callsLeft_resume ..

def serve (n : Node) (w : World) (command : Server.Command) (e : Entropy) :
    (Except Fault Unit × Node) × Entropy :=
  let ((progress, server), e) := n.server.begin command w.clock e
  (carry { n with server := server } w progress, e)

def look (n : Node) (w : World) (command : Client.Command) : Except Fault Unit × Node :=
  let (pending, client) := n.client.begin command false
  let (outcome, n) := { n with client := client }.call w pending.call
  let (result, client) := n.client.resume pending outcome
  (result, { n with client := client })

def start (n : Node) (w : World) (e : Entropy) : (Except Fault Unit × Node) × Entropy :=
  match n.serve w (.start n.config.notify) e with
  | ((.error fault, n), e) => ((.error fault, n), e)
  | ((.ok (), n), e) => (n.look w (.start n.config.addressBook), e)

def shutDown (n : Node) (w : World) : Except Fault Unit × Node :=
  let (outcome, n) := n.call w .shutdown
  (outcome.mapError .transport, n)

def stop (n : Node) (w : World) (e : Entropy) : (Except Fault Unit × Node) × Entropy :=
  match n.look w .stop with
  | (.error fault, n) => ((.error fault, n), e)
  | (.ok (), n) =>
    match n.serve w .stop e with
    | ((.error fault, n), e) => ((.error fault, n), e)
    | ((.ok (), n), e) => (n.shutDown w, e)

def fetched (n : Node) (w : World) (peer : PeerAvailability) : FetchResult :=
  match Notification.fetch w.request peer with
  | .error fault => .error fault
  | .ok none => .ok none
  | .ok (some blob) =>
    match Beacon.parse blob n.keys w.clock with
    | .error fault => .error (.beacon fault)
    | .ok parsed => .ok (some parsed)

def hear (n : Node) (w : World) (peer : PeerAvailability) : Option Discovery × Node :=
  match n.client.running with
  | none => (none, n)
  | some listener =>
    let (order, loop) := listener.loop.onAvailability peer
    let ((found, _), loop) := match order with
      | some (.begin fetch) => loop.onFetched fetch (n.fetched w peer)
      | _ => ((none, none), loop)
    (found, { n with client := { n.client with running := some { listener with loop := loop } } })

def hearAll (n : Node) (w : World) : List PeerAvailability → List Discovery × Node
  | [] => ([], n)
  | peer :: rest =>
    let (found, n) := n.hear w peer
    let (later, n) := hearAll n w rest
    (found.toList ++ later, n)

/-- Lets the announcements that are due be heard, and gives what is found by them. -/
def discover (n : Node) (w : World) : List Discovery × Node :=
  let (events, transport) := n.transport.announce w.now
  { n with transport := transport }.hearAll w events

/-- Runs the node from its start until it is interrupted, and gives the node as it was at work, what
it found there, and how it all ended. -/
def run (n : Node) (w : World) (e : Entropy) : Node × List Discovery × Except Fault Unit × Node :=
  match n.start w e with
  | ((.error fault, n), _) => (n, [], .error fault, n)
  | ((.ok (), n), e) =>
    let (found, n) := n.discover w
    let ((result, stopped), _) := n.stop w e
    (n, found, result, stopped)

end Node

end BeaconMesh
