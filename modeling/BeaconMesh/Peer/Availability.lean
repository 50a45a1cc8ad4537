import BeaconMesh.Net.Address
import BeaconMesh.Peer.Identifier

/-!
What a transport tells about a peer: that it can be reached, and where, or that it is gone. A
listener to a stream of such events has room for so many that it has not read yet; of more than that
the oldest are lost.
-/

set_option autoImplicit false
set_option relaxedAutoImplicit false

namespace BeaconMesh

inductive ConnectionType where
  | multipeerConnectivity
  | bluetoothAndroid
  | tcpNative
  deriving DecidableEq, Repr, Inhabited

namespace ConnectionType

def name : ConnectionType → String
  | .multipeerConnectivity => "multipeerConnectivity"
  | .bluetoothAndroid => "bluetoothAndroid"
  | .tcpNative => "tcpNative"

def ofName? (name : String) : Option ConnectionType :=
  if name = "multipeerConnectivity" then some .multipeerConnectivity
  else if name = "bluetoothAndroid" then some .bluetoothAndroid
  else if name = "tcpNative" then some .tcpNative
  else none

def isIp : ConnectionType → Bool
  | .tcpNative => true
  | _ => false

/-- The type that a JSON value names, by a string or by the only member of an object, a null. -/
def ofJson? : Json.Value → Option ConnectionType
  | .object [(name, .null)] => do ofName? (String.ofList (← Json.unescape name))
  | v => do ofName? (← v.text?)

end ConnectionType

structure PeerAvailability where
  identifier : PeerIdentifier
  available : Bool
  host : String
  port : UInt16
  connection : ConnectionType
  deriving DecidableEq, Repr, Inhabited

namespace PeerAvailability

def tcp (identifier : PeerIdentifier) (host : String) (port : UInt16) : PeerAvailability :=
  ⟨identifier, true, host, port, .tcpNative⟩

def unavailable (a : PeerAvailability) : PeerAvailability := { a with available := false }

def uuid (a : PeerAvailability) : String := a.identifier.uuid

def generation (a : PeerAvailability) : UInt32 := a.identifier.generation

/-- Host and port for a connection; a host with a colon in it stands in brackets. -/
def address (a : PeerAvailability) : String :=
  let host := if a.host.toList.contains ':' then "[" ++ a.host ++ "]" else a.host
  host ++ ":" ++ Text.decimal a.port.toNat

def beaconPath : String := "/NotificationBeacons"

def beaconUrl (a : PeerAvailability) : String := "http://" ++ a.address ++ beaconPath

/-- A peer known beforehand: its uuid is the text of its address. -/
def ofStaticPeer (peer : Net.SocketAddress) (generation : UInt32) : PeerAvailability :=
  tcp ⟨peer.text, generation⟩ peer.hostText peer.port

def toJson (a : PeerAvailability) : Json.Value :=
  .object [("peerIdentifier".toList, a.identifier.toJson),
    ("peerAvailable".toList, .bool a.available), ("hostAddress".toList, .ofText a.host),
    ("portNumber".toList, .ofNat a.port.toNat),
    ("connectionType".toList, .ofText a.connection.name)]

def ofFields? (identifier available host port connection : Json.Value) :
    Option PeerAvailability := do
  return ⟨← PeerIdentifier.ofJson? identifier, ← available.bool?, ← host.text?,
    UInt16.ofNat (← port.nat? 65535), ← ConnectionType.ofJson? connection⟩

/-- The event that a JSON value describes, as an object or as the list of its fields. -/
def ofJson? : Json.Value → Option PeerAvailability
  | .object members => do
    let named ← Json.Value.named? members
    ofFields? (← Json.Value.member? "peerIdentifier" named)
      (← Json.Value.member? "peerAvailable" named) (← Json.Value.member? "hostAddress" named)
      (← Json.Value.member? "portNumber" named) (← Json.Value.member? "connectionType" named)
  | .array [identifier, available, host, port, connection] =>
    ofFields? identifier available host port connection
  | _ => none

def ofJsonText? (s : String) : Option PeerAvailability := do ofJson? (← Json.Value.ofText? s)

end PeerAvailability

/-- The events about peers that a listener has not read yet, oldest first. -/
structure Inbox where
  events : List PeerAvailability
  closed : Bool
  deriving DecidableEq

namespace Inbox

def fresh (closed : Bool) : Inbox := ⟨[], closed⟩

/-- Puts an event in; only the newest ones are kept, as many as there is room for. -/
def push (room : Nat) (b : Inbox) (event : PeerAvailability) : Inbox :=
  let events := b.events ++ [event]
  { b with events := events.drop (events.length - room) }

end Inbox

end BeaconMesh
