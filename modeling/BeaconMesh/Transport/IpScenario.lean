import BeaconMesh.Notification.Published
import BeaconMesh.Transport.Ip

/-!
A scripted use of a transport for IP networks, with a listener to its announcements, on a clock
that counts milliseconds.
-/

set_option autoImplicit false
set_option relaxedAutoImplicit false

namespace BeaconMesh.Transport

open Notification (TransportCall Published PskEntry)

structure IpBench where
  transport : IpTransport
  binding : Except String Net.SocketAddress
  published : Published
  now : Nat

namespace IpBench

def announced (b : IpBench) : List PeerAvailability × IpBench :=
  let (events, transport) := b.transport.announce b.now
  (events, { b with transport := transport })

def call (b : IpBench) (c : TransportCall) : Except String Unit × IpBench :=
  let (result, transport) := b.transport.call b.binding b.now c
  (result, { b with transport := transport })

def advance (b : IpBench) (ms : Nat) : IpBench := { b with now := b.now + ms }

def resolve (b : IpBench) (identity : String) : Option PskEntry :=
  if b.transport.resolving then b.published.resolve identity else none

end IpBench

end BeaconMesh.Transport
