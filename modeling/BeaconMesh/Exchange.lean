import BeaconMesh.Node

/-!
What one node learns of another: a host hands out beacons over HTTP, and a guest that knows its
address looks for those in its address book. Both ends of the secret that the guest finds are
seen here, the guest's report and what the host finds under the guest's identity.
-/

set_option autoImplicit false
set_option relaxedAutoImplicit false

namespace BeaconMesh

open Notification

structure Exchange where
  reply : HttpReply
  found : List Discovery
  entry : Option PskEntry

namespace Exchange

def prepare (host : Node) (w : Node.World) (halted : Bool) (e : Entropy) :
    (Except Fault Unit × Node) × Entropy :=
  match host.serve w (.start host.config.notify) e with
  | ((.error fault, host), e) => ((.error fault, host), e)
  | ((.ok (), host), e) => if halted then host.serve w .stop e else ((.ok (), host), e)

def requestTo (host : Node) (link : Except String Unit) (target : String) :
    Except String HttpReply :=
  match link with
  | .error cause => .error cause
  | .ok () => .ok (host.server.published.reply "GET" target)

def findings (host guest : Node) (w : Node.World) (link : Except String Unit) : List Discovery :=
  let w := { w with request := fun _ => requestTo host link PeerAvailability.beaconPath }
  match guest.look w (.start guest.config.addressBook) with
  | (.error _, _) => []
  | (.ok (), guest) => (guest.discover w).1

/-- The whole exchange: the host begins, a plain request is made to it, and the guest looks for it.
It breaks down when the host cannot begin or the plain request cannot be made. -/
def run (host guest : Node) (w : Node.World) (link : Except String Unit) (halted : Bool)
    (target : String) (e : Entropy) : Except String Exchange :=
  match prepare host w halted e with
  | ((.error fault, _), _) => .error fault.message
  | ((.ok (), host), _) =>
    match requestTo host link target with
    | .error cause => .error cause
    | .ok reply =>
      let found := findings host guest w link
      let entry := found.head?.bind fun d =>
        if host.transport.resolving then host.server.published.resolve d.pskIdentity else none
      .ok ⟨reply, found, entry⟩

end Exchange

end BeaconMesh
