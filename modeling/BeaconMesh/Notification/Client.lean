import BeaconMesh.Notification.EventLoop
import BeaconMesh.Notification.ScriptedTransport
import BeaconMesh.Peer.Availability

/-!
The client side of notifications. Its operations begin and end event loops; each makes one call
to the transport and goes on when the call has returned.
-/

set_option autoImplicit false
set_option relaxedAutoImplicit false

namespace BeaconMesh.Notification

structure Listener where
  loop : EventLoop
  inbox : Inbox
  active : Bool
  deriving DecidableEq

structure Client where
  keys : KeyPair
  running : Option Listener

namespace Client

def fresh (keys : KeyPair) : Client := ⟨keys, none⟩

inductive Command where
  | start (book : List PublicKey)
  | stop

inductive Pending where
  | listen (book : List KeyHash) (inbox : Inbox)
  | unlisten
  deriving DecidableEq

def Pending.call : Pending → TransportCall
  | .listen _ _ => .listen
  | .unlisten => .unlisten

/-- Runs an operation up to its call; a running event loop is ended in any case. -/
def begin (c : Client) (command : Command) (streamClosed : Bool) : Pending × Client :=
  let c := { c with running := none }
  match command with
  | .start book => (.listen (book.map PublicKey.hash) (.fresh streamClosed), c)
  | .stop => (.unlisten, c)

def resume (c : Client) (pending : Pending) (outcome : Except String Unit) :
    Except Fault Unit × Client :=
  match pending, outcome with
  | .listen _ _, .error cause => (.error (.transport cause), c)
  | .listen book inbox, .ok () =>
    (.ok (), { c with running := some ⟨.fresh book c.keys.hash.toHex, inbox, true⟩ })
  | .unlisten, .error cause => (.error (.stop cause), c)
  | .unlisten, .ok () => (.ok (), c)

def summary : String := "NotificationClient \x7b subscribers: 1, .. \x7d"

end Client

end BeaconMesh.Notification
