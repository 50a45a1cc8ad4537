import BeaconMesh.Round.Link

/-!
One connection between two participants, from the moment at which it is there. Bytes arrive in order
and in pieces of any size. An end is told that the other one has hung up when that writes nothing
more and all that it has written has arrived; any end may run out of time or fail whenever it likes.
-/

set_option autoImplicit false
set_option relaxedAutoImplicit false

namespace BeaconMesh.Round

/-- The participants at the two ends of a connection, each in a round with a code. -/
structure Ends where
  dialer : Context
  wanted : UInt8
  listener : Context
  code : UInt8
  limit : Duration

/-- A connection and its two ends. If it is abandoned, the end that dialed is gone though its
attempt has not come to an end. -/
structure Connection where
  attempt : Attempt
  abandoned : Bool
  session : Session
  requestRead : Nat
  responseRead : Nat

namespace Connection

/-- What happens on a connection. Each end is told that the other one has left, which is when that
has hung up. -/
inductive Event where
  | carryRequest (count : Nat)
  | carryResponse (count : Nat)
  | dialerLeft
  | listenerLeft
  | dialerFailed (cause : String)
  | dialerLate
  | dialerAborted
  | listenerFailed (cause : String)
  | listenerLate
  deriving DecidableEq

/-- The attempt is cut off by the event. -/
def Event.cutsOff : Event → Bool
  | .dialerFailed _ => true
  | .dialerLate => true
  | .dialerAborted => true
  | _ => false

/-- A connection that has just been made: the request is written at once. -/
def dialed (e : Ends) : Connection :=
  ⟨Attempt.fresh.step e.dialer e.wanted e.limit .connected, false, .fresh, 0, 0⟩

def dialerOver (k : Connection) : Bool := k.abandoned || k.attempt.result?.isSome

def listenerOver (k : Connection) : Bool := !k.session.written.isEmpty || k.session.result?.isSome

def toDialer (e : Ends) (k : Connection) (n : Notice) : Connection :=
  if k.abandoned then k else { k with attempt := k.attempt.step e.dialer e.wanted e.limit n }

def toListener (e : Ends) (k : Connection) (n : Notice) : Connection :=
  { k with session := k.session.step e.listener e.code e.limit n }

/-- What becomes of a connection by an event; nothing if it cannot happen. -/
def step (e : Ends) (k : Connection) : Event → Connection
  | .carryRequest count =>
    let bytes := (k.attempt.written.drop k.requestRead).take count
    { k.toListener e (.arrived bytes) with requestRead := k.requestRead + bytes.length }
  | .carryResponse count =>
    if k.abandoned then k
    else
      let bytes := (k.session.written.drop k.responseRead).take count
      { k.toDialer e (.arrived bytes) with responseRead := k.responseRead + bytes.length }
  | .dialerLeft =>
    if k.dialerOver && k.requestRead == k.attempt.written.length then k.toListener e .hungUp else k
  | .listenerLeft =>
    if k.listenerOver && k.responseRead == k.session.written.length then k.toDialer e .hungUp
    else k
  | .dialerFailed cause => k.toDialer e (.failed cause)
  | .dialerLate => k.toDialer e .tooLate
  | .dialerAborted => { k with abandoned := true }
  | .listenerFailed cause => k.toListener e (.failed cause)
  | .listenerLate => k.toListener e .tooLate

def run (e : Ends) (k : Connection) (events : List Event) : Connection := events.foldl (step e) k

end Connection

end BeaconMesh.Round
