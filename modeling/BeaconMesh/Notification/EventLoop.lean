import BeaconMesh.Beacon.Parse
import BeaconMesh.Notification.Published
import BeaconMesh.Peer.Availability

/-!
The bookkeeping of a running client. It hears of peers and of the ends of fetches, and for each
peer it has at most one fetch under way; a peer that goes away makes its fetch stale. What a
fetch gave is reported when it is for this device, has not expired, comes from somebody in the
address book, and is not what was reported for that peer before.
-/

set_option autoImplicit false
set_option relaxedAutoImplicit false

namespace BeaconMesh.Notification

/-- The report that a peer has something for this device. -/
structure Discovery where
  peer : PeerIdentifier
  host : String
  port : UInt16
  connection : ConnectionType
  secret : BeaconSecret
  sender : KeyHash
  pskIdentity : String
  deriving DecidableEq

/-- A fetch, numbered in the order of begin. Its epoch is how often the peer had gone away by then.
-/
structure Fetch where
  number : Nat
  epoch : Nat
  peer : PeerAvailability
  deriving DecidableEq

/-- What a fetch gives: nothing if the peer hands out nothing, else what was read from the blob. -/
abbrev FetchResult := Except Fault (Option Beacon.Parsed)

def FetchResult.read (keys : KeyPair) (now : Instant) :
    Except Fault (Option Bytes) → FetchResult
  | .error fault => .error fault
  | .ok none => .ok none
  | .ok (some blob) =>
    match Beacon.parse blob keys now with
    | .error fault => .error (.beacon fault)
    | .ok parsed => .ok (some parsed)

/-- What is known of a peer: the fetch under way, how often the peer has gone away, the newest event
that has to wait for the fetch, the highest generation that was fetched, and what was reported last.
-/
structure PeerRecord where
  fetching : Option Nat
  epoch : Nat
  deferred : Option PeerAvailability
  lastFetched : Option UInt32
  lastReported : Option (BeaconSecret × UInt64)
  deriving DecidableEq

def PeerRecord.fresh : PeerRecord := ⟨none, 0, none, none, none⟩

inductive Order where
  | begin (fetch : Fetch)
  | abandon (number : Nat)
  deriving DecidableEq

structure EventLoop where
  book : List KeyHash
  pskIdentity : String
  peers : List (String × PeerRecord)
  nextFetch : Nat
  deriving DecidableEq

namespace EventLoop

def fresh (book : List KeyHash) (pskIdentity : String) : EventLoop := ⟨book, pskIdentity, [], 0⟩

def record? (l : EventLoop) (uuid : String) : Option PeerRecord :=
  (l.peers.find? fun p => p.1 == uuid).map Prod.snd

def put (l : EventLoop) (uuid : String) (r : PeerRecord) : EventLoop :=
  { l with peers := (uuid, r) :: l.peers.filter fun p => p.1 != uuid }

def onAvailability (l : EventLoop) (peer : PeerAvailability) : Option Order × EventLoop :=
  if peer.available then
    let r := (l.record? peer.uuid).getD .fresh
    if r.lastFetched.any fun last => peer.generation ≤ last then (none, l.put peer.uuid r)
    else if r.fetching.isSome then
      let newer := r.deferred.all fun d => d.generation < peer.generation
      (none, l.put peer.uuid (if newer then { r with deferred := some peer } else r))
    else
      let fetch : Fetch := ⟨l.nextFetch, r.epoch, peer⟩
      (some (.begin fetch),
        { l.put peer.uuid { r with fetching := some fetch.number } with
          nextFetch := l.nextFetch + 1 })
  else
    match l.record? peer.uuid with
    | none => (none, l)
    | some r =>
      (r.fetching.map .abandon,
        l.put peer.uuid { r with fetching := none, epoch := r.epoch + 1, deferred := none })

/-- The report that a fetch gives rise to, and the expiry of the beacon set. -/
def discovery? (l : EventLoop) (peer : PeerAvailability) (parsed : Option Beacon.Parsed) :
    Option (Discovery × UInt64) := do
  let parsed ← parsed
  let notice ← parsed.notice
  if parsed.expired then none
  else if !l.book.isEmpty && !l.book.contains notice.sender then none
  else
    return (⟨peer.identifier, peer.host, peer.port, peer.connection, notice.secret, notice.sender,
      l.pskIdentity⟩, parsed.expiresAt)

def highest (last : Option UInt32) (generation : UInt32) : UInt32 :=
  match last with
  | none => generation
  | some last => if last ≤ generation then generation else last

/-- What a peer's record becomes when its fetch has ended, and the report if there is one. -/
def settle (l : EventLoop) (r : PeerRecord) (peer : PeerAvailability) (result : FetchResult) :
    Option Discovery × PeerRecord :=
  match result with
  | .error _ => (none, { r with fetching := none })
  | .ok parsed =>
    let r :=
      { r with fetching := none, lastFetched := some (highest r.lastFetched peer.generation) }
    match l.discovery? peer parsed with
    | none => (none, r)
    | some (found, expiresAt) =>
      if r.lastReported = some (found.secret, expiresAt) then (none, r)
      else (some found, { r with lastReported := some (found.secret, expiresAt) })

/-- Hears that a fetch has ended. A stale one is ignored; after another one the event that had to
wait for it is heard. -/
def onFetched (l : EventLoop) (fetch : Fetch) (result : FetchResult) :
    (Option Discovery × Option Order) × EventLoop :=
  match l.record? fetch.peer.uuid with
  | none => ((none, none), l)
  | some r =>
    if r.epoch ≠ fetch.epoch then ((none, none), l)
    else
      let (found, r) := l.settle r fetch.peer result
      let l' := l.put fetch.peer.uuid { r with deferred := none }
      match r.deferred with
      | none => ((found, none), l')
      | some next =>
        let (order, l') := l'.onAvailability next
        ((found, order), l')

end EventLoop

end BeaconMesh.Notification
