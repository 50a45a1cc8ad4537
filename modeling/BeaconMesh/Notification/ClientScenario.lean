import BeaconMesh.Notification.Client

/-!
A scripted use of a client on a transport that does as it is told, with peers whose blobs are
set beforehand and whose answers can be held back.
-/

set_option autoImplicit false
set_option relaxedAutoImplicit false

namespace BeaconMesh.Notification

inductive Offer where
  | blob (content : Option Bytes)
  | fails (cause : String)
  | panics
  deriving DecidableEq

structure Gate where
  closed : Bool
  permits : Nat
  deriving DecidableEq

structure ClientBench where
  queue : OperationQueue Client.Command (Except Fault Unit)
  client : Client
  transport : ScriptedTransport
  pending : Option Client.Pending
  clock : Instant
  held : List (String × Nat)
  streamRoom : Nat
  streamClosed : Bool
  reportRoom : Nat
  offers : List (String × Offer)
  gates : List (String × Gate)
  ordered : List Fetch
  waiting : List Fetch
  ended : List (Fetch × Option FetchResult)
  begun : List PeerIdentifier
  reports : List Discovery

namespace ClientBench

def fresh (keys : KeyPair) (clock : Instant) (streamRoom reportRoom : Nat) : ClientBench :=
  { queue := .ofCapacity OperationQueue.standardCapacity, client := .fresh keys
    transport := .fresh, pending := none, clock := clock, held := [], streamRoom := streamRoom
    streamClosed := false, reportRoom := max reportRoom 1, offers := [], gates := [], ordered := []
    waiting := [], ended := [], begun := [], reports := [] }

def abandonAll (b : ClientBench) : ClientBench :=
  { b with ordered := [], waiting := [], ended := [] }

def follow (b : ClientBench) : Option Order → ClientBench
  | none => b
  | some (.begin fetch) => { b with ordered := b.ordered ++ [fetch] }
  | some (.abandon number) =>
    { b with ordered := b.ordered.filter fun f => f.number ≠ number
             waiting := b.waiting.filter fun f => f.number ≠ number }

def hear? (b : ClientBench) : Option ClientBench :=
  match b.client.running with
  | none => none
  | some listener =>
    if !listener.active then none
    else
      match listener.inbox.events with
      | event :: rest =>
        let (order, loop) := listener.loop.onAvailability event
        let listener := { listener with
          loop := loop, inbox := { listener.inbox with events := rest } }
        some ({ b with client := { b.client with running := some listener } }.follow order)
      | [] =>
        if listener.inbox.closed then
          let listener := { listener with active := false }
          some { b with client := { b.client with running := some listener } }.abandonAll
        else none

def gate (b : ClientBench) (uuid : String) : Gate :=
  ((b.gates.find? fun g => g.1 == uuid).map Prod.snd).getD ⟨false, 0⟩

def setGate (b : ClientBench) (uuid : String) (g : Gate) : ClientBench :=
  { b with gates := (uuid, g) :: b.gates.filter fun g => g.1 != uuid }

def outcome (b : ClientBench) (peer : PeerAvailability) : Option FetchResult :=
  match (b.offers.find? fun o => o.1 == peer.uuid).map Prod.snd with
  | none => some (.error (.fetch ("no route to " ++ peer.uuid)))
  | some (.fails cause) => some (.error (.fetch cause))
  | some .panics => none
  | some (.blob content) => some (.read b.client.keys b.clock (.ok content))

def pass? (b : ClientBench) (fetch : Fetch) : Option ClientBench :=
  let g := b.gate fetch.peer.uuid
  let through (b : ClientBench) : ClientBench :=
    { b with ended := b.ended ++ [(fetch, b.outcome fetch.peer)] }
  if !g.closed then some (through b)
  else if 0 < g.permits then
    some (through (b.setGate fetch.peer.uuid { g with permits := g.permits - 1 }))
  else none

def beginFetch? (b : ClientBench) : Option ClientBench :=
  match b.ordered with
  | [] => none
  | fetch :: rest =>
    let b := { b with ordered := rest, begun := fetch.peer.identifier :: b.begun }
    some ((b.pass? fetch).getD { b with waiting := b.waiting ++ [fetch] })

def passWaiting? (b : ClientBench) : List Fetch → Option ClientBench
  | [] => none
  | fetch :: rest =>
    match { b with waiting := b.waiting.filter fun f => f.number ≠ fetch.number }.pass? fetch with
    | some b => some b
    | none => passWaiting? b rest

def operate? (b : ClientBench) : Option ClientBench :=
  match b.pending with
  | some pending =>
    match b.transport.leave? pending.call with
    | none => none
    | some (outcome, transport) =>
      let (result, client) := b.client.resume pending outcome
      some { b with transport := transport, client := client, pending := none
                    queue := b.queue.settle (.ok result) }
  | none =>
    match b.queue.start? with
    | none => none
    | some ((_, command), queue) =>
      let (pending, client) := b.client.begin command b.streamClosed
      some { b.abandonAll with queue := queue, client := client, pending := some pending
                               transport := b.transport.enter pending.call }

def hearFetched? (b : ClientBench) : Option ClientBench :=
  match b.client.running, b.ended with
  | some listener, (fetch, result) :: rest =>
    match result with
    | none => some { b with ended := rest }
    | some result =>
      let ((found, order), loop) := listener.loop.onFetched fetch result
      let client := { b.client with running := some { listener with loop := loop } }
      some ({ b with client := client, ended := rest
                     reports := found.toList ++ b.reports }.follow order)
  | _, _ => none

/-- What happens next, if anything: events are read before fetches begin, and these before
operations go on and ended fetches are heard of. -/
def step? (b : ClientBench) : Option ClientBench :=
  b.hear?.or (b.beginFetch?.or ((b.passWaiting? b.waiting).or (b.operate?.or b.hearFetched?)))

def settleWithin : Nat → ClientBench → ClientBench
  | 0, b => b
  | steps + 1, b =>
    match b.step? with
    | none => b
    | some b => settleWithin steps b

/-- A bound on what can happen before something new comes from outside: every operation takes two
steps, every event and every fetch under way a few. -/
def bound (b : ClientBench) : Nat :=
  let listening := match b.client.running with
    | some listener => listener.inbox.events.length + 2 * listener.loop.peers.length
    | none => 0
  let coming := match b.pending with
    | some (.listen _ inbox) => inbox.events.length
    | _ => 0
  2 * b.queue.waiting.length + 2 * b.waiting.length + 8 * (listening + coming) + 8

def settle (b : ClientBench) : ClientBench := settleWithin b.bound b

def submit (b : ClientBench) (command : Client.Command) : Nat × ClientBench :=
  let (ticket, queue) := b.queue.submit command
  (ticket, { b with queue := queue }.settle)

def result? (b : ClientBench) (ticket : Nat) : Option (Except Fault Unit) :=
  (b.queue.answer? ticket).map Fault.flatten

def submitAs (b : ClientBench) (name : String) (command : Client.Command) : ClientBench :=
  let (ticket, b) := b.submit command
  { b with held := (name, ticket) :: b.held }

def resultOf? (b : ClientBench) (name : String) : Option (Except Fault Unit) :=
  match b.held.find? fun h => h.1 == name with
  | none => none
  | some (_, ticket) => b.result? ticket

def direct (b : ClientBench) (f : ScriptedTransport → ScriptedTransport) : ClientBench :=
  { b with transport := f b.transport }.settle

def onInbox (b : ClientBench) (f : Inbox → Inbox) : ClientBench :=
  let client := match b.client.running with
    | none => b.client
    | some listener => { b.client with running := some { listener with inbox := f listener.inbox } }
  let pending := match b.pending with
    | some (.listen book inbox) => some (.listen book (f inbox))
    | other => other
  { b with client := client, pending := pending }

def announce (b : ClientBench) (events : List PeerAvailability) : ClientBench :=
  (events.foldl (fun b event => b.onInbox (Inbox.push b.streamRoom · event)) b).settle

def closeStream (b : ClientBench) : ClientBench :=
  ({ b with streamClosed := true }.onInbox fun inbox => { inbox with closed := true }).settle

def serve (b : ClientBench) (uuid : String) (offer : Offer) : ClientBench :=
  { b with offers := (uuid, offer) :: b.offers.filter fun o => o.1 != uuid }

def holdFetch (b : ClientBench) (uuid : String) : ClientBench :=
  b.setGate uuid { b.gate uuid with closed := true }

def releaseFetch (b : ClientBench) (uuid : String) (count : Option Nat) : ClientBench :=
  let g := b.gate uuid
  (match count with
    | some n => b.setGate uuid { g with permits := g.permits + n }
    | none => b.setGate uuid { g with closed := false }).settle

def isRunning? (b : ClientBench) : Option Bool :=
  match b.pending with
  | some (.listen _ _) => none
  | _ => some b.client.running.isSome

structure Reading where
  reports : List Discovery
  lost : Nat
  begun : List PeerIdentifier

def read (b : ClientBench) : Reading × ClientBench :=
  (⟨(b.reports.take b.reportRoom).reverse, b.reports.length - b.reportRoom, b.begun.reverse⟩,
    { b with reports := [], begun := [] })

end ClientBench

end BeaconMesh.Notification
