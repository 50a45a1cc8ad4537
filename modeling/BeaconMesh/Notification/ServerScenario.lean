import BeaconMesh.Notification.Server

/-!
A scripted use of a server on a transport that does as it is told.
-/

set_option autoImplicit false
set_option relaxedAutoImplicit false

namespace BeaconMesh.Notification

structure ServerBench where
  queue : OperationQueue Server.Command (Except Fault Unit)
  server : Server
  transport : ScriptedTransport
  pending : Option Server.Pending
  clock : Instant
  entropy : Entropy
  held : List (String × Nat)

namespace ServerBench

def fresh (keys : KeyPair) (ttl : Duration) (clock : Instant) (entropy : Entropy) : ServerBench :=
  ⟨.ofCapacity OperationQueue.standardCapacity, .fresh keys ttl, .fresh, none, clock, entropy, []⟩

def note (b : ServerBench) : Server.Progress × Server → ServerBench
  | (.done result, server) =>
    { b with server := server, pending := none, queue := b.queue.settle (.ok result) }
  | (.waits pending, server) =>
    { b with server := server, pending := some pending
             transport := b.transport.enter pending.call }

def step? (b : ServerBench) : Option ServerBench :=
  match b.pending with
  | some pending =>
    match b.transport.leave? pending.call with
    | none => none
    | some (outcome, transport) =>
      some ({ b with transport := transport }.note (b.server.resume pending outcome))
  | none =>
    match b.queue.start? with
    | none => none
    | some ((_, command), queue) =>
      let (progress, entropy) := b.server.begin command b.clock b.entropy
      some ({ b with queue := queue, entropy := entropy }.note progress)

def settleWithin : Nat → ServerBench → ServerBench
  | 0, b => b
  | steps + 1, b =>
    match b.step? with
    | none => b
    | some b => settleWithin steps b

/-- Lets things happen until nothing more does; every operation makes at most two calls. -/
def settle (b : ServerBench) : ServerBench := settleWithin (3 * b.queue.waiting.length + 3) b

def submit (b : ServerBench) (command : Server.Command) : Nat × ServerBench :=
  let (ticket, queue) := b.queue.submit command
  (ticket, { b with queue := queue }.settle)

def result? (b : ServerBench) (ticket : Nat) : Option (Except Fault Unit) :=
  (b.queue.answer? ticket).map Fault.flatten

def submitAs (b : ServerBench) (name : String) (command : Server.Command) : ServerBench :=
  let (ticket, b) := b.submit command
  { b with held := (name, ticket) :: b.held }

def resultOf? (b : ServerBench) (name : String) : Option (Except Fault Unit) :=
  match b.held.find? fun h => h.1 == name with
  | none => none
  | some (_, ticket) => b.result? ticket

def direct (b : ServerBench) (f : ScriptedTransport → ScriptedTransport) : ServerBench :=
  { b with transport := f b.transport }.settle

/-- What an identity stands for, to the server and to a transport that serves. -/
def resolve (b : ServerBench) (identity : String) : Option PskEntry × Option PskEntry :=
  let entry := b.server.published.resolve identity
  (entry, if b.transport.serving then entry else none)

def request? (b : ServerBench) (method target : String) : Option HttpReply :=
  if b.transport.serving then some (b.server.published.reply method target) else none

end ServerBench

end BeaconMesh.Notification
