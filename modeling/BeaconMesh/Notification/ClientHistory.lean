import BeaconMesh.Notification.Client
import BeaconMesh.Notification.EventLoopHistory

/-!
A client in use: operations are handed in, event loops begin and come to their ends, the transport
tells of peers and answers calls, fetches end, in any order, and what follows is noted. An event
loop that was told to quit may go on for a while before it does.
-/

set_option autoImplicit false
set_option relaxedAutoImplicit false

namespace BeaconMesh.Notification

def EventLoop.History.report? (h : EventLoop.History) (signal : EventLoop.Signal) :
    Option Discovery :=
  if (h.step signal).moments.length = h.moments.length then none
  else (h.step signal).moments.head?.bind EventLoop.Moment.reported

namespace Client

/-- An event loop that has begun and has not come to its end. It goes by the ticket of the start
that began it, and may have been told to quit. -/
structure Loop where
  ticket : Nat
  told : Bool
  inbox : Inbox
  history : EventLoop.History

/-- What the operation waits for whose turn it is: the end of the event loop that was begun before,
or what comes of its call. -/
inductive Stage where
  | ending (loop : Nat)
  | calling (pending : Pending)

inductive Moment where
  | took (ticket : Nat) (command : Command)
  | subscribed (ticket : Nat)
  | returned (ticket : Nat) (command : Command) (answer : Except QueueFault (Except Fault Unit))
  | announced (peer : PeerAvailability)
  | heeded (loop : Nat) (signal : EventLoop.Signal) (report : Option Discovery)
  | quit (loop : Nat)

/-- What may happen to a client in use. The queue takes its next operation; that one proceeds when
the event loop has ended for whose end it waits, and its call is answered or breaks down. An event
loop hears its next event, or quits, and then its fetches end with it. -/
inductive Event where
  | submit (command : Command)
  | take
  | proceed
  | answer (outcome : Except String Unit)
  | breakDown
  | announce (peer : PeerAvailability)
  | hear (loop : Nat)
  | lag (loop : Nat) (missed : Nat)
  | fetched (loop : Nat) (number : Nat) (how : EventLoop.FetchEnd)
  | quit (loop : Nat)

/-- A client and its past, the latest moment first. There is room for so many events that wait to be
read; `running` is the event loop that the client holds. -/
structure History where
  keys : KeyPair
  room : Nat
  queue : OperationQueue Command (Except Fault Unit)
  stage : Option Stage
  running : Option Nat
  loops : List Loop
  moments : List Moment

namespace History

def fresh (keys : KeyPair) (room : Nat) : History :=
  ⟨keys, room, .ofCapacity OperationQueue.standardCapacity, none, none, [], []⟩

def note (h : History) (m : Moment) : History := { h with moments := m :: h.moments }

def loop? (h : History) (ticket : Nat) : Option Loop :=
  h.loops.find? fun l => l.ticket == ticket

def onLoop (h : History) (ticket : Nat) (f : Loop → Loop) : History :=
  { h with loops := h.loops.map fun l => if l.ticket == ticket then f l else l }

def call (h : History) (ticket : Nat) (command : Command) : History :=
  let (pending, _) := (Client.fresh h.keys).begin command false
  let h := { h with stage := some (.calling pending) }
  match pending with
  | .listen _ _ => h.note (.subscribed ticket)
  | .unlisten => h

def conclude (h : History) (ticket : Nat) (command : Command)
    (answer : Except QueueFault (Except Fault Unit)) : History :=
  { h with stage := none, queue := h.queue.settle answer }.note (.returned ticket command answer)

def hold (h : History) (ticket : Nat) (listener : Listener) : History :=
  { h with
    running := some ticket
    loops := h.loops ++ [⟨ticket, false, listener.inbox, ⟨h.keys, listener.loop, [], []⟩⟩] }

def heed (h : History) (loop : Loop) (signal : EventLoop.Signal) : History :=
  (h.onLoop loop.ticket fun l => { l with history := l.history.step signal }).note
    (.heeded loop.ticket signal (loop.history.report? signal))

/-- Whoever listens has one more event to read. -/
def announce (h : History) (peer : PeerAvailability) : History :=
  let stage : Option Stage := match h.stage with
    | some (.calling (.listen book inbox)) =>
      some (.calling (.listen book (inbox.push h.room peer)))
    | stage => stage
  let loops := h.loops.map fun l => { l with inbox := l.inbox.push h.room peer }
  { h with stage := stage, loops := loops }.note (.announced peer)

def step (h : History) : Event → History
  | .submit command => { h with queue := (h.queue.submit command).2 }
  | .take =>
    match h.queue.start? with
    | none => h
    | some ((ticket, command), queue) =>
      let taken := { h with queue := queue, running := none }.note (.took ticket command)
      match h.running with
      | none => taken.call ticket command
      | some loop =>
        { taken with stage := some (.ending loop) }.onLoop loop fun l => { l with told := true }
  | .proceed =>
    match h.stage, h.queue.running with
    | some (.ending loop), some (ticket, command) =>
      if (h.loop? loop).isSome then h else h.call ticket command
    | _, _ => h
  | .answer outcome =>
    match h.stage, h.queue.running with
    | some (.calling pending), some (ticket, command) =>
      let (result, client) := (Client.fresh h.keys).resume pending outcome
      let h := match client.running with
        | none => h
        | some listener => h.hold ticket listener
      h.conclude ticket command (.ok result)
    | _, _ => h
  | .breakDown =>
    match h.stage, h.queue.running with
    | some (.calling _), some (ticket, command) => h.conclude ticket command (.error .panicked)
    | _, _ => h
  | .announce peer => h.announce peer
  | .hear loop =>
    match h.loop? loop with
    | none => h
    | some l =>
      match l.inbox.events with
      | [] => h
      | peer :: rest =>
        (h.onLoop loop fun l => { l with inbox := { l.inbox with events := rest } }).heed l
          (.heard peer)
  | .lag loop missed =>
    match h.loop? loop with
    | none => h
    | some l => h.heed l (.lagged missed)
  | .fetched loop number how =>
    match h.loop? loop with
    | none => h
    | some l => h.heed l (.ended number how)
  | .quit loop =>
    match h.loop? loop with
    | none => h
    | some l =>
      if l.told then
        { h with loops := h.loops.filter fun l => l.ticket != loop }.note (.quit loop)
      else h

def run (h : History) (events : List Event) : History := events.foldl step h

/-- Whether the client runs. Nobody is told while a start has not ended, nor while an event loop is
being ended. -/
def isRunning? (h : History) : Option Bool :=
  match h.stage with
  | some (.ending _) => none
  | some (.calling (.listen _ _)) => none
  | _ => some h.running.isSome

end History

end Client

end BeaconMesh.Notification
