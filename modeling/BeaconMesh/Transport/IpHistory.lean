import BeaconMesh.Transport.Ip

/-!
A transport for IP networks in use: calls that are made one after another, an announcer that looks
now and then, however late, whether an announcement is due, and what is noted of both. A call that
ends the announcing returns only when the announcer has ended, and until then the announcer may go
on although it was told to quit.
-/

set_option autoImplicit false
set_option relaxedAutoImplicit false

namespace BeaconMesh

open Notification (TransportCall)

def Announcer.next (a : Announcer) : Announcer := { a with made := a.made + 1 }

def Announcer.tick? (a : Announcer) (interval : Duration) (now : Nat) : Option Announcer :=
  if a.made < a.dueBy interval now then some a.next else none

namespace IpTransport

inductive Moment where
  | returned (time : Nat) (call : TransportCall) (result : Except String Unit)
  | announced (time : Nat) (peers : List PeerAvailability)

/-- What may be done with a transport. The announcer looks whether an announcement is due; one that
was told to quit may look once more before it has ended and the call returns that waits for it. -/
inductive Event where
  | call (c : TransportCall) (binding : Except String Net.SocketAddress)
  | tick
  | linger
  | leave
  | advance (ms : Nat)

/-- A call that has told an announcer to quit and waits for its end. -/
structure Halt where
  call : TransportCall
  announcer : Option Announcer

/-- A transport and its past in milliseconds, the latest moment first. -/
structure History where
  transport : IpTransport
  now : Nat
  halt : Option Halt
  moments : List Moment

def withAnnouncer (t : IpTransport) (a : Announcer) : IpTransport := { t with announcer := some a }

def halts : TransportCall → Bool
  | .shutdown => true
  | .unlisten => true
  | _ => false

namespace History

def fresh (httpAddress : Net.SocketAddress) (peers : List Net.SocketAddress)
    (interval : Duration) : History :=
  ⟨.fresh httpAddress peers interval, 0, none, []⟩

def note (h : History) (m : Moment) : History := { h with moments := m :: h.moments }

/-- Makes a call. One that ends the announcing is under way from then on; any other returns. -/
def call (h : History) (c : TransportCall) (binding : Except String Net.SocketAddress) : History :=
  let outcome := h.transport.call binding h.now c
  if halts c then { h with transport := outcome.2, halt := some ⟨c, h.transport.announcer⟩ }
  else { h with transport := outcome.2 }.note (.returned h.now c outcome.1)

/-- What follows when something is done. No call is made while another is under way. -/
def step (h : History) : Event → History
  | .call c binding => if h.halt.isSome then h else h.call c binding
  | .tick =>
    match h.transport.announcer with
    | none => h
    | some a =>
      match a.tick? h.transport.interval h.now with
      | none => h
      | some next =>
        { h with transport := h.transport.withAnnouncer next }.note
          (.announced h.now (h.transport.announcement a.made))
  | .linger =>
    match h.halt with
    | some ⟨c, some a⟩ =>
      match a.tick? h.transport.interval h.now with
      | none => h
      | some next =>
        { h with halt := some ⟨c, some next⟩ }.note
          (.announced h.now (h.transport.announcement a.made))
    | _ => h
  | .leave =>
    match h.halt with
    | none => h
    | some halt => { h with halt := none }.note (.returned h.now halt.call (.ok ()))
  | .advance ms => { h with now := h.now + ms }

def run (h : History) (events : List Event) : History := events.foldl step h

end History

end IpTransport

end BeaconMesh
