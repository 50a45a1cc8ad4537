import BeaconMesh.Notification.ScriptedTransport
import BeaconMesh.Peer.Availability
import BeaconMesh.Time.Basic

/-!
A transport for IP networks. It listens on one address, and while it is asked to report peers it
announces its static peers at even intervals, each time with the next generation. Advertising
means nothing to it.
-/

set_option autoImplicit false
set_option relaxedAutoImplicit false

namespace BeaconMesh

open Notification (TransportCall)

structure Announcer where
  begunAt : Nat
  made : Nat
  deriving DecidableEq, Repr

/-- How many announcements are due by a time: the first at once, and one after every interval. No
interval at all is none that could be kept, so then none is ever due. -/
def Announcer.dueBy (a : Announcer) (interval : Duration) (now : Nat) : Nat :=
  if interval.nanos = 0 ∨ now < a.begunAt then 0
  else (now - a.begunAt) * 1000000 / interval.nanos + 1

structure IpTransport where
  httpAddress : Net.SocketAddress
  peers : List Net.SocketAddress
  interval : Duration
  serving : Bool
  localAddress : Option Net.SocketAddress
  resolving : Bool
  announcer : Option Announcer
  deriving DecidableEq

namespace IpTransport

def fresh (httpAddress : Net.SocketAddress) (peers : List Net.SocketAddress) (interval : Duration) :
    IpTransport :=
  ⟨httpAddress, peers, interval, false, none, false, none⟩

def alreadyStarted : String := "IP transport already started"

def addressInUse : String := "Address already in use (os error 98)"

/-- Begins serving; `binding` is the address that is then listened on, or why there is none. -/
def start (t : IpTransport) (binding : Except String Net.SocketAddress) :
    Except String Unit × IpTransport :=
  if t.serving then (.error alreadyStarted, t)
  else
    match binding with
    | .error cause => (.error cause, t)
    | .ok address =>
      (.ok (), { t with serving := true, localAddress := some address, resolving := true })

def stop (t : IpTransport) : IpTransport :=
  { t with serving := false, localAddress := none, resolving := false, announcer := none }

/-- Begins announcing the static peers, unless that has begun. -/
def listen (t : IpTransport) (now : Nat) : IpTransport :=
  if t.announcer.isSome then t else { t with announcer := some ⟨now, 0⟩ }

def unlisten (t : IpTransport) : IpTransport := { t with announcer := none }

def call (t : IpTransport) (binding : Except String Net.SocketAddress) (now : Nat) :
    TransportCall → Except String Unit × IpTransport
  | .start => t.start binding
  | .shutdown => (.ok (), t.stop)
  | .listen => (.ok (), t.listen now)
  | .unlisten => (.ok (), t.unlisten)
  | .refresh => (.ok (), t)
  | .stop => (.ok (), t)

/-- The announcement with a number: all static peers in their order, with the number as their
generation. -/
def announcement (t : IpTransport) (number : Nat) : List PeerAvailability :=
  t.peers.map fun p => PeerAvailability.ofStaticPeer p (UInt32.ofNat number)

def announce (t : IpTransport) (now : Nat) : List PeerAvailability × IpTransport :=
  match t.announcer with
  | none => ([], t)
  | some a =>
    let due := a.dueBy t.interval now
    ((List.range' a.made (due - a.made)).flatMap t.announcement,
      { t with announcer := some { a with made := max a.made due } })

def summary (t : IpTransport) (httpAddress : String) : String :=
  "IpTransport \x7b http_addr: " ++ httpAddress ++ ", peers: ["
    ++ ", ".intercalate (t.peers.map Net.SocketAddress.text) ++ "], announce_interval: "
    ++ t.interval.text ++ ", .. \x7d"

end IpTransport

end BeaconMesh
