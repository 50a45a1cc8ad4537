/-!
The calls that notifications make to a transport, and a transport that does as it is told: it
counts the calls, can hold them back, and can let one fail.
-/

set_option autoImplicit false
set_option relaxedAutoImplicit false

namespace BeaconMesh.Notification

inductive TransportCall where
  | start
  | shutdown
  | listen
  | unlisten
  | refresh
  | stop
  deriving DecidableEq, Repr

/-- A transport that does as it is told, with the calls that were made to it, the latest first. -/
structure ScriptedTransport where
  calls : List TransportCall
  held : List TransportCall
  failures : List (TransportCall × String)
  serving : Bool
  deriving Repr

namespace ScriptedTransport

def fresh : ScriptedTransport := ⟨[], [], [], false⟩

def count (t : ScriptedTransport) (call : TransportCall) : Nat := t.calls.count call

def enter (t : ScriptedTransport) (call : TransportCall) : ScriptedTransport :=
  { t with calls := call :: t.calls }

def hold (t : ScriptedTransport) (call : TransportCall) : ScriptedTransport :=
  { t with held := call :: t.held }

def release (t : ScriptedTransport) (call : TransportCall) : ScriptedTransport :=
  { t with held := t.held.filter fun c => c ≠ call }

def fail (t : ScriptedTransport) (call : TransportCall) (cause : String) : ScriptedTransport :=
  { t with failures := (call, cause) :: t.failures.filter fun f => f.1 ≠ call }

/-- The outcome of a call that was made, unless it is held back. -/
def leave? (t : ScriptedTransport) (call : TransportCall) :
    Option (Except String Unit × ScriptedTransport) :=
  if t.held.contains call then none
  else
    match t.failures.find? fun f => f.1 = call with
    | some (_, cause) =>
      some (.error cause, { t with failures := t.failures.filter fun f => f.1 ≠ call })
    | none => some (.ok (), { t with serving := t.serving || call = .start })

end ScriptedTransport

end BeaconMesh.Notification
