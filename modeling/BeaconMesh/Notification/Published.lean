import BeaconMesh.Beacon.Basic
import BeaconMesh.Beacon.Generate
import BeaconMesh.Peer.Availability
import BeaconMesh.Queue.Basic

/-!
What a device hands out: a beacon set or nothing, to be fetched over HTTP, and the secrets in it,
to be found by the identity that a connecting peer presents; and what can go wrong when beacons are
handed out or fetched.
-/

set_option autoImplicit false
set_option relaxedAutoImplicit false

namespace BeaconMesh.Notification

inductive Fault where
  | invalidArgument (fault : Beacon.Fault)
  | beacon (fault : Beacon.Fault)
  | advertising (cause : String)
  | stop (cause : String)
  | transport (cause : String)
  | fetch (cause : String)
  | queue (fault : QueueFault)
  deriving DecidableEq

def Fault.message : Fault → String
  | .invalidArgument fault => "Invalid argument: " ++ fault.message
  | .beacon fault => "Beacon error: " ++ fault.message
  | .advertising cause => "Advertising error: " ++ cause
  | .stop cause => "Stop error: " ++ cause
  | .transport cause => "Transport error: " ++ cause
  | .fetch cause => "Fetch error: " ++ cause
  | .queue fault => "Queue error: " ++ fault.message

def Fault.flatten {α : Type} : Except QueueFault (Except Fault α) → Except Fault α
  | .ok r => r
  | .error fault => .error (.queue fault)

/-- What an identity stands for: a secret, and the key of a peer if the identity belongs to one. -/
structure PskEntry where
  secret : BeaconSecret
  owner : Option PublicKey
  deriving DecidableEq

def beaconIdentity : String := "beacons"

/-- The secret that goes with `beaconIdentity`, known to everybody. -/
def beaconIdentitySecret : BeaconSecret :=
  ⟨Block.leading 32 (Bytes.ofString "lantern notification beacons v1!")⟩

structure Published where
  set : Option Beacon.BeaconSet
  deriving DecidableEq

namespace Published

def nothing : Published := ⟨none⟩

def blob (p : Published) : Option Bytes := p.set.map Beacon.BeaconSet.blob

def addressed (p : Published) : List Beacon.Addressed :=
  (p.set.map Beacon.BeaconSet.secrets).getD []

/-- What an identity stands for: of several secrets for one recipient the last one counts. -/
def resolve (p : Published) (identity : String) : Option PskEntry :=
  if identity = beaconIdentity then some ⟨beaconIdentitySecret, none⟩
  else
    (p.addressed.reverse.find? fun a => a.recipient.hash.toHex = identity).map
      fun a => ⟨a.secret, some a.recipient⟩

def recipients (p : Published) : Nat :=
  (KeyHash.sorted (p.addressed.map fun a => a.recipient.hash)).length

def summary (p : Published) : String :=
  let length := match p.blob with
    | some blob => "Some(" ++ Text.decimal blob.length ++ ")"
    | none => "None"
  "PublishedBeacons \x7b blob_len: " ++ length ++ ", recipients: "
    ++ Text.decimal p.recipients ++ " \x7d"

end Published

structure HttpReply where
  status : Nat
  contentType : Option String
  cacheControl : Option String
  body : Bytes
  deriving DecidableEq

def pathOf (target : String) : String :=
  String.ofList (target.toList.takeWhile fun c => c != '?' && c != '#')

/-- The answer to a request: the blob under its path and nothing else anywhere. A request for the
head alone is answered without the content. -/
def Published.reply (p : Published) (method target : String) : HttpReply :=
  if pathOf target ≠ PeerAvailability.beaconPath then ⟨404, none, none, []⟩
  else if method = "GET" ∨ method = "HEAD" then
    match p.blob with
    | none => ⟨204, none, none, []⟩
    | some blob =>
      ⟨200, some "application/octet-stream", some "no-cache", if method = "HEAD" then [] else blob⟩
  else ⟨405, none, none, []⟩

end BeaconMesh.Notification
