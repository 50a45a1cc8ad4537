import BeaconMesh.Beacon.Generate
import BeaconMesh.Net.AddressParse
import BeaconMesh.Text.Blank

/-!
The configuration of a node, read from named variables. Every variable is judged on its own; of
several bad ones the first in a fixed order is reported.
-/

set_option autoImplicit false
set_option relaxedAutoImplicit false

namespace BeaconMesh

/-- The configuration of a node. An empty address book is one with everybody in it. -/
structure Config where
  httpAddress : Net.SocketAddress
  peers : List Net.SocketAddress
  beaconTtl : Duration
  announceInterval : Duration
  notify : List PublicKey
  addressBook : List PublicKey
  secret : Option (Block 32)

namespace Config

inductive Fault where
  | httpAddress (value : String)
  | peer (entry : String)
  | notNumber (name value : String) (fault : Text.NumeralFault)
  | ttlRange
  | noInterval
  | keyHex (name entry : String) (fault : Bytes.Hex.Fault)
  | key (name entry : String) (fault : KeyFault)
  | secretHex (fault : Bytes.Hex.Fault)
  | secretLength
  deriving DecidableEq

def Fault.message : Fault → String
  | .httpAddress value =>
    "LANTERN_HTTP_ADDR " ++ Text.quoted value ++ ": " ++ Net.addressFault
  | .peer entry => "LANTERN_PEERS entry " ++ Text.quoted entry ++ ": " ++ Net.addressFault
  | .notNumber name value fault =>
    name ++ " " ++ Text.quoted value ++ ": " ++ fault.message
  | .ttlRange => "LANTERN_BEACON_TTL_SECS must be between 1 and 86400"
  | .noInterval => "LANTERN_ANNOUNCE_SECS must be positive"
  | .keyHex name entry fault =>
    name ++ " entry " ++ Text.quoted entry ++ ": " ++ fault.message
  | .key name entry fault =>
    name ++ " entry " ++ Text.quoted entry ++ ": invalid public key: " ++ fault.message
  | .secretHex fault => "LANTERN_SECRET_KEY: " ++ fault.message
  | .secretLength => "LANTERN_SECRET_KEY must be 32 bytes"

/-- Applies a reader to all entries of a list and stops at the first one it refuses. -/
def readAll {α : Type} (read : String → Except Fault α) : List String → Except Fault (List α)
  | [] => .ok []
  | entry :: rest =>
    match read entry with
    | .error fault => .error fault
    | .ok a =>
      match readAll read rest with
      | .error fault => .error fault
      | .ok as => .ok (a :: as)

def entriesOf (value : Option String) : List String :=
  (Text.entries (value.getD "").toList).map String.ofList

/-- The address to listen on: port 8484 of all interfaces unless given. -/
def readHttpAddress : Option String → Except Fault Net.SocketAddress
  | none => .ok (.v4 ⟨0, 0, 0, 0⟩ 8484)
  | some value =>
    match Net.SocketAddress.ofChars? value.toList with
    | some address => .ok address
    | none => .error (.httpAddress value)

def readPeer (entry : String) : Except Fault Net.SocketAddress :=
  match Net.SocketAddress.ofChars? entry.toList with
  | some address => .ok address
  | none => .error (.peer entry)

def readSeconds (name value : String) : Except Fault Duration :=
  match Text.readNumber 10 (UInt64.size - 1) (Text.trimmed value.toList) with
  | .error fault => .error (.notNumber name value fault)
  | .ok n => .ok (.ofSecs n)

/-- The life of a beacon set: an hour unless given, at most a day. -/
def readTtl : Option String → Except Fault Duration
  | none => .ok (.ofSecs 3600)
  | some value =>
    match readSeconds "LANTERN_BEACON_TTL_SECS" value with
    | .error fault => .error fault
    | .ok ttl =>
      if ttl.nanos = 0 ∨ Beacon.longestTtl.nanos < ttl.nanos then .error .ttlRange else .ok ttl

/-- The time between announcements: half a minute unless given. -/
def readInterval : Option String → Except Fault Duration
  | none => .ok (.ofSecs 30)
  | some value =>
    match readSeconds "LANTERN_ANNOUNCE_SECS" value with
    | .error fault => .error fault
    | .ok interval => if interval.nanos = 0 then .error .noInterval else .ok interval

def readKey (name entry : String) : Except Fault PublicKey :=
  match Bytes.Hex.decode entry with
  | .error fault => .error (.keyHex name entry fault)
  | .ok bytes =>
    match PublicKey.ofBytes bytes with
    | .error fault => .error (.key name entry fault)
    | .ok key => .ok key

def readSecret : Option String → Except Fault (Option (Block 32))
  | none => .ok none
  | some value =>
    match Bytes.Hex.decode (String.ofList (Text.trimmed value.toList)) with
    | .error fault => .error (.secretHex fault)
    | .ok bytes =>
      match Block.ofBytes? 32 bytes with
      | some block => .ok (some block)
      | none => .error .secretLength

def ofVariables (lookup : String → Option String) : Except Fault Config := do
  let httpAddress ← readHttpAddress (lookup "LANTERN_HTTP_ADDR")
  let peers ← readAll readPeer (entriesOf (lookup "LANTERN_PEERS"))
  let beaconTtl ← readTtl (lookup "LANTERN_BEACON_TTL_SECS")
  let announceInterval ← readInterval (lookup "LANTERN_ANNOUNCE_SECS")
  let notify ← readAll (readKey "LANTERN_NOTIFY") (entriesOf (lookup "LANTERN_NOTIFY"))
  let addressBook ←
    readAll (readKey "LANTERN_ADDRESS_BOOK") (entriesOf (lookup "LANTERN_ADDRESS_BOOK"))
  let secret ← readSecret (lookup "LANTERN_SECRET_KEY")
  return ⟨httpAddress, peers, beaconTtl, announceInterval, notify, addressBook, secret⟩

def summary (c : Config) : String :=
  "NodeConfig \x7b http_addr: " ++ c.httpAddress.text ++ ", peers: ["
    ++ ", ".intercalate (c.peers.map Net.SocketAddress.text) ++ "], beacon_ttl: "
    ++ c.beaconTtl.text ++ ", announce_interval: " ++ c.announceInterval.text
    ++ ", notify: [], address_book: [], secret_key: "
    ++ (if c.secret.isSome then "Some(\"..\")" else "None") ++ " \x7d"

end Config

end BeaconMesh
