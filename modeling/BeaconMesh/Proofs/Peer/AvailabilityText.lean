import BeaconMesh.Peer.Availability
import BeaconMesh.Proofs.Json.Members

/-!
The JSON texts of peers and of the events about them: each is read back from its own text, and of
an object in a text only the known members count, in any order, once each.
-/

set_option autoImplicit false
set_option relaxedAutoImplicit false

namespace BeaconMesh

open Json (Document IsNamed Member ReadsMembers Value Written document_text inside_of_escape_eq
  written_bool written_object written_ofNat written_ofText)

namespace PeerIdentifier

/-- The members that tell who a peer is. -/
def memberNames : List String := ["uuid", "generation"]

private theorem ofJson?_object (members : List Member) :
    ofJson? (.object members) =
      (Value.fields? memberNames members).bind fun values => ofJson? (.array values) := by
  simp only [ofJson?, Value.fields?, memberNames, List.mapM_cons, List.mapM_nil, Value.field?]
  cases Value.named? members with
  | none => rfl
  | some named =>
    simp only [Option.bind_eq_bind, Option.bind_some, Option.pure_def, Option.bind_assoc]

theorem ofJson?_toJson (id : PeerIdentifier) : ofJson? id.toJson = some id := by
  have hgeneration : id.generation.toNat ≤ 4294967295 := Nat.le_of_lt_succ id.generation.toNat_lt
  have hfields : ofFields? (.ofText id.uuid) (.ofNat id.generation.toNat) = some id := by
    simp [ofFields?, Value.nat?_ofNat hgeneration]
  exact hfields

end PeerIdentifier

namespace PeerAvailability

variable {v w : Value} {place : Value → Value}

def memberNames : List String :=
  ["peerIdentifier", "peerAvailable", "hostAddress", "portNumber", "connectionType"]

/-- The places at which the peer of an event stands: as a member, or first in a list. -/
inductive Place : (Value → Value) → Prop
  | member {inside : List Char} (front back : List Member)
      (h : ∀ v, IsNamed "peerIdentifier" (inside, v)) :
      Place fun v => .object (front ++ (inside, v) :: back)
  | item (rest : List Value) : Place fun v => .array (v :: rest)

private theorem ofJson?_object (members : List Member) :
    ofJson? (.object members) =
      (Value.fields? memberNames members).bind fun values => ofJson? (.array values) := by
  simp only [ofJson?, Value.fields?, memberNames, List.mapM_cons, List.mapM_nil, Value.field?]
  cases Value.named? members with
  | none => rfl
  | some named =>
    simp only [Option.bind_eq_bind, Option.bind_some, Option.pure_def, Option.bind_assoc]

theorem ofJson?_toJson (a : PeerAvailability) : ofJson? a.toJson = some a := by
  have hport : a.port.toNat ≤ 65535 := Nat.le_of_lt_succ a.port.toNat_lt
  have hconnection : ConnectionType.ofJson? (.ofText a.connection.name) = some a.connection := by
    cases a.connection <;> rfl
  have hfields : ofFields? a.identifier.toJson (.bool a.available) (.ofText a.host)
      (.ofNat a.port.toNat) (.ofText a.connection.name) = some a := by
    simp [ofFields?, PeerIdentifier.ofJson?_toJson, Value.nat?_ofNat hport, hconnection,
      Value.bool?]
  exact hfields

private theorem ofJson?_array (v : Value) (rest : List Value) :
    ofJson? (.array (v :: rest)) = (PeerIdentifier.ofJson? v).bind fun id =>
      ofJson? (.array (id.toJson :: rest)) := by
  rcases rest with _ | ⟨available, _ | ⟨host, _ | ⟨port, _ | ⟨connection, _ | ⟨more, rest⟩⟩⟩⟩⟩
  case cons.cons.cons.cons.nil =>
    simp [ofJson?, ofFields?, PeerIdentifier.ofJson?_toJson]
  all_goals cases PeerIdentifier.ofJson? v <;> rfl

private theorem ofJson?_member_iff {inside : List Char} {front back : List Member}
    {a : PeerAvailability} (hnamed : ∀ v, IsNamed "peerIdentifier" (inside, v)) :
    ofJson? (.object (front ++ (inside, v) :: back)) = some a ↔
      ∃ rest, Value.fields? memberNames (front ++ (inside, w) :: back) = some (w :: rest) ∧
        ofJson? (.array (v :: rest)) = some a := by
  have hne : "peerIdentifier" ∉ memberNames.tail := by decide
  rw [ofJson?_object, Option.bind_eq_some_iff]
  constructor
  · rintro ⟨values, hvalues, ha⟩
    obtain ⟨rest, rfl, hrest⟩ := Value.fields?_replace (w := w) (hnamed v) hne hvalues
    exact ⟨rest, hrest, ha⟩
  · rintro ⟨rest, hrest, ha⟩
    obtain ⟨rest, hsame, hvalues⟩ := Value.fields?_replace (w := v) (hnamed w) hne hrest
    cases hsame
    exact ⟨_, hvalues, ha⟩

/-- What stands for the peer of an event counts as the peer that it describes. -/
theorem ofJson?_place (h : Place place) (v : Value) :
    ofJson? (place v) = (PeerIdentifier.ofJson? v).bind fun id => ofJson? (place id.toJson) := by
  cases h with
  | item rest => exact ofJson?_array v rest
  | member front back hnamed =>
    apply Option.ext
    intro a
    rw [ofJson?_member_iff hnamed (w := v), Option.bind_eq_some_iff]
    simp only [ofJson?_member_iff hnamed (w := v), ofJson?_array v, Option.bind_eq_some_iff]
    constructor
    · rintro ⟨rest, hrest, id, hid, ha⟩
      exact ⟨id, hid, rest, hrest, ha⟩
    · rintro ⟨id, hid, rest, hrest, ha⟩
      exact ⟨rest, hrest, id, hid, ha⟩

end PeerAvailability

section Texts

variable {α : Type} {read : String → Option α} {ofJson? : Value → Option α} {known : List String}
  {place : Value → Value}

private theorem readsMembers_of {finish : List Value → Option α}
    (hread : ∀ s, read s = (Value.ofText? s).bind ofJson?)
    (hobject : ∀ members,
      ofJson? (place (.object members)) = (Value.fields? known members).bind finish) :
    ReadsMembers known read place := by
  have hdocument : ∀ s members, Document (place (.object members)) s →
      read s = (Value.fields? known members).bind finish := by
    intro s members h
    rw [hread, Json.Value.ofText?_eq_some_iff.mpr h, Option.bind_some, hobject]
  constructor
  · intro s t members others hs ht h
    rw [hdocument s _ hs, hdocument t _ ht, Value.fields?_rearranged h]
  · intro s members name hs hname h
    rw [hdocument s _ hs, Value.fields?_eq_none hname h]
    rfl

theorem PeerIdentifier.readsMembers : ReadsMembers memberNames ofJsonText? fun v => v :=
  readsMembers_of (fun _ => rfl) ofJson?_object

namespace PeerAvailability

theorem readsMembers : ReadsMembers memberNames ofJsonText? fun v => v :=
  readsMembers_of (fun _ => rfl) ofJson?_object

theorem readsMembers_place (h : Place place) :
    ReadsMembers PeerIdentifier.memberNames ofJsonText? place := by
  have hobject : ∀ members, ofJson? (place (.object members))
      = (Value.fields? PeerIdentifier.memberNames members).bind fun values =>
        (PeerIdentifier.ofJson? (.array values)).bind fun id => ofJson? (place id.toJson) := by
    intro members
    rw [ofJson?_place h, PeerIdentifier.ofJson?_object, Option.bind_assoc]
  exact readsMembers_of (fun _ => rfl) hobject

end PeerAvailability

private theorem PeerIdentifier.written_toJson (id : PeerIdentifier) :
    Written id.toJson id.toJson.render := by
  apply written_object (by simp)
  simp only [List.forall_mem_cons]
  exact ⟨⟨inside_of_escape_eq rfl, written_ofText _⟩, ⟨inside_of_escape_eq rfl, written_ofNat _⟩,
    by simp⟩

theorem PeerIdentifier.ofJsonText?_text (id : PeerIdentifier) :
    ofJsonText? id.toJson.text = some id := by
  rw [ofJsonText?, Json.Value.ofText?_eq_some_iff.mpr (document_text id.written_toJson)]
  exact id.ofJson?_toJson

namespace PeerAvailability

private theorem written_toJson (a : PeerAvailability) : Written a.toJson a.toJson.render := by
  apply written_object (by simp)
  simp only [List.forall_mem_cons]
  exact ⟨⟨inside_of_escape_eq rfl, a.identifier.written_toJson⟩,
    ⟨inside_of_escape_eq rfl, written_bool _⟩, ⟨inside_of_escape_eq rfl, written_ofText _⟩,
    ⟨inside_of_escape_eq rfl, written_ofNat _⟩, ⟨inside_of_escape_eq rfl, written_ofText _⟩,
    by simp⟩

theorem ofJsonText?_text (a : PeerAvailability) : ofJsonText? a.toJson.text = some a := by
  rw [ofJsonText?, Json.Value.ofText?_eq_some_iff.mpr (document_text a.written_toJson)]
  exact a.ofJson?_toJson

/-- Events and peers are read back from their own JSON texts. In every text of an event, and at
every place where the peer of the event stands in it, the known members of the object count alone,
whatever their order and whatever other members there are, and each of them must stand there once;
likewise in every text of a peer. What is no JSON document is the text of neither. -/
theorem json_decided :
    (∀ a : PeerAvailability, ofJsonText? a.toJson.text = some a) ∧
    (∀ id : PeerIdentifier, PeerIdentifier.ofJsonText? id.toJson.text = some id) ∧
    ReadsMembers memberNames ofJsonText? (fun v => v) ∧
    (∀ place, Place place → ReadsMembers PeerIdentifier.memberNames ofJsonText? place) ∧
    ReadsMembers PeerIdentifier.memberNames PeerIdentifier.ofJsonText? (fun v => v) ∧
    ∀ s, (¬ ∃ v, Document v s) → ofJsonText? s = none ∧ PeerIdentifier.ofJsonText? s = none := by
  refine ⟨ofJsonText?_text, PeerIdentifier.ofJsonText?_text, readsMembers,
    fun _ => readsMembers_place, PeerIdentifier.readsMembers, ?_⟩
  intro s hno
  have hnone : Json.Value.ofText? s = none := by
    rw [Option.eq_none_iff_forall_not_mem]
    exact fun v hv => hno ⟨v, Json.Value.ofText?_eq_some_iff.mp hv⟩
  rw [ofJsonText?, PeerIdentifier.ofJsonText?, hnone]
  exact ⟨rfl, rfl⟩

end PeerAvailability

end Texts

end BeaconMesh
