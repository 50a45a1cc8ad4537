import BeaconMesh.Config
import BeaconMesh.Peer.Availability
import BeaconMesh.Proofs.Net.AddressText

/-!
Where a peer known beforehand is dialed: at its address without the scope, while its uuid keeps the
scope.
-/

set_option autoImplicit false
set_option relaxedAutoImplicit false

namespace BeaconMesh

open Net (SocketAddress Ipv4 Ipv6)

namespace Net

/-- The scope of the address; a version 4 address has none, which counts as zero. -/
def SocketAddress.scope : SocketAddress → UInt32
  | .v4 _ _ => 0
  | .v6 _ _ scope => scope

def SocketAddress.unscoped : SocketAddress → SocketAddress
  | .v4 ip port => .v4 ip port
  | .v6 ip port _ => .v6 ip port 0

theorem SocketAddress.unscoped_eq_iff (p : SocketAddress) : p.unscoped = p ↔ p.scope = 0 := by
  cases p <;> simp [unscoped, scope, eq_comm]

theorem Ipv4.colon_not_mem_text (ip : Ipv4) : ':' ∉ ip.text.toList := by
  have hdigits : ∀ n, ':' ∉ Text.digits 10 n :=
    Text.not_mem_digits (by decide) (by decide) (by decide)
  simp [toList_text_v4, hdigits]

theorem Ipv6.colon_mem_text (ip : Ipv6) : ':' ∈ ip.text.toList := by
  cases hmapped : ip.mapped? with
  | some v4 => simp [Ipv6.text, hmapped]
  | none =>
    obtain htext | ⟨before, length, after, -, htext⟩ := text_eq_of_not_mapped hmapped
    · obtain ⟨groups, hlength⟩ := ip
      obtain ⟨g, rest, rfl⟩ := List.exists_cons_of_length_eq_add_one hlength
      obtain ⟨next, rest, rfl⟩ := List.exists_cons_of_length_eq_add_one (Nat.succ.inj hlength)
      simp [htext, toList_groupsText_cons, colonGroups]
    · simp [htext]

end Net

namespace PeerAvailability

theorem address_ofStaticPeer (p : SocketAddress) (generation : UInt32) :
    (ofStaticPeer p generation).address = p.unscoped.text := by
  cases p with
  | v4 ip port =>
    simp [address, ofStaticPeer, tcp, SocketAddress.hostText, ip.colon_not_mem_text,
      SocketAddress.unscoped, SocketAddress.text, SocketAddress.port]
  | v6 ip port scope =>
    apply String.toList_inj.mp
    simp [address, ofStaticPeer, tcp, SocketAddress.hostText, ip.colon_mem_text,
      SocketAddress.unscoped, SocketAddress.text, SocketAddress.port]

/-- Every address can be configured by its text, which is the uuid of its static peer, so that no
two peers share one. The address that is dialed is the configured one without its scope: it is the
configured one, and the text of the uuid, just if there is no scope. -/
theorem ofStaticPeer_dialed (p : SocketAddress) (generation : UInt32) :
    Config.readPeer p.text = .ok p ∧
    (ofStaticPeer p generation).uuid = p.text ∧
    (ofStaticPeer p generation).generation = generation ∧
    (ofStaticPeer p generation).address = p.unscoped.text ∧
    SocketAddress.ofChars? (ofStaticPeer p generation).address.toList = some p.unscoped ∧
    (SocketAddress.ofChars? (ofStaticPeer p generation).address.toList = some p ↔ p.scope = 0) ∧
    ((ofStaticPeer p generation).address = (ofStaticPeer p generation).uuid ↔ p.scope = 0) ∧
    ∀ q other,
      ((ofStaticPeer q other).uuid = (ofStaticPeer p generation).uuid ↔ q = p) ∧
      ((ofStaticPeer q other).address = (ofStaticPeer p generation).address
        ↔ q.unscoped = p.unscoped) := by
  have hread : SocketAddress.ofChars? (ofStaticPeer p generation).address.toList
      = some p.unscoped := by
    rw [address_ofStaticPeer, SocketAddress.ofChars?_text]
  refine ⟨by rw [Config.readPeer, SocketAddress.ofChars?_text], rfl, rfl,
    address_ofStaticPeer p generation, hread, ?_, ?_, fun q other => ⟨?_, ?_⟩⟩
  · rw [hread, Option.some.injEq, p.unscoped_eq_iff]
  · exact (address_ofStaticPeer p generation).symm ▸
      SocketAddress.text_injective.eq_iff.trans p.unscoped_eq_iff
  · exact SocketAddress.text_injective.eq_iff
  · rw [address_ofStaticPeer, address_ofStaticPeer]
    exact SocketAddress.text_injective.eq_iff

end PeerAvailability

end BeaconMesh
