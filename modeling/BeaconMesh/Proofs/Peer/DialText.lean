import BeaconMesh.Peer.Availability
import BeaconMesh.Proofs.Peer.IdentifierText

/-!
The texts under which a peer is dialed and its beacons are fetched: that each tells host and port,
whatever characters the host is made of.
-/

set_option autoImplicit false
set_option relaxedAutoImplicit false

namespace BeaconMesh.PeerAvailability

/-- A host as it stands before the port: in brackets if it has a colon. -/
def dialedHost (host : List Char) : List Char :=
  if ':' ∈ host then '[' :: host ++ [']'] else host

variable {a b : PeerAvailability} {host : List Char}

theorem colon_mem_dialedHost : ':' ∈ dialedHost host ↔ ':' ∈ host := by
  by_cases hcolon : ':' ∈ host
  · simp [dialedHost, hcolon]
  · simp [dialedHost, hcolon]

/-- The brackets around a host are told from its own: only those around it have a colon between
them. -/
theorem dialedHost_injective : Function.Injective dialedHost := by
  intro host other h
  have hcolon : ':' ∈ host ↔ ':' ∈ other := by
    rw [← colon_mem_dialedHost, h, colon_mem_dialedHost]
  unfold dialedHost at h
  by_cases hmem : ':' ∈ host
  · rw [if_pos hmem, if_pos (hcolon.mp hmem)] at h
    exact List.append_cancel_right (List.cons.inj h).2
  · rwa [if_neg hmem, if_neg (hcolon.not.mp hmem)] at h

theorem toList_address (a : PeerAvailability) :
    a.address.toList = dialedHost a.host.toList ++ ':' :: Text.digits 10 a.port.toNat := by
  by_cases hcolon : ':' ∈ a.host.toList
  · simp [address, dialedHost, hcolon, Text.decimal]
  · simp [address, dialedHost, hcolon, Text.decimal]

theorem splitLast?_address (a : PeerAvailability) :
    Text.splitLast? ':' a.address.toList
      = some (dialedHost a.host.toList, Text.digits 10 a.port.toNat) := by
  have hport : ':' ∉ Text.digits 10 a.port.toNat :=
    Text.not_mem_digits (by decide) (by decide) (by decide) _
  exact Text.splitLast?_eq_some_iff.mpr ⟨a.toList_address, hport⟩

theorem address_eq_iff : a.address = b.address ↔ a.host = b.host ∧ a.port = b.port := by
  constructor
  · intro h
    have hsplit := a.splitLast?_address
    rw [h, b.splitLast?_address, Option.some.injEq, Prod.mk.injEq] at hsplit
    obtain ⟨hhost, hport⟩ := hsplit
    exact ⟨String.toList_inj.mp (dialedHost_injective hhost.symm),
      UInt16.toNat_inj.mp (Text.digits_injective (by decide) (by decide) hport.symm)⟩
  · rintro ⟨hhost, hport⟩
    simp only [address, hhost, hport]

theorem beaconUrl_eq_iff : a.beaconUrl = b.beaconUrl ↔ a.address = b.address := by
  simp [beaconUrl, ← String.toList_inj]

/-- Peers that are dialed by one text, or fetched from by one, share host and port. -/
theorem dialText_eq_iff (a b : PeerAvailability) :
    (a.address = b.address ↔ a.host = b.host ∧ a.port = b.port) ∧
    (a.beaconUrl = b.beaconUrl ↔ a.host = b.host ∧ a.port = b.port) :=
  ⟨address_eq_iff, beaconUrl_eq_iff.trans address_eq_iff⟩

-- Brackets of the host's own stay apart from those around it.
example : (tcp default "[::1]" 80).address = "[[::1]]:80" ∧
    (tcp default "::1" 80).address = "[::1]:80" := by decide

end BeaconMesh.PeerAvailability
