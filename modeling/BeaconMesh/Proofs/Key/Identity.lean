import BeaconMesh.Beacon.Basic
import BeaconMesh.Proofs.Bytes.Layout
import BeaconMesh.Proofs.Curve.Encoding

/-!
The public keys of one point. A point has one canonical encoding, and that is the public key of
whoever holds its secret. An encoding that is accepted without being canonical is another key of
the same point: the same secrets are agreed with both, but they are not looked up as one.
-/

set_option autoImplicit false
set_option relaxedAutoImplicit false

namespace BeaconMesh

open Curve (prime)
open Curve.Point (decode? reduced Canonical Twins)

namespace PublicKey

theorem bytes_injective : Function.Injective bytes := by
  intro a b h
  cases a
  cases b
  exact congrArg mk (Block.ext h)

/-- Bytes are accepted as a key if they are that key and encode a point that is not of small
order. -/
theorem ofBytes_eq_ok_iff {bytes : Bytes} {key : PublicKey} :
    ofBytes bytes = .ok key ↔
      key.bytes = bytes ∧ ∃ point, decode? bytes = some point ∧ point.hasSmallOrder = false := by
  constructor
  · intro h
    rw [ofBytes, Block.ofBytes?] at h
    split at h
    · cases h
    · rename_i block hblock
      split at hblock
      · obtain rfl := Option.some.inj hblock
        split at h
        · cases h
        · rename_i point hpoint
          split at h
          · cases h
          · rename_i horder
            obtain rfl := Except.ok.inj h
            exact ⟨rfl, point, hpoint, Bool.eq_false_iff.mpr horder⟩
      · cases hblock
  · rintro ⟨rfl, point, hpoint, horder⟩
    have hblock : Block.ofBytes? 32 key.bytes = some key.encoded :=
      dif_pos key.encoded.length_bytes
    rw [ofBytes, hblock]
    simp only [hpoint, horder, Bool.false_eq_true, if_false]

section Accepted

variable {b₁ b₂ : Bytes} {k₁ k₂ : PublicKey}

theorem length_of_ofBytes (h : ofBytes b₁ = .ok k₁) : b₁.length = 32 := by
  obtain ⟨rfl, -⟩ := ofBytes_eq_ok_iff.mp h
  exact k₁.encoded.length_bytes

theorem decode?_eq_iff_reduced_eq (h : ofBytes b₁ = .ok k₁) :
    decode? b₂ = decode? b₁ ↔ reduced b₂ = reduced b₁ := by
  obtain ⟨-, point, hpoint, horder⟩ := ofBytes_eq_ok_iff.mp h
  rw [Curve.Point.reduced_eq_iff]
  constructor
  · intro hsame
    exact (Curve.Point.decode?_eq_iff (hsame.trans hpoint) hpoint horder).mp rfl
  · rintro ⟨hsign, hy⟩
    exact Curve.Point.decode?_congr hsign hy

theorem ofBytes_reduced (h : ofBytes b₁ = .ok k₁) :
    ofBytes (reduced b₁).bytes = .ok ⟨reduced b₁⟩ := by
  obtain ⟨-, hpoint⟩ := ofBytes_eq_ok_iff.mp h
  apply ofBytes_eq_ok_iff.mpr
  rw [Curve.Point.decode?_reduced]
  exact ⟨rfl, hpoint⟩

theorem eq_reduced_iff (h : ofBytes b₁ = .ok k₁) : ⟨reduced b₁⟩ = k₁ ↔ Canonical b₁ := by
  have hlength := length_of_ofBytes h
  obtain ⟨rfl, -⟩ := ofBytes_eq_ok_iff.mp h
  rw [← Curve.Point.reduced_bytes_eq_iff hlength]
  exact ⟨fun hkey => congrArg bytes hkey, fun hbytes => bytes_injective hbytes⟩

end Accepted

end PublicKey

namespace KeyPair

variable {b : Bytes} {key : PublicKey}

theorem canonical_publicKey (pair : KeyPair) : Canonical pair.publicKey.bytes := by
  rw [pair.publicKey_eq]
  exact Curve.Point.canonical_encode _

theorem publicKey_eq_reduced (owner : KeyPair) (h : PublicKey.ofBytes b = .ok key)
    (hpoint : decode? owner.publicKey.bytes = decode? b) : owner.publicKey = ⟨reduced b⟩ := by
  have hreduced := (PublicKey.decode?_eq_iff_reduced_eq h).mp hpoint
  have hown := (Curve.Point.reduced_bytes_eq_iff owner.publicKey.encoded.length_bytes).mpr
    owner.canonical_publicKey
  apply PublicKey.bytes_injective
  rw [← hreduced]
  exact hown.symm

theorem agreement_congr (pair : KeyPair) {other : PublicKey}
    (h : reduced key.bytes = reduced other.bytes) : pair.agreement key = pair.agreement other := by
  have hy := Curve.Point.encodedY_eq_iff.mpr (Curve.Point.reduced_eq_iff.mp h).2
  have hcoordinate : Curve.Montgomery.ofEncoded key.bytes
      = Curve.Montgomery.ofEncoded other.bytes := by
    simp only [Curve.Montgomery.ofEncoded, hy]
  simp only [agreement, Curve.agreement, hcoordinate]

end KeyPair

namespace PublicKey

/-- Two accepted encodings belong to one point just when they are equal or twins. The one that
reduction gives is accepted too and is the only canonical one; whoever holds the secret of the
point has that one as the public key, and agrees on the same secrets with all. -/
theorem accepted_of_one_point {b₁ b₂ : Bytes} {k₁ k₂ : PublicKey} (h₁ : ofBytes b₁ = .ok k₁)
    (h₂ : ofBytes b₂ = .ok k₂) :
    (decode? b₁ = decode? b₂ ↔ b₁ = b₂ ∨ Twins b₁ b₂ ∨ Twins b₂ b₁) ∧
    (ofBytes (reduced b₁).bytes = .ok ⟨reduced b₁⟩ ∧ decode? (reduced b₁).bytes = decode? b₁ ∧
      Canonical (reduced b₁).bytes) ∧
    (decode? b₁ = decode? b₂ → Canonical b₁ → Canonical b₂ → k₁ = k₂) ∧
    ∀ owner : KeyPair, decode? owner.publicKey.bytes = decode? b₁ →
      (owner.publicKey = k₁ ↔ Canonical b₁) ∧
      ∀ exchange : KeyPair, exchange.agreement k₁ = exchange.agreement owner.publicKey := by
  have hpoint : decode? b₁ = decode? b₂ ↔ reduced b₁ = reduced b₂ :=
    decode?_eq_iff_reduced_eq h₂
  refine ⟨?_, ⟨ofBytes_reduced h₁, Curve.Point.decode?_reduced b₁,
    Curve.Point.canonical_reduced b₁⟩, ?_, ?_⟩
  · rw [hpoint, Curve.Point.reduced_eq_iff,
      Curve.Point.eq_or_twins_iff (length_of_ofBytes h₁) (length_of_ofBytes h₂)]
  · intro hsame hcanonical₁ hcanonical₂
    rw [← (eq_reduced_iff h₁).mpr hcanonical₁, ← (eq_reduced_iff h₂).mpr hcanonical₂,
      hpoint.mp hsame]
  · intro owner howner
    have hreduced := owner.publicKey_eq_reduced h₁ howner
    constructor
    · rw [hreduced]
      exact eq_reduced_iff h₁
    · intro exchange
      apply exchange.agreement_congr
      rw [(ofBytes_eq_ok_iff.mp h₁).1]
      exact ((decode?_eq_iff_reduced_eq h₁).mp howner).symm

/-- The point whose `y` is three has two encodings that are both accepted, as keys with
different digests; a record for the one is not tagged as one for the other. -/
theorem accepted_of_one_point_three : ∃ low high,
    ofBytes (Bytes.ofNatLE 32 3) = .ok low ∧
    ofBytes (Bytes.ofNatLE 32 (3 + prime)) = .ok high ∧
    decode? (Bytes.ofNatLE 32 3) = decode? (Bytes.ofNatLE 32 (3 + prime)) ∧
    low ≠ high ∧ low.hash ≠ high.hash ∧
    (Beacon.RecordKeys.derive [] []).tagFor low ≠ (Beacon.RecordKeys.derive [] []).tagFor high := by
  have hlow : ofBytes (Bytes.ofNatLE 32 3) = .ok ⟨⟨Bytes.ofNatLE 32 3, by decide⟩⟩ := by
    decide +kernel
  have hhigh : ofBytes (Bytes.ofNatLE 32 (3 + prime))
      = .ok ⟨⟨Bytes.ofNatLE 32 (3 + prime), by decide⟩⟩ := by
    decide +kernel
  have htwins : Twins (Bytes.ofNatLE 32 3) (Bytes.ofNatLE 32 (3 + prime)) := by decide +kernel
  refine ⟨_, _, hlow, hhigh, ?_, ?_, ?_, ?_⟩
  · exact (accepted_of_one_point hlow hhigh).1.mpr (.inr (.inl htwins))
  · decide +kernel
  · decide +kernel
  · decide +kernel

end PublicKey

end BeaconMesh
