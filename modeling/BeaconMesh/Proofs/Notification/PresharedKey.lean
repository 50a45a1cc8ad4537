import BeaconMesh.Proofs.Beacon.RoundTrip
import BeaconMesh.Proofs.Key.HashText
import BeaconMesh.Proofs.Notification.Operation
import Mathlib.Data.List.Find

/-!
The secret that a server finds under a recipient's identity and the one that the recipient reads
from the published blob. The server keeps the last of several secrets for one recipient, and the
recipient stops at its first record in the random order of the blob.
-/

set_option autoImplicit false
set_option relaxedAutoImplicit false

namespace BeaconMesh.Notification

open Beacon

theorem toHex_ne_beaconIdentity (h : KeyHash) : h.toHex ≠ beaconIdentity := by
  intro heq
  have hlength := congrArg String.length heq
  rw [KeyHash.length_toHex] at hlength
  exact absurd hlength (by decide)

/-- Under the identity of a recipient a server finds the last secret made for it, if no other
recipient has the same digest. -/
theorem resolve_recipient {set : BeaconSet} {key : PublicKey}
    (hkey : ∃ a ∈ set.secrets, a.recipient = key)
    (hhash : ∀ a ∈ set.secrets, a.recipient.hash = key.hash → a.recipient = key) :
    ∃ secret, ⟨key, secret⟩ ∈ set.secrets ∧
      (set.secrets.reverse.find? fun a => a.recipient = key) = some ⟨key, secret⟩ ∧
      (Published.mk (some set)).resolve key.hash.toHex = some ⟨secret, some key⟩ := by
  have hsame : ∀ a ∈ set.secrets.reverse,
      (decide (a.recipient.hash.toHex = key.hash.toHex)) = decide (a.recipient = key) := by
    intro a ha
    rw [decide_eq_decide]
    constructor
    · intro htext
      exact hhash a (List.mem_reverse.mp ha) (KeyHash.toHex_injective htext)
    · intro hrecipient
      rw [hrecipient]
  obtain ⟨own, hown, hownKey⟩ := hkey
  cases hfind : set.secrets.reverse.find? fun a => a.recipient = key with
  | none =>
    have hnone := List.find?_eq_none.mp hfind own (List.mem_reverse.mpr hown)
    exact absurd hownKey (by simpa using hnone)
  | some found =>
    have hfound : found.recipient = key := by simpa using List.find?_some hfind
    obtain ⟨recipient, secret⟩ := found
    obtain rfl : recipient = key := hfound
    refine ⟨secret, List.mem_reverse.mp (List.mem_of_find?_eq_some hfind), rfl, ?_⟩
    rw [Published.resolve, if_neg (toHex_ne_beaconIdentity _)]
    show (set.secrets.reverse.find? _).map _ = _
    rw [List.find?_congr hsame, hfind]
    rfl

/-- After a server has begun to hand out beacons, a recipient's identity stands for the last secret
made for it, and the recipient reads from the blob one made for it. The two are the same exactly if
the first record with the recipient's tag is the one that the server keeps the secret of, and in
particular if the recipient was named once. -/
theorem resolve_eq_read_iff {s s' : Server} {recipients : List PublicKey} {reader : KeyPair}
    {now : Instant} {e : Entropy} {outcomes : List (Except String Unit)}
    (hrun : s.perform (.start recipients) now e outcomes = some (.ok (), s'))
    (hreader : reader.publicKey ∈ recipients)
    (hlegible : Legible (exchangeOf e) (preambleFor s.ttl now e) recipients reader)
    (hhash : ∀ key ∈ recipients, key.hash = reader.hash → key = reader.publicKey)
    (time : Instant) :
    ∃ blob entry parsed notice record,
      s'.published.blob = some blob ∧
      s'.published.resolve reader.hash.toHex = some entry ∧
      entry.owner = some reader.publicKey ∧
      (s'.published.addressed.reverse.find? fun a => a.recipient = reader.publicKey)
        = some ⟨reader.publicKey, entry.secret⟩ ∧
      parse blob reader time = .ok parsed ∧ parsed.notice = some notice ∧
      ⟨reader.publicKey, notice.secret⟩ ∈ s'.published.addressed ∧
      ((recordsIn blob).find? fun r => some (r.take 16)
        = recordTag? (exchangeOf e) (preambleFor s.ttl now e) reader.publicKey) = some record ∧
      (entry.secret = notice.secret ↔
        IsRecord (exchangeOf e) (preambleFor s.ttl now e) s.keys.hash
          ⟨reader.publicKey, entry.secret⟩ record) ∧
      (recipients.count reader.publicKey = 1 → entry.secret = notice.secret) := by
  obtain ⟨set, hmade, hpublished⟩ := Server.perform_start (List.ne_nil_of_mem hreader) hrun
  have hrecipients := map_recipient_secrets hmade
  have hkey : ∃ a ∈ set.secrets, a.recipient = reader.publicKey :=
    List.mem_map.mp (hrecipients ▸ hreader)
  have hdigests : ∀ a ∈ set.secrets,
      a.recipient.hash = reader.publicKey.hash → a.recipient = reader.publicKey := by
    intro a ha
    exact hhash a.recipient (hrecipients ▸ List.mem_map_of_mem ha)
  obtain ⟨secret, hsecret, hlast, hresolve⟩ := resolve_recipient hkey hdigests
  obtain ⟨⟨recipient, read⟩, record, hread, rfl, hrecord, hfirst, hparse⟩ :=
    parse_made hmade hreader hlegible time
  rw [hpublished]
  refine ⟨set.blob, ⟨secret, some reader.publicKey⟩, _, ⟨s.keys.hash, read⟩, record, rfl, hresolve,
    rfl, hlast, hparse, rfl, hread, hfirst, ?_, ?_⟩
  · constructor
    · intro heq
      obtain rfl : secret = read := heq
      exact hrecord
    · intro hkept
      exact hkept.secret_eq hrecord rfl
  · intro hcount
    exact congrArg Addressed.secret (secret_unique hmade hcount hsecret hread rfl rfl)

private theorem kept_ne_read_askedTwice {set : BeaconSet}
    (hmade : (generate askedTwice (repeating 1) (.ofSecs 60) ⟨0⟩ counting).1 = .ok set) :
    ((Published.mk (some set)).resolve (repeating 2).hash.toHex).map PskEntry.secret
      ≠ (parse set.blob (repeating 2) ⟨0⟩).toOption.bind fun p => p.notice.map Notice.secret := by
  have hboth : ∀ set' ∈ (generate askedTwice (repeating 1) (.ofSecs 60) ⟨0⟩ counting).1.toOption,
      ((Published.mk (some set')).resolve (repeating 2).hash.toHex).map PskEntry.secret
        ≠ (parse set'.blob (repeating 2) ⟨0⟩).toOption.bind
          fun p => p.notice.map Notice.secret := by
    decide +kernel
  exact hboth set (by rw [hmade]; rfl)

/-- A recipient that is named twice can read another secret than the server keeps for it. -/
theorem resolve_ne_read_askedTwice : ∃ s' blob entry parsed notice,
    (Server.fresh (repeating 1) (.ofSecs 60)).perform (.start askedTwice) ⟨0⟩ counting
      [.ok (), .ok ()] = some (.ok (), s') ∧
    (repeating 2).publicKey ∈ askedTwice ∧
    Legible (exchangeOf counting) (preambleFor (.ofSecs 60) ⟨0⟩ counting) askedTwice
      (repeating 2) ∧
    (∀ key ∈ askedTwice, key.hash = (repeating 2).hash → key = (repeating 2).publicKey) ∧
    s'.published.blob = some blob ∧
    s'.published.resolve (repeating 2).hash.toHex = some entry ∧
    parse blob (repeating 2) ⟨0⟩ = .ok parsed ∧ parsed.notice = some notice ∧
    entry.secret ≠ notice.secret := by
  obtain ⟨set, hmade⟩ := generate_askedTwice
  have hreader : (repeating 2).publicKey ∈ askedTwice := List.mem_cons_self
  have hhash : ∀ key ∈ askedTwice, key.hash = (repeating 2).hash →
      key = (repeating 2).publicKey := by
    decide +kernel
  have hrun := Server.perform_start_fresh (List.ne_nil_of_mem hreader) hmade
  obtain ⟨blob, entry, parsed, notice, _, hblob, hresolve, _, _, hparse, hnotice, _⟩ :=
    resolve_eq_read_iff hrun hreader legible_askedTwice hhash ⟨0⟩
  refine ⟨_, blob, entry, parsed, notice, hrun, hreader, legible_askedTwice, hhash, hblob, hresolve,
    hparse, hnotice, ?_⟩
  intro heq
  obtain rfl : set.blob = blob := Option.some.inj hblob
  have hdiffer := kept_ne_read_askedTwice hmade
  rw [hparse] at hdiffer
  refine hdiffer ?_
  rw [hresolve]
  show some entry.secret = parsed.notice.map Notice.secret
  rw [hnotice, heq]
  rfl

end BeaconMesh.Notification
