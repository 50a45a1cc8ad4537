import BeaconMesh.Proofs.Beacon.Records
import Mathlib.Data.List.Count

/-!
Every recipient of a beacon set reads back its sender and one of the secrets made for it.
-/

set_option autoImplicit false
set_option relaxedAutoImplicit false

namespace BeaconMesh.Beacon

def exchangeOf (e : Entropy) : KeyPair := (KeyPair.generate e).1

def preambleFor (ttl : Duration) (now : Instant) (e : Entropy) : Bytes :=
  preambleOf (exchangeOf e).publicKey (expiration ttl now)

/-- What the reader of a set made for some recipients relies on: agreement gives both sides the
same, the key of the exchange is accepted, and no other recipient's record has the reader's tag. -/
structure Legible (exchange : KeyPair) (preamble : Bytes) (recipients : List PublicKey)
    (reader : KeyPair) : Prop where
  symmetric : exchange.agree? reader.publicKey = reader.agree? exchange.publicKey
  accepted : PublicKey.ofBytes exchange.publicKey.bytes = .ok exchange.publicKey
  tags_apart : ∀ other ∈ recipients, other ≠ reader.publicKey →
    recordTag? exchange preamble other ≠ recordTag? exchange preamble reader.publicKey

private theorem mem_recipients {items : List (Bytes × Addressed)} {recipients : List PublicKey}
    (hrecipients : items.map (fun i => i.2.recipient) = recipients) {i : Bytes × Addressed}
    (hi : i ∈ items) : i.2.recipient ∈ recipients := by
  rw [← hrecipients]
  exact List.mem_map_of_mem hi

theorem find_own_record {exchange reader : KeyPair} {preamble : Bytes} {sender : KeyHash}
    {recipients : List PublicKey} {items : List (Bytes × Addressed)} {records : List Bytes}
    (hrecipients : items.map (fun i => i.2.recipient) = recipients)
    (hitems : ∀ i ∈ items, IsRecord exchange preamble sender i.2 i.1)
    (hrecords : records.Perm (items.map Prod.fst)) (hreader : reader.publicKey ∈ recipients)
    (hlegible : Legible exchange preamble recipients reader) {shared : Block 32}
    (hshared : exchange.agree? reader.publicKey = some shared) :
    ∃ i ∈ items, i.2.recipient = reader.publicKey ∧
      (records.find? fun r => r.take 16
        = (RecordKeys.derive shared.bytes preamble).tagFor reader.publicKey) = some i.1 := by
  have htag : recordTag? exchange preamble reader.publicKey
      = some ((RecordKeys.derive shared.bytes preamble).tagFor reader.publicKey) := by
    rw [recordTag?, hshared, Option.map_some]
  -- the reader's own record is there, so the search finds something
  obtain ⟨own, hown, hownReader⟩ : ∃ i ∈ items, i.2.recipient = reader.publicKey := by
    rw [← hrecipients] at hreader
    exact List.mem_map.mp hreader
  have hownTag : own.1.take 16
      = (RecordKeys.derive shared.bytes preamble).tagFor reader.publicKey := by
    have h := (hitems own hown).tag
    rw [hownReader, htag] at h
    exact (Option.some.inj h).symm
  have hownMem : own.1 ∈ records := hrecords.mem_iff.mpr (List.mem_map_of_mem hown)
  cases hfind : records.find? fun r => r.take 16
      = (RecordKeys.derive shared.bytes preamble).tagFor reader.publicKey with
  | none => exact absurd hownTag (by simpa using List.find?_eq_none.mp hfind own.1 hownMem)
  | some record =>
    have hrecordTag : record.take 16
        = (RecordKeys.derive shared.bytes preamble).tagFor reader.publicKey := by
      simpa using List.find?_some hfind
    obtain ⟨i, hi, rfl⟩ := List.mem_map.mp (hrecords.mem_iff.mp (List.mem_of_find?_eq_some hfind))
    refine ⟨i, hi, ?_, rfl⟩
    -- a record with the reader's tag was made for no other recipient
    by_contra hother
    refine hlegible.tags_apart i.2.recipient (mem_recipients hrecipients hi) hother ?_
    rw [(hitems i hi).tag, htag, hrecordTag]

/-- What a recipient reads from a set: the sender and the secret of the first record that carries
the recipient's tag, which was made for the recipient. -/
theorem parse_made {recipients : List PublicKey} {sender reader : KeyPair} {ttl : Duration}
    {now : Instant} {e : Entropy} {set : BeaconSet}
    (hmade : (generate recipients sender ttl now e).1 = .ok set)
    (hreader : reader.publicKey ∈ recipients)
    (hlegible : Legible (exchangeOf e) (preambleFor ttl now e) recipients reader) (time : Instant) :
    ∃ item record, item ∈ set.secrets ∧ item.recipient = reader.publicKey ∧
      IsRecord (exchangeOf e) (preambleFor ttl now e) sender.hash item record ∧
      ((recordsIn set.blob).find? fun r => some (r.take 16)
        = recordTag? (exchangeOf e) (preambleFor ttl now e) reader.publicKey) = some record ∧
      parse set.blob reader time = .ok ⟨some ⟨sender.hash, item.secret⟩,
        decide (set.expiresAt < time.unixMillis), set.expiresAt⟩ := by
  obtain ⟨items, records, hrecipients, hitems, hperm, hblob, hsecrets, hexpires⟩ :=
    generate_ok hmade
  have hpreamble : preambleOf (exchangeOf e).publicKey set.expiresAt = preambleFor ttl now e := by
    rw [preambleFor, hexpires]
  change ∀ i ∈ items, IsRecord (exchangeOf e) (preambleOf (exchangeOf e).publicKey set.expiresAt)
    sender.hash i.2 i.1 at hitems
  change set.blob = preambleOf (exchangeOf e).publicKey set.expiresAt ++ records.flatten at hblob
  have hlength : ∀ r ∈ records, r.length = recordLength := by
    intro r hr
    obtain ⟨i, hi, rfl⟩ := List.mem_map.mp (hperm.mem_iff.mp hr)
    exact (hitems i hi).length
  have hrecordsIn : recordsIn set.blob = records := by
    rw [hblob, recordsIn_joined (length_preambleOf _ _) hlength]
  rw [hpreamble] at hitems
  -- a record was made for the reader, so agreement with its key gave something
  obtain ⟨shared, hshared⟩ : ∃ shared, (exchangeOf e).agree? reader.publicKey = some shared := by
    rw [← hrecipients] at hreader
    obtain ⟨own, hown, hownReader⟩ := List.mem_map.mp hreader
    obtain ⟨shared, _, hshared, _⟩ := hitems own hown
    exact ⟨shared, hownReader ▸ hshared⟩
  obtain ⟨i, hi, hiReader, hfind⟩ :=
    find_own_record hrecipients hitems hperm hreader hlegible hshared
  have hsharedReader : reader.agree? (exchangeOf e).publicKey = some shared := by
    rw [← hlegible.symmetric, hshared]
  have hsharedItem : (exchangeOf e).agree? i.2.recipient = some shared := by
    rw [hiReader, hshared]
  refine ⟨i.2, i.1, hsecrets ▸ List.mem_map_of_mem hi, hiReader, hitems i hi, ?_, ?_⟩
  · simp only [hrecordsIn, recordTag?, hshared, Option.map_some, Option.some.injEq]
    exact hfind
  · rw [hblob, parse_joined time hlength hlegible.accepted hsharedReader, hpreamble,
      findRecord_of_find hfind, (hitems i hi).opens hsharedItem]
    rfl

private theorem eq_of_count_map {α β : Type} [DecidableEq β] {f : α → β} {xs : List α} {y : β}
    (hcount : (xs.map f).count y = 1) {a b : α} (ha : a ∈ xs) (hb : b ∈ xs) (hfa : f a = y)
    (hfb : f b = y) : a = b := by
  rw [List.count, List.countP_map, List.countP_eq_length_filter, List.length_eq_one_iff] at hcount
  obtain ⟨c, hc⟩ := hcount
  have hmem : ∀ x ∈ xs, f x = y → x = c := by
    intro x hx hfx
    have : x ∈ xs.filter ((fun z => z == y) ∘ f) := List.mem_filter.mpr ⟨hx, by simpa using hfx⟩
    rw [hc] at this
    exact List.mem_singleton.mp this
  rw [hmem a ha hfa, hmem b hb hfb]

theorem secret_unique {recipients : List PublicKey} {sender : KeyPair} {ttl : Duration}
    {now : Instant} {e : Entropy} {set : BeaconSet}
    (hmade : (generate recipients sender ttl now e).1 = .ok set) {key : PublicKey}
    (hcount : recipients.count key = 1) {a b : Addressed} (ha : a ∈ set.secrets)
    (hb : b ∈ set.secrets) (hakey : a.recipient = key) (hbkey : b.recipient = key) : a = b := by
  have hcountSecrets : (set.secrets.map Addressed.recipient).count key = 1 := by
    rw [map_recipient_secrets hmade, hcount]
  exact eq_of_count_map hcountSecrets ha hb hakey hbkey

/-- A recipient of a set finds its record, opens it, and learns the sender, the time of expiry and
a secret made for it, the only one if the recipient was named once. -/
theorem parse_generate {recipients : List PublicKey} {sender reader : KeyPair} {ttl : Duration}
    {now : Instant} {e : Entropy} {set : BeaconSet}
    (hmade : (generate recipients sender ttl now e).1 = .ok set)
    (hreader : reader.publicKey ∈ recipients)
    (hlegible : Legible (exchangeOf e) (preambleFor ttl now e) recipients reader) (time : Instant) :
    ∃ parsed secret, parse set.blob reader time = .ok parsed ∧ parsed.matched = true ∧
      parsed.notice = some ⟨sender.hash, secret⟩ ∧ parsed.expiresAt = set.expiresAt ∧
      ⟨reader.publicKey, secret⟩ ∈ set.secrets ∧
      (recipients.count reader.publicKey = 1 →
        ∀ a ∈ set.secrets, a.recipient = reader.publicKey → a.secret = secret) := by
  obtain ⟨⟨recipient, secret⟩, record, hmem, rfl, _, _, hparse⟩ :=
    parse_made hmade hreader hlegible time
  refine ⟨_, secret, hparse, rfl, rfl, rfl, hmem, ?_⟩
  intro hcount a ha hrecipient
  exact congrArg Addressed.secret (secret_unique hmade hcount ha hmem hrecipient rfl)

/-- The key pair whose secret is the same byte over and over. -/
def repeating (b : UInt8) : KeyPair := .ofSecret ⟨List.replicate 32 b, by simp⟩

/-- The stream that counts up from zero, again and again. -/
def counting : Entropy := ⟨UInt8.ofNat, 0, 1024⟩

def askedTwice : List PublicKey :=
  [(repeating 2).publicKey, (repeating 3).publicKey, (repeating 2).publicKey]

theorem generate_askedTwice : ∃ set,
    (generate askedTwice (repeating 1) (.ofSecs 60) ⟨0⟩ counting).1 = .ok set := by
  have hok : (generate askedTwice (repeating 1) (.ofSecs 60) ⟨0⟩ counting).1.isOk = true := by
    decide +kernel
  cases hmade : (generate askedTwice (repeating 1) (.ofSecs 60) ⟨0⟩ counting).1 with
  | error _ => rw [hmade] at hok; cases hok
  | ok set => exact ⟨set, rfl⟩

theorem legible_askedTwice :
    Legible (exchangeOf counting) (preambleFor (.ofSecs 60) ⟨0⟩ counting) askedTwice
      (repeating 2) where
  symmetric := by decide +kernel
  accepted := by decide +kernel
  tags_apart := by decide +kernel

theorem parse_generate_askedTwice : ∃ set,
    (generate askedTwice (repeating 1) (.ofSecs 60) ⟨0⟩ counting).1 = .ok set ∧
    (repeating 2).publicKey ∈ askedTwice ∧
    Legible (exchangeOf counting) (preambleFor (.ofSecs 60) ⟨0⟩ counting) askedTwice
      (repeating 2) ∧
    ∃ parsed secret, parse set.blob (repeating 2) ⟨0⟩ = .ok parsed ∧ parsed.matched = true ∧
      parsed.notice = some ⟨(repeating 1).hash, secret⟩ ∧ parsed.expiresAt = set.expiresAt ∧
      ⟨(repeating 2).publicKey, secret⟩ ∈ set.secrets := by
  obtain ⟨set, hmade⟩ := generate_askedTwice
  have hreader : (repeating 2).publicKey ∈ askedTwice := List.mem_cons_self
  obtain ⟨parsed, secret, hparse, hmatched, hnotice, hexpires, hmem, _⟩ :=
    parse_generate hmade hreader legible_askedTwice ⟨0⟩
  exact ⟨set, hmade, hreader, legible_askedTwice, parsed, secret, hparse, hmatched, hnotice,
    hexpires, hmem⟩

end BeaconMesh.Beacon
