import BeaconMesh.Beacon.Generate
import BeaconMesh.Beacon.Parse
import BeaconMesh.Proofs.Crypto.Sealing
import BeaconMesh.Proofs.Entropy.Shuffle

/-!
The records of a beacon set from both sides: what the maker of a set writes for a recipient, what
the set is put together from, and what a reader takes from the first record with its own tag.
-/

set_option autoImplicit false
set_option relaxedAutoImplicit false

namespace BeaconMesh

@[simp] theorem Crypto.Blake3.length_digest (mode : Mode) (message : Bytes) :
    (digest mode message).length = 32 := by
  simp [digest, Chaining.toBytes, Lanes.toWords, bytesOfWord]

@[simp] theorem PublicKey.length_bytes (key : PublicKey) : key.bytes.length = 32 :=
  key.encoded.length_bytes

namespace Beacon

def recordTag? (exchange : KeyPair) (preamble : Bytes) (recipient : PublicKey) : Option Bytes :=
  (exchange.agree? recipient).map fun shared =>
    (RecordKeys.derive shared.bytes preamble).tagFor recipient

/-- The bytes are a record that the maker of a set writes for an item, under some nonce. -/
def IsRecord (exchange : KeyPair) (preamble : Bytes) (sender : KeyHash) (item : Addressed)
    (record : Bytes) : Prop :=
  ∃ shared nonce, exchange.agree? item.recipient = some shared ∧ nonce.length = 12 ∧
    record = recordOf (RecordKeys.derive shared.bytes preamble) preamble nonce sender item

@[simp] theorem length_preambleOf (exchange : PublicKey) (expiresAt : UInt64) :
    (preambleOf exchange expiresAt).length = preambleLength := by
  simp [preambleOf, preambleLength]

theorem take_preambleOf_append (exchange : PublicKey) (expiresAt : UInt64) (rest : Bytes) :
    (preambleOf exchange expiresAt ++ rest).take 32 = exchange.bytes := by
  rw [preambleOf, List.append_assoc]
  exact List.take_left' exchange.length_bytes

@[simp] theorem RecordKeys.length_tagFor (keys : RecordKeys) (recipient : PublicKey) :
    (keys.tagFor recipient).length = 16 := by
  simp [tagFor, Crypto.Blake3.keyedHash]

theorem length_recordOf (keys : RecordKeys) (preamble nonce : Bytes) (sender : KeyHash)
    (item : Addressed) (hnonce : nonce.length = 12) :
    (recordOf keys preamble nonce sender item).length = recordLength := by
  have hsender : sender.bytes.length = 16 := sender.digest.length_bytes
  have hsecret : item.secret.bytes.length = 32 := item.secret.block.length_bytes
  simp [recordOf, recordLength, hnonce, hsender, hsecret]

private theorem take_recordOf (keys : RecordKeys) (preamble nonce : Bytes) (sender : KeyHash)
    (item : Addressed) :
    (recordOf keys preamble nonce sender item).take 16 = keys.tagFor item.recipient := by
  rw [recordOf, List.append_assoc]
  exact List.take_left' (keys.length_tagFor item.recipient)

/-- Opening a record under the keys it was written with gives the sender and the secret. -/
theorem openRecord_recordOf (keys : RecordKeys) (preamble nonce : Bytes) (sender : KeyHash)
    (item : Addressed) (hnonce : nonce.length = 12) :
    openRecord keys preamble (recordOf keys preamble nonce sender item)
      = .ok ⟨sender, item.secret⟩ := by
  have htag := keys.length_tagFor item.recipient
  have hafterTag : (recordOf keys preamble nonce sender item).drop 16
      = nonce ++ Crypto.Sealed.close keys.payloadKey nonce preamble
          (sender.bytes ++ item.secret.bytes) := by
    rw [recordOf, List.append_assoc]
    exact List.drop_left' htag
  have hnonceRead : ((recordOf keys preamble nonce sender item).drop 16).take 12 = nonce := by
    rw [hafterTag]
    exact List.take_left' hnonce
  have hsealed : (recordOf keys preamble nonce sender item).drop 28
      = Crypto.Sealed.close keys.payloadKey nonce preamble
          (sender.bytes ++ item.secret.bytes) := by
    rw [recordOf]
    exact List.drop_left' (by rw [List.length_append, htag, hnonce])
  have hsender : Block.leading 16 (sender.bytes ++ item.secret.bytes) = sender.digest :=
    Block.leading_append sender.digest item.secret.bytes
  have hsecret : (sender.bytes ++ item.secret.bytes).drop 16 = item.secret.block.bytes :=
    List.drop_left' sender.digest.length_bytes
  simp only [openRecord, hnonceRead, hsealed, Crypto.Sealed.reveal_close, hsender, hsecret,
    Block.leading_bytes]

theorem IsRecord.length {exchange : KeyPair} {preamble : Bytes} {sender : KeyHash}
    {item : Addressed} {record : Bytes} (h : IsRecord exchange preamble sender item record) :
    record.length = recordLength := by
  obtain ⟨shared, nonce, _, hnonce, rfl⟩ := h
  exact length_recordOf _ _ _ _ _ hnonce

theorem IsRecord.tag {exchange : KeyPair} {preamble : Bytes} {sender : KeyHash}
    {item : Addressed} {record : Bytes} (h : IsRecord exchange preamble sender item record) :
    recordTag? exchange preamble item.recipient = some (record.take 16) := by
  obtain ⟨shared, nonce, hshared, _, rfl⟩ := h
  rw [recordTag?, hshared, Option.map_some, take_recordOf]

theorem IsRecord.opens {exchange : KeyPair} {preamble : Bytes} {sender : KeyHash}
    {item : Addressed} {record : Bytes} (h : IsRecord exchange preamble sender item record)
    {shared : Block 32} (hshared : exchange.agree? item.recipient = some shared) :
    openRecord (RecordKeys.derive shared.bytes preamble) preamble record
      = .ok ⟨sender, item.secret⟩ := by
  obtain ⟨shared', nonce, hshared', hnonce, rfl⟩ := h
  obtain rfl : shared' = shared := Option.some.inj (hshared'.symm.trans hshared)
  exact openRecord_recordOf _ _ _ _ _ hnonce

theorem IsRecord.secret_eq {exchange : KeyPair} {preamble : Bytes} {sender : KeyHash}
    {item other : Addressed} {record : Bytes} (h : IsRecord exchange preamble sender item record)
    (h' : IsRecord exchange preamble sender other record)
    (hrecipient : item.recipient = other.recipient) : item.secret = other.secret := by
  have hagreed : ∃ shared, exchange.agree? item.recipient = some shared := by
    obtain ⟨shared, _, hshared, _⟩ := h
    exact ⟨shared, hshared⟩
  obtain ⟨shared, hshared⟩ := hagreed
  have hother : exchange.agree? other.recipient = some shared := by rw [← hrecipient, hshared]
  have hnotice : (⟨sender, item.secret⟩ : Notice) = ⟨sender, other.secret⟩ :=
    Except.ok.inj ((h.opens hshared).symm.trans (h'.opens hother))
  exact congrArg Notice.secret hnotice

theorem sealFor_eq (keys : RecordKeys) (preamble : Bytes) (sender : KeyHash)
    (recipient : PublicKey) (e : Entropy) :
    ∃ secret nonce, nonce.length = 12 ∧
      (sealFor keys preamble sender recipient e).1
        = (recordOf keys preamble nonce sender ⟨recipient, secret⟩, ⟨recipient, secret⟩) := by
  refine ⟨(BeaconSecret.random e).1, ((BeaconSecret.random e).2.take 12).1, ?_, rfl⟩
  simp [Entropy.take]

theorem andThen_ok {α β : Type} {made : Except Fault α × Entropy}
    {next : α → Entropy → Except Fault β × Entropy} {b : β} (h : (andThen made next).1 = .ok b) :
    ∃ a e, made = (.ok a, e) ∧ (next a e).1 = .ok b := by
  rcases made with ⟨fault | a, e⟩
  · cases h
  · exact ⟨a, e, rfl, h⟩

theorem addressTo_ok {exchange : KeyPair} {preamble : Bytes} {sender : KeyHash}
    {recipient : PublicKey} {e e' : Entropy} {made : Bytes × Addressed}
    (h : addressTo exchange preamble sender recipient e = (.ok made, e')) :
    made.2.recipient = recipient ∧ IsRecord exchange preamble sender made.2 made.1 := by
  rw [addressTo] at h
  cases hshared : exchange.agree? recipient with
  | none =>
    rw [hshared] at h
    cases h
  | some shared =>
    rw [hshared] at h
    have hmade : (sealFor (RecordKeys.derive shared.bytes preamble) preamble sender recipient e).1
        = made := Except.ok.inj (congrArg Prod.fst h)
    obtain ⟨secret, nonce, hnonce, hsealed⟩ :=
      sealFor_eq (RecordKeys.derive shared.bytes preamble) preamble sender recipient e
    obtain rfl := hsealed.symm.trans hmade
    exact ⟨rfl, shared, nonce, hshared, hnonce, rfl⟩

theorem addressAll_ok {exchange : KeyPair} {preamble : Bytes} {sender : KeyHash}
    {recipients : List PublicKey} {e : Entropy} {items : List (Bytes × Addressed)}
    (h : (addressAll exchange preamble sender recipients e).1 = .ok items) :
    items.map (fun i => i.2.recipient) = recipients ∧
      ∀ i ∈ items, IsRecord exchange preamble sender i.2 i.1 := by
  induction recipients generalizing e items with
  | nil =>
    obtain rfl : [] = items := Except.ok.inj h
    exact ⟨rfl, by simp⟩
  | cons recipient rest ih =>
    rw [addressAll] at h
    obtain ⟨first, e₁, hfirst, h⟩ := andThen_ok h
    obtain ⟨later, e₂, hlater, h⟩ := andThen_ok h
    obtain rfl : first :: later = items := Except.ok.inj h
    obtain ⟨hrecipient, hrecord⟩ := addressTo_ok hfirst
    obtain ⟨hrecipients, hrecords⟩ := ih (congrArg Prod.fst hlater)
    refine ⟨by rw [List.map_cons, hrecipient, hrecipients], ?_⟩
    intro i hi
    rcases List.mem_cons.mp hi with rfl | hi
    · exact hrecord
    · exact hrecords i hi

theorem generate_ok {recipients : List PublicKey} {sender : KeyPair} {ttl : Duration}
    {now : Instant} {e : Entropy} {set : BeaconSet}
    (h : (generate recipients sender ttl now e).1 = .ok set) :
    ∃ (items : List (Bytes × Addressed)) (records : List Bytes),
      items.map (fun i => i.2.recipient) = recipients ∧
      (∀ i ∈ items, IsRecord (KeyPair.generate e).1
        (preambleOf (KeyPair.generate e).1.publicKey set.expiresAt) sender.hash i.2 i.1) ∧
      records.Perm (items.map Prod.fst) ∧
      set.blob = preambleOf (KeyPair.generate e).1.publicKey set.expiresAt ++ records.flatten ∧
      set.secrets = items.map Prod.snd ∧ set.expiresAt = expiration ttl now := by
  unfold generate at h
  split at h
  · cases h
  · obtain ⟨items, e', hitems, h⟩ := andThen_ok h
    obtain rfl := Except.ok.inj h
    obtain ⟨hrecipients, hrecords⟩ := addressAll_ok (congrArg Prod.fst hitems)
    exact ⟨items, _, hrecipients, hrecords, Entropy.shuffle_perm _ _, rfl, rfl, rfl⟩

theorem map_recipient_secrets {recipients : List PublicKey} {sender : KeyPair} {ttl : Duration}
    {now : Instant} {e : Entropy} {set : BeaconSet}
    (hmade : (generate recipients sender ttl now e).1 = .ok set) :
    set.secrets.map Addressed.recipient = recipients := by
  obtain ⟨items, _, hrecipients, _, _, _, hsecrets, _⟩ := generate_ok hmade
  rw [hsecrets, List.map_map, ← hrecipients]
  rfl

theorem findRecord_of_find {keys : RecordKeys} {tag preamble record : Bytes}
    {records : List Bytes} (h : (records.find? fun r => r.take 16 = tag) = some record) :
    findRecord keys tag preamble records = (openRecord keys preamble record).map some := by
  induction records with
  | nil => cases h
  | cons first rest ih =>
    rw [findRecord]
    by_cases htag : first.take 16 = tag
    · rw [List.find?_cons_of_pos (by simpa using htag)] at h
      obtain rfl : first = record := Option.some.inj h
      rw [if_pos htag]
      cases openRecord keys preamble first <;> rfl
    · rw [List.find?_cons_of_neg (by simpa using htag)] at h
      rw [if_neg htag, ih h]

theorem ok_bind {ε α β : Type} (a : α) (f : α → Except ε β) :
    ((Except.ok a : Except ε α) >>= f) = f a := rfl

private theorem bind_pure_eq_map {ε α β : Type} (x : Except ε α) (f : α → β) :
    (x >>= fun a => pure (f a)) = x.map f := by
  cases x <;> rfl

/-- The bytes are a preamble and whole records. -/
def Whole (blob : Bytes) : Prop :=
  preambleLength ≤ blob.length ∧ (blob.length - preambleLength) % recordLength = 0

instance (blob : Bytes) : Decidable (Whole blob) := inferInstanceAs (Decidable (_ ∧ _))

def recordsIn (blob : Bytes) : List Bytes :=
  Bytes.pieces recordLength (blob.drop preambleLength)

section Joined

variable {preamble : Bytes} {records : List Bytes}

theorem take_joined (hpreamble : preamble.length = preambleLength) (records : List Bytes) :
    (preamble ++ records.flatten).take preambleLength = preamble :=
  List.take_left' hpreamble

theorem whole_joined (hpreamble : preamble.length = preambleLength)
    (hlength : ∀ r ∈ records, r.length = recordLength) : Whole (preamble ++ records.flatten) := by
  refine ⟨by simp [hpreamble], ?_⟩
  simp [hpreamble, Bytes.length_flatten_pieces records hlength]

theorem recordsIn_joined (hpreamble : preamble.length = preambleLength)
    (hlength : ∀ r ∈ records, r.length = recordLength) :
    recordsIn (preamble ++ records.flatten) = records := by
  rw [recordsIn, List.drop_left' hpreamble]
  exact Bytes.pieces_flatten (by decide) records hlength

end Joined

def expiryIn (preamble : Bytes) : UInt64 := UInt64.ofNat (Bytes.toNatBE (preamble.drop 32))

@[simp] theorem expiryIn_preambleOf (exchange : PublicKey) (expiresAt : UInt64) :
    expiryIn (preambleOf exchange expiresAt) = expiresAt := by
  rw [expiryIn, preambleOf, List.drop_left' exchange.length_bytes, Bytes.ofNat_toNatBE_ofNatBE]

/-- To read a blob is to look for a record under the keys that are agreed on. -/
theorem parse_of_whole {blob : Bytes} (h : Whole blob) (reader : KeyPair) (now : Instant) :
    parse blob reader now = (readExchange (blob.take 32)) >>= fun exchange =>
      (exchangeKeys (reader.agree? exchange) (blob.take preambleLength)) >>= fun keys =>
        (findRecord keys (keys.tagFor reader.publicKey) (blob.take preambleLength)
          (recordsIn blob)).map fun notice =>
            ⟨notice, decide (expiryIn (blob.take preambleLength) < now.unixMillis),
              expiryIn (blob.take preambleLength)⟩ := by
  have hlong : ¬ blob.length < preambleLength := Nat.not_lt.mpr h.1
  have hwhole : ¬ (blob.drop preambleLength).length % recordLength ≠ 0 := by
    rw [List.length_drop, h.2]
    exact fun hne => hne rfl
  have htake : (blob.take preambleLength).take 32 = blob.take 32 := by
    rw [List.take_take]
    rfl
  simp only [parse, if_neg hlong, if_neg hwhole, htake, bind_pure_eq_map, expiryIn]
  rfl

theorem parse_joined {exchange : PublicKey} {expiresAt : UInt64} {records : List Bytes}
    {reader : KeyPair} {shared : Block 32} (now : Instant)
    (hlength : ∀ r ∈ records, r.length = recordLength)
    (haccepted : PublicKey.ofBytes exchange.bytes = .ok exchange)
    (hshared : reader.agree? exchange = some shared) :
    parse (preambleOf exchange expiresAt ++ records.flatten) reader now =
      (findRecord (RecordKeys.derive shared.bytes (preambleOf exchange expiresAt))
        ((RecordKeys.derive shared.bytes (preambleOf exchange expiresAt)).tagFor reader.publicKey)
        (preambleOf exchange expiresAt) records).map
          fun notice => ⟨notice, decide (expiresAt < now.unixMillis), expiresAt⟩ := by
  have hpreamble := length_preambleOf exchange expiresAt
  have hexchange : readExchange exchange.bytes = .ok exchange := by
    rw [readExchange, haccepted]
    rfl
  have hkeys : exchangeKeys (reader.agree? exchange) (preambleOf exchange expiresAt)
      = .ok (RecordKeys.derive shared.bytes (preambleOf exchange expiresAt)) := by
    rw [hshared]
    rfl
  rw [parse_of_whole (whole_joined hpreamble hlength), take_joined hpreamble,
    take_preambleOf_append, hexchange, ok_bind, hkeys, ok_bind, expiryIn_preambleOf,
    recordsIn_joined hpreamble hlength]

end Beacon

end BeaconMesh
