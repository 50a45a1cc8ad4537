import BeaconMesh.Proofs.Beacon.RoundTrip
import Mathlib.Data.List.Range

/-!
What a device makes of any bytes at all: when these are no blob, and what it learns from them
otherwise. Only the preamble and the first record with the device's own tag have a part in it, so
that the records of others can come and go without notice.
-/

set_option autoImplicit false
set_option relaxedAutoImplicit false

namespace BeaconMesh

namespace Bytes

def pieceAt (size : Nat) (bs : Bytes) (i : Nat) : Bytes := (bs.drop (size * i)).take size

private theorem flatten_pieceAt (size count : Nat) (bs : Bytes) :
    ((List.range count).map (pieceAt size bs)).flatten = bs.take (size * count) := by
  induction count with
  | zero => simp
  | succ count ih =>
    rw [List.range_succ, List.map_append, List.flatten_append, ih, Nat.mul_succ, List.take_add]
    simp [pieceAt]

theorem pieces_eq_map_pieceAt {size : Nat} (hsize : 0 < size) {bs : Bytes}
    (hwhole : bs.length % size = 0) :
    pieces size bs = (List.range (bs.length / size)).map (pieceAt size bs) := by
  have hlength : size * (bs.length / size) = bs.length :=
    Nat.mul_div_cancel' (Nat.dvd_of_mod_eq_zero hwhole)
  have hjoined : ((List.range (bs.length / size)).map (pieceAt size bs)).flatten = bs := by
    rw [flatten_pieceAt, hlength, List.take_length]
  have hpieces : ∀ p ∈ (List.range (bs.length / size)).map (pieceAt size bs), p.length = size := by
    intro p hp
    obtain ⟨i, hi, rfl⟩ := List.mem_map.mp hp
    have hend : size * (i + 1) ≤ size * (bs.length / size) :=
      Nat.mul_le_mul_left size (List.mem_range.mp hi)
    rw [hlength, Nat.mul_succ] at hend
    rw [pieceAt, List.length_take, List.length_drop]
    omega
  calc
    pieces size bs
        = pieces size ((List.range (bs.length / size)).map (pieceAt size bs)).flatten := by
          rw [hjoined]
    _ = (List.range (bs.length / size)).map (pieceAt size bs) :=
          pieces_flatten hsize _ hpieces

end Bytes

namespace Crypto.Sealed

theorem length_of_reveal {key nonce associated bytes text : Bytes}
    (h : reveal key nonce associated bytes = some text) : text.length = bytes.length - 16 := by
  simp only [reveal] at h
  split at h
  · obtain rfl := Option.some.inj h
    simp
  · cases h

end Crypto.Sealed

namespace Beacon

def recordCount (blob : Bytes) : Nat := (blob.length - preambleLength) / recordLength

def recordAt (blob : Bytes) (i : Nat) : Bytes :=
  (blob.drop (preambleLength + recordLength * i)).take recordLength

/-- The record in this place of a blob is the first one with the tag. -/
def IsFirst (tag blob : Bytes) (i : Nat) : Prop :=
  i < recordCount blob ∧ (recordAt blob i).take 16 = tag ∧ ∀ j < i, (recordAt blob j).take 16 ≠ tag

/-- The keys that a reader shares with the maker of a blob. -/
def keysOfBlob (reader : KeyPair) (exchange : PublicKey) (blob : Bytes) : RecordKeys :=
  .derive (reader.agreement exchange).bytes (blob.take preambleLength)

/-- The tag of the records that are for a reader. -/
def ownTag (reader : KeyPair) (exchange : PublicKey) (blob : Bytes) : Bytes :=
  (keysOfBlob reader exchange blob).tagFor reader.publicKey

/-- The payload of a record, if it is authentic. -/
def payload? (keys : RecordKeys) (preamble record : Bytes) : Option Bytes :=
  Crypto.Sealed.reveal keys.payloadKey ((record.drop 16).take 12) preamble (record.drop 28)

/-- A blob begins with the key of an exchange, and the reader has agreed on keys with its maker. -/
structure Agrees (reader : KeyPair) (blob : Bytes) (exchange : PublicKey) : Prop where
  accepted : PublicKey.ofBytes (blob.take 32) = .ok exchange
  nonzero : reader.agreement exchange ≠ Block.zero 32

/-- A record is the first one in a blob that is for the reader. -/
def IsOwn (reader : KeyPair) (blob record : Bytes) : Prop :=
  ∃ exchange i, Agrees reader blob exchange ∧ IsFirst (ownTag reader exchange blob) blob i ∧
    recordAt blob i = record

/-- What is wrong with bytes that a reader takes for a blob: the first of these that applies. -/
inductive Spoilt (reader : KeyPair) (blob : Bytes) : Malformation → Prop
  | shortPreamble (hshort : blob.length < preambleLength) :
    Spoilt reader blob (.shortPreamble blob.length)
  | partialRecord (hlong : preambleLength ≤ blob.length)
    (hpartial : (blob.length - preambleLength) % recordLength ≠ 0) :
    Spoilt reader blob (.partialRecord (blob.length - preambleLength))
  | exchangeKey {fault : KeyFault} (hwhole : Whole blob)
    (hrefused : PublicKey.ofBytes (blob.take 32) = .error fault) :
    Spoilt reader blob (.exchangeKey fault)
  | degenerateExchange {exchange : PublicKey} (hwhole : Whole blob)
    (haccepted : PublicKey.ofBytes (blob.take 32) = .ok exchange)
    (hzero : reader.agreement exchange = Block.zero 32) :
    Spoilt reader blob .degenerateExchange
  | unauthentic {exchange : PublicKey} {i : Nat} (hwhole : Whole blob)
    (hagrees : Agrees reader blob exchange)
    (hfirst : IsFirst (ownTag reader exchange blob) blob i)
    (hforged : payload? (keysOfBlob reader exchange blob) (blob.take preambleLength)
      (recordAt blob i) = none) : Spoilt reader blob .unauthentic

/-- What the records of a blob say to a reader who can read them. -/
inductive Tells (reader : KeyPair) (exchange : PublicKey) (blob : Bytes) : Option Notice → Prop
  | nothing
    (hnone : ∀ i < recordCount blob, (recordAt blob i).take 16 ≠ ownTag reader exchange blob) :
    Tells reader exchange blob none
  | notice {i : Nat} {notice : Notice} (hfirst : IsFirst (ownTag reader exchange blob) blob i)
    (hpayload : payload? (keysOfBlob reader exchange blob) (blob.take preambleLength)
      (recordAt blob i) = some (notice.sender.bytes ++ notice.secret.bytes)) :
    Tells reader exchange blob (some notice)

variable {blob other : Bytes} {reader : KeyPair} {exchange : PublicKey} {now : Instant}

theorem Agrees.unique {exchange' : PublicKey} (h : Agrees reader blob exchange)
    (h' : PublicKey.ofBytes (blob.take 32) = .ok exchange') : exchange' = exchange :=
  Except.ok.inj (h'.symm.trans h.accepted)

theorem IsFirst.unique {tag : Bytes} {i j : Nat} (hi : IsFirst tag blob i)
    (hj : IsFirst tag blob j) : i = j := by
  rcases Nat.lt_trichotomy i j with hlt | heq | hgt
  · exact absurd hi.2.1 (hj.2.2 i hlt)
  · exact heq
  · exact absurd hj.2.1 (hi.2.2 j hgt)

theorem recordsIn_eq (h : Whole blob) :
    recordsIn blob = (List.range (recordCount blob)).map (recordAt blob) := by
  have hwhole : (blob.drop preambleLength).length % recordLength = 0 := by
    rw [List.length_drop]
    exact h.2
  rw [recordsIn, Bytes.pieces_eq_map_pieceAt (by decide) hwhole, List.length_drop]
  refine List.map_congr_left fun i _ => ?_
  rw [Bytes.pieceAt, List.drop_drop, recordAt]

theorem length_recordAt (h : Whole blob) {i : Nat} (hi : i < recordCount blob) :
    (recordAt blob i).length = recordLength := by
  have hcount : recordLength * recordCount blob = blob.length - preambleLength :=
    Nat.mul_div_cancel' (Nat.dvd_of_mod_eq_zero h.2)
  have hend : recordLength * (i + 1) ≤ recordLength * recordCount blob :=
    Nat.mul_le_mul_left recordLength hi
  rw [hcount, Nat.mul_succ] at hend
  rw [recordAt, List.length_take, List.length_drop]
  omega

theorem find?_recordsIn_eq_some_iff (h : Whole blob) {tag record : Bytes} :
    ((recordsIn blob).find? fun r => r.take 16 = tag) = some record ↔
      ∃ i, IsFirst tag blob i ∧ recordAt blob i = record := by
  rw [recordsIn_eq h, List.find?_map, Option.map_eq_some_iff]
  refine exists_congr fun i => and_congr_left fun _ => ?_
  simp only [List.find?_range_eq_some, IsFirst, Function.comp_apply, decide_eq_true_eq,
    List.mem_range, Bool.not_eq_true', decide_eq_false_iff_not]
  tauto

theorem find?_recordsIn_eq_none_iff (h : Whole blob) {tag : Bytes} :
    ((recordsIn blob).find? fun r => r.take 16 = tag) = none ↔
      ∀ i < recordCount blob, (recordAt blob i).take 16 ≠ tag := by
  simp [recordsIn_eq h]

theorem exists_notice {keys : RecordKeys} {preamble record payload : Bytes}
    (hlength : record.length = recordLength) (h : payload? keys preamble record = some payload) :
    ∃ notice : Notice, payload = notice.sender.bytes ++ notice.secret.bytes := by
  have hpayload : payload.length = 48 := by
    rw [Crypto.Sealed.length_of_reveal h, List.length_drop, hlength]
    rfl
  refine ⟨⟨⟨⟨payload.take 16, ?_⟩⟩, ⟨⟨payload.drop 16, ?_⟩⟩⟩, (List.take_append_drop 16 _).symm⟩
  · rw [List.length_take, hpayload]
    rfl
  · rw [List.length_drop, hpayload]

theorem openRecord_of_payload? {keys : RecordKeys} {preamble record : Bytes} {notice : Notice}
    (h : payload? keys preamble record = some (notice.sender.bytes ++ notice.secret.bytes)) :
    openRecord keys preamble record = .ok notice := by
  have hsender : Block.leading 16 (notice.sender.bytes ++ notice.secret.bytes)
      = notice.sender.digest := Block.leading_append notice.sender.digest _
  have hsecret : (notice.sender.bytes ++ notice.secret.bytes).drop 16 = notice.secret.block.bytes :=
    List.drop_left' notice.sender.digest.length_bytes
  rw [payload?] at h
  simp only [openRecord, h, hsender, hsecret, Block.leading_bytes]

theorem openRecord_of_payload?_eq_none {keys : RecordKeys} {preamble record : Bytes}
    (h : payload? keys preamble record = none) :
    openRecord keys preamble record = .error (.malformed .unauthentic) := by
  rw [payload?] at h
  simp only [openRecord, h]

theorem findRecord_of_find?_eq_none {keys : RecordKeys} {tag preamble : Bytes}
    {records : List Bytes} (h : (records.find? fun r => r.take 16 = tag) = none) :
    findRecord keys tag preamble records = .ok none := by
  induction records with
  | nil => rfl
  | cons first rest ih =>
    have hfirst : first.take 16 ≠ tag := by
      simpa using List.find?_eq_none.mp h first List.mem_cons_self
    rw [List.find?_cons_of_neg (by simpa using hfirst)] at h
    rw [findRecord, if_neg hfirst, ih h]

private theorem readExchange_eq {bytes : Bytes} (h : PublicKey.ofBytes bytes = .ok exchange) :
    readExchange bytes = .ok exchange := by
  rw [readExchange, h]
  rfl

/-- What a reader learns who has agreed on keys with the maker of a blob. -/
theorem parse_of_agrees (hwhole : Whole blob) (hagrees : Agrees reader blob exchange)
    (now : Instant) :
    parse blob reader now =
      (findRecord (keysOfBlob reader exchange blob) (ownTag reader exchange blob)
        (blob.take preambleLength) (recordsIn blob)).map fun notice =>
          ⟨notice, decide (expiryIn (blob.take preambleLength) < now.unixMillis),
            expiryIn (blob.take preambleLength)⟩ := by
  have hkeys : exchangeKeys (reader.agree? exchange) (blob.take preambleLength)
      = .ok (keysOfBlob reader exchange blob) := by
    rw [KeyPair.agree?_of_ne hagrees.nonzero]
    rfl
  rw [parse_of_whole hwhole, readExchange_eq hagrees.accepted, ok_bind, hkeys, ok_bind]
  rfl

theorem parse_of_spoilt {cause : Malformation} (h : Spoilt reader blob cause) (now : Instant) :
    parse blob reader now = .error (.malformed cause) := by
  cases h with
  | shortPreamble hshort => rw [parse, if_pos hshort]
  | partialRecord hlong hpartial =>
    rw [parse, if_neg (Nat.not_lt.mpr hlong)]
    simp only [List.length_drop]
    exact if_pos hpartial
  | exchangeKey hwhole hrefused =>
    rw [parse_of_whole hwhole, readExchange, hrefused]
    rfl
  | degenerateExchange hwhole haccepted hzero =>
    rw [parse_of_whole hwhole, readExchange_eq haccepted, ok_bind,
      KeyPair.agree?_eq_none_iff.mpr hzero]
    rfl
  | unauthentic hwhole hagrees hfirst hforged =>
    have hfind := (find?_recordsIn_eq_some_iff hwhole).mpr ⟨_, hfirst, rfl⟩
    rw [parse_of_agrees hwhole hagrees, findRecord_of_find hfind,
      openRecord_of_payload?_eq_none hforged]
    rfl

theorem parse_of_tells {notice : Option Notice} (hwhole : Whole blob)
    (hagrees : Agrees reader blob exchange) (h : Tells reader exchange blob notice)
    (now : Instant) :
    parse blob reader now = .ok ⟨notice,
      decide (expiryIn (blob.take preambleLength) < now.unixMillis),
      expiryIn (blob.take preambleLength)⟩ := by
  cases h with
  | nothing hnone =>
    rw [parse_of_agrees hwhole hagrees,
      findRecord_of_find?_eq_none ((find?_recordsIn_eq_none_iff hwhole).mpr hnone)]
    rfl
  | notice hfirst hpayload =>
    have hfind := (find?_recordsIn_eq_some_iff hwhole).mpr ⟨_, hfirst, rfl⟩
    rw [parse_of_agrees hwhole hagrees, findRecord_of_find hfind, openRecord_of_payload? hpayload]
    rfl

theorem spoilt_or_tells (reader : KeyPair) (blob : Bytes) :
    (∃ cause, Spoilt reader blob cause) ∨
    Whole blob ∧ ∃ exchange notice, Agrees reader blob exchange ∧
      Tells reader exchange blob notice := by
  by_cases hlong : preambleLength ≤ blob.length
  swap
  · exact .inl ⟨_, .shortPreamble (Nat.lt_of_not_le hlong)⟩
  by_cases hpartial : (blob.length - preambleLength) % recordLength = 0
  swap
  · exact .inl ⟨_, .partialRecord hlong hpartial⟩
  have hwhole : Whole blob := ⟨hlong, hpartial⟩
  cases haccepted : PublicKey.ofBytes (blob.take 32) with
  | error fault => exact .inl ⟨_, .exchangeKey hwhole haccepted⟩
  | ok exchange =>
    by_cases hzero : reader.agreement exchange = Block.zero 32
    · exact .inl ⟨_, .degenerateExchange hwhole haccepted hzero⟩
    have hagrees : Agrees reader blob exchange := ⟨haccepted, hzero⟩
    cases hfind : (recordsIn blob).find? fun r => r.take 16 = ownTag reader exchange blob with
    | none =>
      have hnone := (find?_recordsIn_eq_none_iff hwhole).mp hfind
      exact .inr ⟨hwhole, exchange, none, hagrees, .nothing hnone⟩
    | some record =>
      obtain ⟨i, hfirst, rfl⟩ := (find?_recordsIn_eq_some_iff hwhole).mp hfind
      cases hpayload : payload? (keysOfBlob reader exchange blob) (blob.take preambleLength)
          (recordAt blob i) with
      | none => exact .inl ⟨_, .unauthentic hwhole hagrees hfirst hpayload⟩
      | some payload =>
        obtain ⟨notice, rfl⟩ := exists_notice (length_recordAt hwhole hfirst.1) hpayload
        exact .inr ⟨hwhole, exchange, some notice, hagrees, .notice hfirst hpayload⟩

/-- Which of the faults it is that a reader finds. -/
theorem parse_eq_error_iff {fault : Fault} :
    parse blob reader now = .error fault ↔
      ∃ cause, fault = .malformed cause ∧ Spoilt reader blob cause := by
  constructor
  · intro herror
    rcases spoilt_or_tells reader blob with ⟨cause, hspoilt⟩ | ⟨hwhole, _, _, hagrees, htells⟩
    · rw [parse_of_spoilt hspoilt] at herror
      exact ⟨cause, (Except.error.inj herror).symm, hspoilt⟩
    · rw [parse_of_tells hwhole hagrees htells] at herror
      cases herror
  · rintro ⟨cause, rfl, hspoilt⟩
    exact parse_of_spoilt hspoilt now

theorem parse_eq_ok_iff {parsed : Parsed} :
    parse blob reader now = .ok parsed ↔
      Whole blob ∧ ∃ exchange, Agrees reader blob exchange ∧
        Tells reader exchange blob parsed.notice ∧
        parsed.expired = decide (expiryIn (blob.take preambleLength) < now.unixMillis) ∧
        parsed.expiresAt = expiryIn (blob.take preambleLength) := by
  constructor
  · intro hok
    rcases spoilt_or_tells reader blob with ⟨cause, hspoilt⟩ | ⟨hwhole, _, _, hagrees, htells⟩
    · rw [parse_of_spoilt hspoilt] at hok
      cases hok
    · rw [parse_of_tells hwhole hagrees htells] at hok
      cases hok
      exact ⟨hwhole, _, hagrees, htells, rfl, rfl⟩
  · rintro ⟨hwhole, exchange, hagrees, htells, hexpired, hexpiresAt⟩
    rw [parse_of_tells hwhole hagrees htells, ← hexpired, ← hexpiresAt]

theorem Tells.isSome_iff {notice : Option Notice} (h : Tells reader exchange blob notice) :
    notice.isSome = true ↔
      ∃ i < recordCount blob, (recordAt blob i).take 16 = ownTag reader exchange blob := by
  cases h with
  | nothing hnone => simpa using hnone
  | notice hfirst => exact ⟨fun _ => ⟨_, hfirst.1, hfirst.2.1⟩, fun _ => rfl⟩

theorem Tells.payload {told : Option Notice} (h : Tells reader exchange blob told) {i : Nat}
    (hfirst : IsFirst (ownTag reader exchange blob) blob i) :
    ∃ notice, told = some notice ∧
      payload? (keysOfBlob reader exchange blob) (blob.take preambleLength) (recordAt blob i)
        = some (notice.sender.bytes ++ notice.secret.bytes) := by
  cases h with
  | nothing hnone => exact absurd hfirst.2.1 (hnone i hfirst.1)
  | notice hfirst' hpayload =>
    obtain rfl := hfirst.unique hfirst'
    exact ⟨_, rfl, hpayload⟩

theorem isOwn_iff (hwhole : Whole blob) (hagrees : Agrees reader blob exchange) {record : Bytes} :
    IsOwn reader blob record ↔
      ((recordsIn blob).find? fun r => r.take 16 = ownTag reader exchange blob) = some record := by
  rw [find?_recordsIn_eq_some_iff hwhole]
  constructor
  · rintro ⟨exchange', i, hagrees', hfirst, hrecord⟩
    obtain rfl := hagrees.unique hagrees'.accepted
    exact ⟨i, hfirst, hrecord⟩
  · rintro ⟨i, hfirst, hrecord⟩
    exact ⟨exchange, i, hagrees, hfirst, hrecord⟩

theorem findRecord_congr {keys : RecordKeys} {tag preamble : Bytes} {records records' : List Bytes}
    (h : (records.find? fun r => r.take 16 = tag) = records'.find? fun r => r.take 16 = tag) :
    findRecord keys tag preamble records = findRecord keys tag preamble records' := by
  cases hfind : records'.find? fun r => r.take 16 = tag with
  | none => rw [findRecord_of_find?_eq_none (h.trans hfind), findRecord_of_find?_eq_none hfind]
  | some record => rw [findRecord_of_find (h.trans hfind), findRecord_of_find hfind]

theorem parse_congr (hwhole : Whole blob) (hother : Whole other)
    (hpreamble : other.take preambleLength = blob.take preambleLength)
    (hown : ∀ record, IsOwn reader other record ↔ IsOwn reader blob record) (now : Instant) :
    parse other reader now = parse blob reader now := by
  have hkey : other.take 32 = blob.take 32 := by
    have h := congrArg (List.take 32) hpreamble
    rwa [List.take_take, List.take_take] at h
  cases haccepted : PublicKey.ofBytes (blob.take 32) with
  | error fault =>
    rw [parse_of_spoilt (.exchangeKey hwhole haccepted),
      parse_of_spoilt (.exchangeKey hother (hkey ▸ haccepted))]
  | ok exchange =>
    by_cases hzero : reader.agreement exchange = Block.zero 32
    · rw [parse_of_spoilt (.degenerateExchange hwhole haccepted hzero),
        parse_of_spoilt (.degenerateExchange hother (hkey ▸ haccepted) hzero)]
    have hagrees : Agrees reader blob exchange := ⟨haccepted, hzero⟩
    have hagreesOther : Agrees reader other exchange := ⟨hkey ▸ haccepted, hzero⟩
    have hkeys : keysOfBlob reader exchange other = keysOfBlob reader exchange blob := by
      rw [keysOfBlob, hpreamble, keysOfBlob]
    have htag : ownTag reader exchange other = ownTag reader exchange blob := by
      rw [ownTag, hkeys, ownTag]
    have hfind : ((recordsIn other).find? fun r => r.take 16 = ownTag reader exchange blob)
        = (recordsIn blob).find? fun r => r.take 16 = ownTag reader exchange blob := by
      apply Option.ext
      intro record
      rw [← isOwn_iff hwhole hagrees, ← hown, isOwn_iff hother hagreesOther, htag]
    rw [parse_of_agrees hwhole hagrees, parse_of_agrees hother hagreesOther, hkeys, htag, hpreamble,
      findRecord_congr hfind]

/-- Any bytes at all are taken for a malformed blob in these cases and no others: they are too
short, they end within a record, they do not begin with a key, the agreement with this key is
nothing but zeros, or the first record with the reader's tag is not authentic. Otherwise the reader
learns what the first record with its tag says, if there is one, and when the blob expires. Two
blobs with the same preamble and the same first record of the reader's, or none in both, are read
alike. -/
theorem parse_decided (blob : Bytes) (reader : KeyPair) (now : Instant) :
    (∀ fault, parse blob reader now = .error fault → ∃ cause, fault = .malformed cause) ∧
    ((∃ cause, parse blob reader now = .error (.malformed cause)) ↔
      blob.length < 40 ∨ (blob.length - 40) % 92 ≠ 0 ∨
      (∀ exchange, PublicKey.ofBytes (blob.take 32) ≠ .ok exchange) ∨
      (∃ exchange, PublicKey.ofBytes (blob.take 32) = .ok exchange ∧
        reader.agreement exchange = Block.zero 32) ∨
      ∃ exchange i, PublicKey.ofBytes (blob.take 32) = .ok exchange ∧
        IsFirst (ownTag reader exchange blob) blob i ∧
        payload? (keysOfBlob reader exchange blob) (blob.take 40) (recordAt blob i) = none) ∧
    (∀ parsed, parse blob reader now = .ok parsed →
      ∃ exchange, PublicKey.ofBytes (blob.take 32) = .ok exchange ∧
        (parsed.matched = true ↔
          ∃ i < recordCount blob, (recordAt blob i).take 16 = ownTag reader exchange blob) ∧
        (∀ i, IsFirst (ownTag reader exchange blob) blob i → ∃ notice,
          parsed.notice = some notice ∧
          payload? (keysOfBlob reader exchange blob) (blob.take 40) (recordAt blob i)
            = some (notice.sender.bytes ++ notice.secret.bytes)) ∧
        parsed.expired = decide (expiryIn (blob.take 40) < now.unixMillis) ∧
        parsed.expiresAt = expiryIn (blob.take 40)) ∧
    ∀ other, Whole blob → Whole other → other.take 40 = blob.take 40 →
      (∀ record, IsOwn reader other record ↔ IsOwn reader blob record) →
      parse other reader now = parse blob reader now := by
  refine ⟨?_, ?_, ?_, ?_⟩
  · intro fault herror
    obtain ⟨cause, rfl, -⟩ := parse_eq_error_iff.mp herror
    exact ⟨cause, rfl⟩
  · constructor
    · rintro ⟨_, herror⟩
      obtain ⟨cause, -, hspoilt⟩ := parse_eq_error_iff.mp herror
      cases hspoilt with
      | shortPreamble hshort => exact .inl hshort
      | partialRecord _ hpartial => exact .inr (.inl hpartial)
      | exchangeKey _ hrefused =>
        refine .inr (.inr (.inl fun exchange haccepted => ?_))
        exact nomatch hrefused.symm.trans haccepted
      | degenerateExchange _ haccepted hzero =>
        exact .inr (.inr (.inr (.inl ⟨_, haccepted, hzero⟩)))
      | unauthentic _ hagrees hfirst hforged =>
        exact .inr (.inr (.inr (.inr ⟨_, _, hagrees.accepted, hfirst, hforged⟩)))
    · intro hcases
      rcases spoilt_or_tells reader blob with
        ⟨cause, hspoilt⟩ | ⟨hwhole, exchange, _, hagrees, htells⟩
      · exact ⟨cause, parse_of_spoilt hspoilt now⟩
      exfalso
      rcases hcases with hshort | hpartial | hrefused | ⟨_, haccepted, hzero⟩ |
        ⟨_, i, haccepted, hfirst, hforged⟩
      · exact Nat.not_lt.mpr hwhole.1 hshort
      · exact hpartial hwhole.2
      · exact hrefused exchange hagrees.accepted
      · obtain rfl := hagrees.unique haccepted
        exact hagrees.nonzero hzero
      · obtain rfl := hagrees.unique haccepted
        obtain ⟨_, -, hpayload⟩ := htells.payload hfirst
        exact nomatch hforged.symm.trans hpayload
  · intro parsed hok
    obtain ⟨-, exchange, hagrees, htells, hexpired, hexpiresAt⟩ := parse_eq_ok_iff.mp hok
    exact ⟨exchange, hagrees.accepted, htells.isSome_iff, fun _ hfirst => htells.payload hfirst,
      hexpired, hexpiresAt⟩
  · intro other hwhole hother hpreamble hown
    exact parse_congr hwhole hother hpreamble hown now

private theorem nonzero_askedTwice :
    (repeating 2).agreement (exchangeOf counting).publicKey ≠ Block.zero 32 := by
  decide +kernel

private theorem isOwn_askedTwice {records : List Bytes}
    (hlength : ∀ r ∈ records, r.length = recordLength) {record : Bytes} :
    IsOwn (repeating 2) (preambleFor (.ofSecs 60) ⟨0⟩ counting ++ records.flatten) record ↔
      (records.find? fun r => r.take 16 = (RecordKeys.derive
        ((repeating 2).agreement (exchangeOf counting).publicKey).bytes
        (preambleFor (.ofSecs 60) ⟨0⟩ counting)).tagFor (repeating 2).publicKey) = some record := by
  have hpreamble : (preambleFor (.ofSecs 60) ⟨0⟩ counting).length = preambleLength :=
    length_preambleOf _ _
  have haccepted : Agrees (repeating 2)
      (preambleFor (.ofSecs 60) ⟨0⟩ counting ++ records.flatten)
      (exchangeOf counting).publicKey := by
    refine ⟨?_, nonzero_askedTwice⟩
    rw [preambleFor, take_preambleOf_append]
    exact legible_askedTwice.accepted
  rw [isOwn_iff (whole_joined hpreamble hlength) haccepted, recordsIn_joined hpreamble hlength,
    ownTag, keysOfBlob, take_joined hpreamble]

/-- What the reader learns is the same after a record of somebody else was added. -/
theorem parse_decided_strangerAdded : ∃ blob other,
    Whole blob ∧ Whole other ∧ other.length = blob.length + 92 ∧ other.take 40 = blob.take 40 ∧
    (∃ record, IsOwn (repeating 2) blob record) ∧
    (∀ record, IsOwn (repeating 2) other record ↔ IsOwn (repeating 2) blob record) ∧
    parse other (repeating 2) ⟨0⟩ = parse blob (repeating 2) ⟨0⟩ := by
  obtain ⟨set, hmade⟩ := generate_askedTwice
  obtain ⟨items, records, hrecipients, hitems, hperm, -, -, hexpires⟩ := generate_ok hmade
  rw [hexpires] at hitems
  change ∀ i ∈ items, IsRecord (exchangeOf counting) (preambleFor (.ofSecs 60) ⟨0⟩ counting) _ _ _
    at hitems
  have hlength : ∀ r ∈ records, r.length = recordLength := by
    intro r hr
    obtain ⟨i, hi, rfl⟩ := List.mem_map.mp (hperm.mem_iff.mp hr)
    exact (hitems i hi).length
  have hlonger : ∀ r ∈ records ++ [List.replicate recordLength 0], r.length = recordLength := by
    intro r hr
    rcases List.mem_append.mp hr with hr | hr
    · exact hlength r hr
    · rw [List.mem_singleton.mp hr, List.length_replicate]
  have hshared : (exchangeOf counting).agree? (repeating 2).publicKey
      = some ((repeating 2).agreement (exchangeOf counting).publicKey) := by
    rw [legible_askedTwice.symmetric, KeyPair.agree?_of_ne nonzero_askedTwice]
  obtain ⟨own, -, -, hfind⟩ := find_own_record hrecipients hitems hperm List.mem_cons_self
    legible_askedTwice hshared
  have hpreamble : (preambleFor (.ofSecs 60) ⟨0⟩ counting).length = preambleLength :=
    length_preambleOf _ _
  have hown : ∀ record, IsOwn (repeating 2) (preambleFor (.ofSecs 60) ⟨0⟩ counting
        ++ (records ++ [List.replicate recordLength 0]).flatten) record ↔
      IsOwn (repeating 2) (preambleFor (.ofSecs 60) ⟨0⟩ counting ++ records.flatten) record := by
    intro record
    rw [isOwn_askedTwice hlonger, isOwn_askedTwice hlength, List.find?_append, hfind,
      Option.some_or]
  have htake := (take_joined hpreamble (records ++ [List.replicate recordLength 0])).trans
    (take_joined hpreamble records).symm
  obtain ⟨-, -, -, hsame⟩ :=
    parse_decided (preambleFor (.ofSecs 60) ⟨0⟩ counting ++ records.flatten) (repeating 2) ⟨0⟩
  refine ⟨_, _, whole_joined hpreamble hlength, whole_joined hpreamble hlonger, ?_, htake,
    ⟨own.1, (isOwn_askedTwice hlength).mpr hfind⟩, hown,
    hsame _ (whole_joined hpreamble hlength) (whole_joined hpreamble hlonger) htake hown⟩
  simp [recordLength, Nat.add_assoc]

end Beacon

end BeaconMesh
