import BeaconMesh.Proofs.Beacon.Making
import BeaconMesh.Proofs.Beacon.Reading

/-!
When a beacon set expires: whole milliseconds of the time at which it was made and of its lifetime,
added up without loss, which every reader finds in the blob and compares with its own clock.
-/

set_option autoImplicit false
set_option relaxedAutoImplicit false

namespace BeaconMesh

/-- A time is far enough from the end of the clock that a day more can be counted. -/
def Instant.Countable (t : Instant) : Prop := t.nanos.toNat / 1000000 < 2 ^ 64 - 86400000

instance (t : Instant) : Decidable t.Countable := inferInstanceAs (Decidable (_ < _))

theorem Instant.Countable.toNat_unixMillis {t : Instant} (h : t.Countable) :
    t.unixMillis.toNat = t.nanos.toNat / 1000000 := by
  unfold Countable at h
  rw [unixMillis, UInt64.toNat_ofNat']
  exact Nat.mod_eq_of_lt (by omega)

namespace Beacon

variable {recipients : List PublicKey} {sender reader : KeyPair} {ttl : Duration} {now : Instant}
  {e : Entropy} {set : BeaconSet}

theorem toMillis_le_of_not_refusesTtl (h : ¬ RefusesTtl ttl) : ttl.toMillis ≤ 86400000 := by
  have hday : ttl.nanos ≤ 86400 * 1000000000 := Nat.le_of_not_lt fun hlong => h (.inr hlong)
  rw [Duration.toMillis]
  omega

theorem toNat_expiration (httl : ¬ RefusesTtl ttl) (hnow : now.Countable) :
    (expiration ttl now).toNat = now.nanos.toNat / 1000000 + ttl.nanos / 1000000 := by
  have hmillis := toMillis_le_of_not_refusesTtl httl
  have hcount := hnow.toNat_unixMillis
  unfold Instant.Countable at hnow
  have hsum : now.unixMillis.toNat + ttl.toMillis < UInt64.size := by
    rw [hcount, UInt64.size]
    omega
  rw [expiration, Nat.min_eq_left (by omega), UInt64.toNat_ofNat', Nat.mod_eq_of_lt hsum, hcount,
    Duration.toMillis]

theorem expiryIn_blob (hmade : (generate recipients sender ttl now e).1 = .ok set) :
    expiryIn (set.blob.take preambleLength) = set.expiresAt := by
  obtain ⟨_, records, _, _, _, hblob, _, _⟩ := generate_ok hmade
  rw [hblob, take_joined (length_preambleOf _ _), expiryIn_preambleOf]

/-- Whoever can read a set at one time can read it at any other, and learns the same from it but
for whether it has expired. -/
theorem parse_at_any_time (hmade : (generate recipients sender ttl now e).1 = .ok set)
    {t : Instant} {parsed : Parsed} (hparse : parse set.blob reader t = .ok parsed) (t' : Instant) :
    parse set.blob reader t'
      = .ok ⟨parsed.notice, decide (set.expiresAt < t'.unixMillis), set.expiresAt⟩ := by
  obtain ⟨hwhole, exchange, hagrees, htells, _, _⟩ := parse_eq_ok_iff.mp hparse
  have hexpiry := expiryIn_blob hmade
  exact parse_eq_ok_iff.mpr ⟨hwhole, exchange, hagrees, htells, by rw [hexpiry], hexpiry.symm⟩

theorem parsed_times (hmade : (generate recipients sender ttl now e).1 = .ok set) {t : Instant}
    {parsed : Parsed} (hparse : parse set.blob reader t = .ok parsed) :
    parsed.expired = decide (set.expiresAt < t.unixMillis) ∧ parsed.expiresAt = set.expiresAt := by
  have hsame := Except.ok.inj (hparse.symm.trans (parse_at_any_time hmade hparse t))
  exact ⟨congrArg Parsed.expired hsame, congrArg Parsed.expiresAt hsame⟩

/-- Every reader of a set finds in it the time of expiry that its maker gave it, the time at which
it was made and its lifetime, each in whole milliseconds. To the reader it has expired just if
the milliseconds of the reader's clock are more, and once it has it stays so. A set made after the
epoch for a whole number of milliseconds lives on until the very end of its lifetime, and is over a
millisecond later. -/
theorem expired_iff_outlived (hmade : (generate recipients sender ttl now e).1 = .ok set)
    (hnow : now.Countable) {t : Instant} (ht : t.Countable) {parsed : Parsed}
    (hparse : parse set.blob reader t = .ok parsed) :
    parsed.expiresAt = set.expiresAt ∧
    set.expiresAt.toNat = now.nanos.toNat / 1000000 + ttl.nanos / 1000000 ∧
    (parsed.expired = true ↔
      now.nanos.toNat / 1000000 + ttl.nanos / 1000000 < t.nanos.toNat / 1000000) ∧
    (∀ later : Instant, later.Countable → t.nanos ≤ later.nanos → ∃ parsed',
      parse set.blob reader later = .ok parsed' ∧
      (parsed.expired = true → parsed'.expired = true)) ∧
    (0 ≤ now.nanos → ttl.nanos % 1000000 = 0 →
      (t.nanos ≤ now.nanos + ttl.nanos → parsed.expired = false) ∧
      (now.nanos + ttl.nanos + 1000000 ≤ t.nanos → parsed.expired = true)) := by
  obtain ⟨hexpired, hexpiresAt⟩ := parsed_times hmade hparse
  have httl : ¬ RefusesTtl ttl := ((generate_ok_iff recipients sender ttl now e).mp ⟨set, hmade⟩).1
  have hset : set.expiresAt.toNat = now.nanos.toNat / 1000000 + ttl.nanos / 1000000 := by
    obtain ⟨_, _, _, _, _, _, _, hexpires⟩ := generate_ok hmade
    rw [hexpires, toNat_expiration httl hnow]
  have hlate : ∀ t' : Instant, t'.Countable → (set.expiresAt < t'.unixMillis ↔
      now.nanos.toNat / 1000000 + ttl.nanos / 1000000 < t'.nanos.toNat / 1000000) := by
    intro t' ht'
    rw [UInt64.lt_iff_toNat_lt, hset, ht'.toNat_unixMillis]
  have hiff : parsed.expired = true ↔
      now.nanos.toNat / 1000000 + ttl.nanos / 1000000 < t.nanos.toNat / 1000000 := by
    rw [hexpired, decide_eq_true_iff, hlate t ht]
  refine ⟨hexpiresAt, hset, hiff, ?_, ?_⟩
  · intro later hlater hle
    refine ⟨_, parse_at_any_time hmade hparse later, fun h => ?_⟩
    have hover := hiff.mp h
    rw [decide_eq_true_iff, hlate later hlater]
    omega
  · intro hepoch hwhole
    constructor
    · intro hle
      rw [← Bool.not_eq_true, hiff]
      omega
    · intro hge
      rw [hiff]
      omega

/-- A set made for a minute, read as the minute ends and a millisecond later. -/
theorem expired_iff_outlived_askedTwice : ∃ set atEnd after,
    (generate askedTwice (repeating 1) (.ofSecs 60) ⟨0⟩ counting).1 = .ok set ∧
    set.expiresAt.toNat = 60000 ∧
    parse set.blob (repeating 2) ⟨60000000000⟩ = .ok atEnd ∧
    parse set.blob (repeating 2) ⟨60001000000⟩ = .ok after ∧
    atEnd.expiresAt = set.expiresAt ∧ atEnd.expired = false ∧ after.expired = true := by
  obtain ⟨set, hset⟩ := generate_askedTwice
  obtain ⟨_, _, _, _, _, _, hatEnd⟩ :=
    parse_made hset List.mem_cons_self legible_askedTwice ⟨60000000000⟩
  obtain ⟨_, _, _, _, _, _, hafter⟩ :=
    parse_made hset List.mem_cons_self legible_askedTwice ⟨60001000000⟩
  have hnow : Instant.Countable ⟨0⟩ := by decide
  obtain ⟨hexpiresAt, hcount, _, _, halive⟩ := expired_iff_outlived hset hnow (by decide) hatEnd
  obtain ⟨_, _, _, _, hover⟩ := expired_iff_outlived hset hnow (by decide) hafter
  exact ⟨set, _, _, hset, hcount, hatEnd, hafter, hexpiresAt,
    (halive (by decide) (by decide)).1 (by decide), (hover (by decide) (by decide)).2 (by decide)⟩

end Beacon

end BeaconMesh
