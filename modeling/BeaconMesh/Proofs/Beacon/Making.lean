import BeaconMesh.Proofs.Beacon.RoundTrip

/-!
What becomes of a list of recipients: in which cases no set is made for them, and that otherwise
each gets one record, made with random bytes that serve for nothing else, and that none gets lost
when the records are put in random order.
-/

set_option autoImplicit false
set_option relaxedAutoImplicit false

namespace BeaconMesh

def Entropy.skip (e : Entropy) (count : Nat) : Entropy := { e with position := e.position + count }

@[simp] theorem Entropy.skip_skip (e : Entropy) (m n : Nat) :
    (e.skip m).skip n = e.skip (m + n) := by
  simp [skip, Nat.add_assoc]

namespace Beacon

/-- The lifetime is not one that a set can have. -/
def RefusesTtl (ttl : Duration) : Prop := ttl.nanos = 0 ∨ longestTtl.nanos < ttl.nanos

/-- The secret for the recipient in a place: 32 bytes of the 44 that are read for each. -/
def secretAt (e : Entropy) (i : Nat) : BeaconSecret := (BeaconSecret.random (e.skip (44 * i))).1

def nonceAt (e : Entropy) (i : Nat) : Bytes := ((e.skip (44 * i + 32)).take 12).1

/-- The record for the recipient in a place, and what it is made with. -/
def entryAt (exchange : KeyPair) (preamble : Bytes) (sender : KeyHash) (e : Entropy) (i : Nat)
    (recipient : PublicKey) : Bytes × Addressed :=
  (recordOf (.derive (exchange.agreement recipient).bytes preamble) preamble (nonceAt e i) sender
    ⟨recipient, secretAt e i⟩, ⟨recipient, secretAt e i⟩)

variable {exchange : KeyPair} {preamble : Bytes} {sender : KeyHash} {recipient : PublicKey}
  {recipients : List PublicKey} {e : Entropy}

theorem entryAt_skip (exchange : KeyPair) (preamble : Bytes) (sender : KeyHash) (e : Entropy) :
    entryAt exchange preamble sender (e.skip 44)
      = fun i => entryAt exchange preamble sender e (i + 1) := by
  funext i recipient
  have hsecret : secretAt (e.skip 44) i = secretAt e (i + 1) := by
    rw [secretAt, secretAt, Entropy.skip_skip, Nat.mul_succ, Nat.add_comm]
  have hnonce : nonceAt (e.skip 44) i = nonceAt e (i + 1) := by
    have hplace : 44 + (44 * i + 32) = 44 * (i + 1) + 32 := by omega
    rw [nonceAt, nonceAt, Entropy.skip_skip, hplace]
  rw [entryAt, entryAt, hsecret, hnonce]

theorem addressTo_of_ne (h : exchange.agreement recipient ≠ Block.zero 32) (e : Entropy) :
    addressTo exchange preamble sender recipient e
      = (.ok (entryAt exchange preamble sender e 0 recipient), e.skip 44) := by
  rw [addressTo, KeyPair.agree?_of_ne h]
  rfl

theorem addressTo_of_eq (h : exchange.agreement recipient = Block.zero 32) (e : Entropy) :
    addressTo exchange preamble sender recipient e
      = (.error (.invalidKey (.degenerateAgreement recipient)), e) := by
  rw [addressTo, KeyPair.agree?_eq_none_iff.mpr h]
  rfl

theorem andThen_of_error {α β : Type} {made : Except Fault α × Entropy} {fault : Fault}
    (next : α → Entropy → Except Fault β × Entropy) (h : made.1 = .error fault) :
    (andThen made next).1 = .error fault := by
  obtain ⟨result, e⟩ := made
  obtain rfl : result = .error fault := h
  rfl

theorem addressAll_of_forall_ne (h : ∀ r ∈ recipients, exchange.agreement r ≠ Block.zero 32)
    (e : Entropy) :
    addressAll exchange preamble sender recipients e
      = (.ok (recipients.mapIdx (entryAt exchange preamble sender e)),
          e.skip (44 * recipients.length)) := by
  induction recipients generalizing e with
  | nil => rfl
  | cons recipient rest ih =>
    have hrest : addressAll exchange preamble sender rest (e.skip 44)
        = (.ok (rest.mapIdx fun i => entryAt exchange preamble sender e (i + 1)),
            e.skip (44 * (recipient :: rest).length)) := by
      rw [ih (fun r hr => h r (List.mem_cons_of_mem _ hr)) (e.skip 44), Entropy.skip_skip,
        List.length_cons, Nat.mul_succ, Nat.add_comm 44, entryAt_skip]
    rw [addressAll, addressTo_of_ne (h recipient List.mem_cons_self), List.mapIdx_cons]
    simp only [andThen, hrest]

theorem addressAll_of_find? {key : PublicKey}
    (h : (recipients.find? fun r => exchange.agreement r = Block.zero 32) = some key)
    (e : Entropy) :
    (addressAll exchange preamble sender recipients e).1
      = .error (.invalidKey (.degenerateAgreement key)) := by
  induction recipients generalizing e with
  | nil => cases h
  | cons recipient rest ih =>
    rw [addressAll]
    by_cases hzero : exchange.agreement recipient = Block.zero 32
    · rw [List.find?_cons_of_pos (by simpa using hzero)] at h
      obtain rfl := Option.some.inj h
      rw [addressTo_of_eq hzero]
      rfl
    · rw [List.find?_cons_of_neg (by simpa using hzero)] at h
      rw [addressTo_of_ne hzero]
      simp only [andThen]
      exact andThen_of_error _ (ih h (e.skip 44))

variable {pair : KeyPair} {ttl : Duration} {now : Instant}

theorem generate_of_refusesTtl (h : RefusesTtl ttl) :
    generate recipients pair ttl now e = (.error (.invalidTtl ttl), e) := by
  unfold RefusesTtl at h
  rw [generate, if_pos h]

theorem generate_of_not_refusesTtl (h : ¬ RefusesTtl ttl) :
    generate recipients pair ttl now e =
      andThen (addressAll (exchangeOf e) (preambleFor ttl now e) pair.hash recipients (e.skip 32))
        fun items e' =>
          let (set, e') := assemble (preambleFor ttl now e) (expiration ttl now) items e'
          (.ok set, e') := by
  have hexchange : KeyPair.generate e = (exchangeOf e, e.skip 32) := rfl
  unfold RefusesTtl at h
  simp only [generate, if_neg h, hexchange, preambleFor]

/-- What the recipients of a set get, each its record and its secret, in their order. -/
def entries (recipients : List PublicKey) (pair : KeyPair) (ttl : Duration) (now : Instant)
    (e : Entropy) : List (Bytes × Addressed) :=
  recipients.mapIdx (entryAt (exchangeOf e) (preambleFor ttl now e) pair.hash (e.skip 32))

def orderStream (recipients : List PublicKey) (e : Entropy) : Entropy :=
  e.skip (32 + 44 * recipients.length)

@[simp] theorem length_entries :
    (entries recipients pair ttl now e).length = recipients.length := by
  simp [entries]

theorem map_recipient_entries :
    (entries recipients pair ttl now e).map (fun i => i.2.recipient) = recipients := by
  apply List.ext_getElem
  · simp
  · intro i _ _
    simp [entries, entryAt]

theorem length_of_mem_entries {entry : Bytes × Addressed}
    (h : entry ∈ entries recipients pair ttl now e) : entry.1.length = recordLength := by
  obtain ⟨i, hi, rfl⟩ := List.mem_mapIdx.mp h
  exact length_recordOf _ _ _ _ _ (by simp [nonceAt, Entropy.take])

theorem generate_of_forall_ne (httl : ¬ RefusesTtl ttl)
    (h : ∀ r ∈ recipients, (exchangeOf e).agreement r ≠ Block.zero 32) :
    (generate recipients pair ttl now e).1 = .ok
      ⟨preambleFor ttl now e ++ ((orderStream recipients e).shuffle
          ((entries recipients pair ttl now e).map Prod.fst)).1.flatten,
        (entries recipients pair ttl now e).map Prod.snd, expiration ttl now⟩ := by
  rw [generate_of_not_refusesTtl httl, addressAll_of_forall_ne h, Entropy.skip_skip]
  rfl

theorem generate_of_find? (httl : ¬ RefusesTtl ttl) {key : PublicKey}
    (h : (recipients.find? fun r => (exchangeOf e).agreement r = Block.zero 32) = some key) :
    (generate recipients pair ttl now e).1
      = .error (.invalidKey (.degenerateAgreement key)) := by
  rw [generate_of_not_refusesTtl httl]
  exact andThen_of_error _ (addressAll_of_find? h (e.skip 32))

theorem generate_cases (recipients : List PublicKey) (pair : KeyPair) (ttl : Duration)
    (now : Instant) (e : Entropy) :
    (RefusesTtl ttl ∧ generate recipients pair ttl now e = (.error (.invalidTtl ttl), e)) ∨
    (¬ RefusesTtl ttl ∧ (∃ r ∈ recipients, (exchangeOf e).agreement r = Block.zero 32) ∧
      ∃ key, (generate recipients pair ttl now e).1
        = .error (.invalidKey (.degenerateAgreement key))) ∨
    ¬ RefusesTtl ttl ∧ (∀ r ∈ recipients, (exchangeOf e).agreement r ≠ Block.zero 32) ∧
      ∃ set, (generate recipients pair ttl now e).1 = .ok set := by
  by_cases httl : RefusesTtl ttl
  · exact .inl ⟨httl, generate_of_refusesTtl httl⟩
  cases hfind : recipients.find? fun r => (exchangeOf e).agreement r = Block.zero 32 with
  | some key =>
    refine .inr (.inl ⟨httl, ⟨key, List.mem_of_find?_eq_some hfind, ?_⟩, key,
      generate_of_find? httl hfind⟩)
    simpa using List.find?_some hfind
  | none =>
    have hall : ∀ r ∈ recipients, (exchangeOf e).agreement r ≠ Block.zero 32 := by
      simpa using List.find?_eq_none.mp hfind
    exact .inr (.inr ⟨httl, hall, _, generate_of_forall_ne httl hall⟩)

section Outcomes

variable (recipients : List PublicKey) (pair : KeyPair) (ttl : Duration) (now : Instant)
  (e : Entropy)

theorem generate_invalidTtl {t : Duration}
    (h : (generate recipients pair ttl now e).1 = .error (.invalidTtl t)) :
    RefusesTtl ttl ∧ t = ttl ∧ (generate recipients pair ttl now e).2 = e := by
  obtain ⟨httl, hrefused⟩ | ⟨_, _, _, hdegenerate⟩ | ⟨_, _, _, hmade⟩ :=
    generate_cases recipients pair ttl now e
  · rw [hrefused] at h ⊢
    cases h
    exact ⟨httl, rfl, rfl⟩
  · cases hdegenerate.symm.trans h
  · cases hmade.symm.trans h

theorem generate_invalidTtl_iff :
    (∃ t, (generate recipients pair ttl now e).1 = .error (.invalidTtl t)) ↔ RefusesTtl ttl := by
  constructor
  · rintro ⟨t, h⟩
    exact (generate_invalidTtl recipients pair ttl now e h).1
  · intro httl
    exact ⟨ttl, by rw [generate_of_refusesTtl httl]⟩

theorem generate_invalidKey_iff :
    (∃ fault, (generate recipients pair ttl now e).1 = .error (.invalidKey fault)) ↔
      ¬ RefusesTtl ttl ∧ ∃ r ∈ recipients, (exchangeOf e).agreement r = Block.zero 32 := by
  obtain ⟨httl, hrefused⟩ | ⟨httl, hzero, key, hdegenerate⟩ | ⟨_, hall, set, hmade⟩ :=
    generate_cases recipients pair ttl now e
  · refine iff_of_false ?_ fun h => h.1 httl
    rintro ⟨fault, h⟩
    rw [hrefused] at h
    cases h
  · exact iff_of_true ⟨_, hdegenerate⟩ ⟨httl, hzero⟩
  · refine iff_of_false ?_ fun ⟨_, r, hr, hzero⟩ => hall r hr hzero
    rintro ⟨fault, h⟩
    cases hmade.symm.trans h

theorem generate_ok_iff :
    (∃ set, (generate recipients pair ttl now e).1 = .ok set) ↔
      ¬ RefusesTtl ttl ∧ ∀ r ∈ recipients, (exchangeOf e).agreement r ≠ Block.zero 32 := by
  obtain ⟨httl, hrefused⟩ | ⟨_, ⟨r, hr, hzero⟩, key, hdegenerate⟩ | ⟨httl, hall, hmade⟩ :=
    generate_cases recipients pair ttl now e
  · refine iff_of_false ?_ fun h => h.1 httl
    rintro ⟨set, h⟩
    rw [hrefused] at h
    cases h
  · refine iff_of_false ?_ fun h => h.2 r hr hzero
    rintro ⟨set, h⟩
    cases hdegenerate.symm.trans h
  · exact iff_of_true hmade ⟨httl, hall⟩

end Outcomes

/-- The set that is made for recipients with whom agreement gives something: the records of all of
them, and nothing else after the preamble. -/
theorem generate_made {set : BeaconSet} (h : (generate recipients pair ttl now e).1 = .ok set) :
    ∃ records : List Bytes,
      records.Perm ((entries recipients pair ttl now e).map Prod.fst) ∧
      records = ((Entropy.swaps (recipients.length - 1) (orderStream recipients e)).foldl
        (fun rs s => rs.swapIfInBounds s.1 s.2)
        ((entries recipients pair ttl now e).map Prod.fst).toArray).toList ∧
      set.blob = (exchangeOf e).publicKey.bytes ++ Bytes.ofNatBE 8 set.expiresAt.toNat
        ++ records.flatten ∧
      recordsIn set.blob = records ∧ set.blob.length = 40 + 92 * recipients.length ∧
      set.expiresAt = expiration ttl now ∧
      set.secrets = (entries recipients pair ttl now e).map Prod.snd ∧
      set.secrets.map Addressed.recipient = recipients := by
  have hset : set = ⟨preambleFor ttl now e ++ ((orderStream recipients e).shuffle
      ((entries recipients pair ttl now e).map Prod.fst)).1.flatten,
      (entries recipients pair ttl now e).map Prod.snd, expiration ttl now⟩ := by
    obtain ⟨_, hrefused⟩ | ⟨_, _, _, hdegenerate⟩ | ⟨httl, hall, _⟩ :=
      generate_cases recipients pair ttl now e
    · rw [hrefused] at h
      cases h
    · cases hdegenerate.symm.trans h
    · exact Except.ok.inj (h.symm.trans (generate_of_forall_ne httl hall))
  subst hset
  have hperm := Entropy.shuffle_perm ((entries recipients pair ttl now e).map Prod.fst)
    (orderStream recipients e)
  have hlength : ∀ r ∈ ((orderStream recipients e).shuffle
      ((entries recipients pair ttl now e).map Prod.fst)).1, r.length = recordLength := by
    intro r hr
    obtain ⟨entry, hentry, rfl⟩ := List.mem_map.mp (hperm.mem_iff.mp hr)
    exact length_of_mem_entries hentry
  refine ⟨_, hperm, ?_, rfl, recordsIn_joined (length_preambleOf _ _) hlength, ?_, rfl, rfl, ?_⟩
  · rw [Entropy.shuffle_eq, List.length_map, length_entries]
  · rw [List.length_append, preambleFor, length_preambleOf,
      Bytes.length_flatten_pieces _ hlength, hperm.length_eq, List.length_map, length_entries,
      preambleLength, recordLength]
  · rw [List.map_map]
    exact map_recipient_entries

/-- No set is made just if its lifetime is none or more than a day, before any random bytes are
read, or if agreement with a recipient is nothing but zeros. A set that is made consists of the
preamble and one record for each recipient, in another order; each is made with bytes that are read
for it alone, and the secret sealed into it stands in the list at the recipient's place. The order
comes from exchanges of records that are there, whatever the random bytes. -/
theorem generate_decided (recipients : List PublicKey) (pair : KeyPair) (ttl : Duration)
    (now : Instant) (e : Entropy) :
    ((∃ t, (generate recipients pair ttl now e).1 = .error (.invalidTtl t)) ↔
      ttl.nanos = 0 ∨ (Duration.ofSecs 86400).nanos < ttl.nanos) ∧
    (∀ t, (generate recipients pair ttl now e).1 = .error (.invalidTtl t) →
      t = ttl ∧ (generate recipients pair ttl now e).2 = e) ∧
    ((∃ fault, (generate recipients pair ttl now e).1 = .error (.invalidKey fault)) ↔
      ¬ (ttl.nanos = 0 ∨ (Duration.ofSecs 86400).nanos < ttl.nanos) ∧
        ∃ r ∈ recipients, (exchangeOf e).agreement r = Block.zero 32) ∧
    ((∃ set, (generate recipients pair ttl now e).1 = .ok set) ↔
      ¬ (ttl.nanos = 0 ∨ (Duration.ofSecs 86400).nanos < ttl.nanos) ∧
        ∀ r ∈ recipients, (exchangeOf e).agreement r ≠ Block.zero 32) ∧
    (∀ set, (generate recipients pair ttl now e).1 = .ok set → ∃ records : List Bytes,
      records.Perm ((entries recipients pair ttl now e).map Prod.fst) ∧
      records = ((Entropy.swaps (recipients.length - 1) (orderStream recipients e)).foldl
        (fun rs s => rs.swapIfInBounds s.1 s.2)
        ((entries recipients pair ttl now e).map Prod.fst).toArray).toList ∧
      set.blob = (exchangeOf e).publicKey.bytes ++ Bytes.ofNatBE 8 set.expiresAt.toNat
        ++ records.flatten ∧
      recordsIn set.blob = records ∧ set.blob.length = 40 + 92 * recipients.length ∧
      set.expiresAt = expiration ttl now ∧
      set.secrets = (entries recipients pair ttl now e).map Prod.snd ∧
      set.secrets.map Addressed.recipient = recipients) ∧
    ∀ stream, ∀ s ∈ Entropy.swaps (recipients.length - 1) stream,
      s.1 < recipients.length ∧ s.2 < recipients.length := by
  refine ⟨generate_invalidTtl_iff recipients pair ttl now e,
    fun t h => (generate_invalidTtl recipients pair ttl now e h).2,
    generate_invalidKey_iff recipients pair ttl now e, generate_ok_iff recipients pair ttl now e,
    fun set => generate_made, ?_⟩
  intro stream s hs
  obtain ⟨hfirst, hsecond⟩ := Entropy.mem_swaps hs
  -- where there is nothing to exchange, there is no pair of places
  have hsome : recipients.length ≠ 0 := by
    intro hnone
    rw [hnone] at hs
    cases hs
  exact ⟨by omega, by omega⟩

theorem generate_decided_askedTwice :
    (∃ set, (generate askedTwice (repeating 1) (.ofSecs 60) ⟨0⟩ counting).1 = .ok set ∧
      set.blob.length = 40 + 92 * 3 ∧ set.secrets.map Addressed.recipient = askedTwice ∧
      (recordsIn set.blob).Perm
        ((entries askedTwice (repeating 1) (.ofSecs 60) ⟨0⟩ counting).map Prod.fst)) ∧
    (∀ s ∈ Entropy.swaps 2 counting, s.1 < 3 ∧ s.2 < 3) ∧
    (generate askedTwice (repeating 1) (.ofSecs 0) ⟨0⟩ counting).1
      = .error (.invalidTtl (.ofSecs 0)) ∧
    (generate askedTwice (repeating 1) (.ofSecs 0) ⟨0⟩ counting).2 = counting := by
  obtain ⟨set, hset⟩ := generate_askedTwice
  obtain ⟨_, _, _, _, hmade, hplaces⟩ :=
    generate_decided askedTwice (repeating 1) (.ofSecs 60) ⟨0⟩ counting
  obtain ⟨hrefused, hunread, _⟩ :=
    generate_decided askedTwice (repeating 1) (.ofSecs 0) ⟨0⟩ counting
  obtain ⟨records, hperm, _, _, hrecords, hlength, _, _, hrecipients⟩ := hmade set hset
  obtain ⟨t, ht⟩ := hrefused.mpr (.inl rfl)
  obtain ⟨rfl, hstream⟩ := hunread t ht
  exact ⟨⟨set, hset, hlength, hrecipients, hrecords ▸ hperm⟩, hplaces counting, ht, hstream⟩

end Beacon

end BeaconMesh
