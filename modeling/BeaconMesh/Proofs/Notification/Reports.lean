import BeaconMesh.Proofs.Beacon.RoundTrip
import BeaconMesh.Proofs.Notification.PeerRecords
import Mathlib.Data.List.Chain

/-!
What an event loop reports, in whatever order events and the ends of fetches come to it: just what
the fetches of the present gave that is welcome and differs from the last report for the peer.
-/

set_option autoImplicit false
set_option relaxedAutoImplicit false

namespace BeaconMesh.Notification.EventLoop

open Beacon

def Cause.departs (cause : Cause) (uuid : String) : Bool :=
  match cause with
  | .heard peer => !peer.available && peer.uuid == uuid
  | _ => false

def goneSince (fetch : Fetch) (moments : List Moment) : Bool :=
  (moments.takeWhile fun m => decide (m.begun ≠ some fetch)).any
    fun m => m.cause.departs fetch.peer.uuid

/-- The secret and the expiry that were reported for a peer at a moment. -/
def Moment.pair? (keys : KeyPair) (uuid : String) (m : Moment) : Option (BeaconSecret × UInt64) :=
  match m.cause with
  | .ended fetch (.gave given now) =>
    if fetch.peer.uuid = uuid then EventLoop.pair? m.reported (.read keys now given) else none
  | _ => none

/-- All that was reported for a peer, the latest first. -/
def pairs (keys : KeyPair) (uuid : String) (moments : List Moment) :
    List (BeaconSecret × UInt64) := moments.filterMap (Moment.pair? keys uuid)

/-- A moment calls for a report: a fetch whose peer has not gone since gave a blob, and what was
read from it is welcome and not what was reported for the peer before. -/
def CallsFor (keys : KeyPair) (book : List KeyHash) (m : Moment) (earlier : List Moment)
    (found : Discovery) : Prop :=
  ∃ fetch blob now parsed notice,
    m.cause = .ended fetch (.gave (.ok (some blob)) now) ∧ goneSince fetch earlier = false ∧
    parse blob keys now = .ok parsed ∧ Welcome book parsed notice ∧
    (pairs keys fetch.peer.uuid earlier).head? ≠ some (notice.secret, parsed.expiresAt) ∧
    found = reportOf fetch.peer notice keys.hash.toHex

variable {keys : KeyPair} {book : List KeyHash} {h : History}

theorem read_eq_some {now : Instant} {given : Except Fault (Option Bytes)} {parsed : Parsed} :
    FetchResult.read keys now given = .ok (some parsed) ↔
      ∃ blob, given = .ok (some blob) ∧ parse blob keys now = .ok parsed := by
  rcases given with fault | _ | blob
  · simp [FetchResult.read]
  · simp [FetchResult.read]
  · cases hparse : parse blob keys now with
    | error fault => simp [FetchResult.read, hparse]
    | ok p => simp [FetchResult.read, hparse]

theorem head?_pairs_cons (uuid : String) (m : Moment) (moments : List Moment) :
    (pairs keys uuid (m :: moments)).head?
      = (m.pair? keys uuid).or (pairs keys uuid moments).head? := by
  rw [pairs, List.filterMap_cons]
  cases m.pair? keys uuid with
  | none => rfl
  | some pair => rfl

theorem goneSince_cons {fetch : Fetch} {m : Moment} (h : m.begun ≠ some fetch)
    (moments : List Moment) :
    goneSince fetch (m :: moments)
      = (m.cause.departs fetch.peer.uuid || goneSince fetch moments) := by
  rw [goneSince, List.takeWhile_cons_of_pos (by simpa using h), List.any_cons, goneSince]

theorem goneSince_cons_begun {fetch : Fetch} {m : Moment} (h : m.begun = some fetch)
    (moments : List Moment) : goneSince fetch (m :: moments) = false := by
  rw [goneSince, List.takeWhile_cons_of_neg (by simp [h]), List.any_nil]

theorem mem_follow {tasks : List Task} {order : Option Order} {t : Task}
    (ht : t ∈ History.follow tasks order) :
    (∃ t' ∈ tasks, t'.fetch = t.fetch) ∨ order = some (.begin t.fetch) := by
  unfold History.follow at ht
  split at ht
  · exact .inl ⟨t, ht, rfl⟩
  · rcases List.mem_append.mp ht with ht | ht
    · exact .inl ⟨t, ht, rfl⟩
    · rw [List.mem_singleton.mp ht]
      exact .inr rfl
  · obtain ⟨t', ht', rfl⟩ := List.mem_map.mp ht
    refine .inl ⟨t', ht', ?_⟩
    split
    · rfl
    · rfl

theorem bind_fetch? {order : Option Order} {fetch : Fetch} :
    order.bind Order.fetch? = some fetch ↔ order = some (.begin fetch) := by
  rcases order with _ | ⟨f⟩ | ⟨n⟩
  · simp
  · simp [Order.fetch?]
  · simp [Order.fetch?]

/-- The loop's records say what the past was: the epochs tell which fetches are of the present, and
the last report for each peer is at hand. -/
structure Faithful (keys : KeyPair) (book : List KeyHash) (h : History) : Prop where
  sameKeys : h.keys = keys
  sameBook : h.loop.book = book
  identity : h.loop.pskIdentity = keys.hash.toHex
  waiting : h.loop.Waiting
  numbered : ∀ m ∈ h.moments, ∀ fetch, m.begun = some fetch → fetch.number < h.loop.nextFetch
  begun : ∀ t ∈ h.tasks, ∃ m ∈ h.moments, m.begun = some t.fetch
  epoch : ∀ t ∈ h.tasks, ∃ r, h.loop.record? t.fetch.peer.uuid = some r ∧
    t.fetch.epoch ≤ r.epoch ∧ (r.epoch = t.fetch.epoch ↔ goneSince t.fetch h.moments = false)
  last : ∀ uuid, (h.loop.recordOf uuid).lastReported = (pairs keys uuid h.moments).head?
  ended : ∀ m earlier, m :: earlier <:+ h.moments → ∀ fetch how, m.cause = .ended fetch how →
    ∃ b ∈ earlier, b.begun = some fetch
  exact : ∀ m earlier, m :: earlier <:+ h.moments → ∀ found,
    m.reported = some found ↔ CallsFor keys book m earlier found

theorem faithful_note (hf : Faithful keys book h) {cause : Cause} {tasks : List Task}
    {reported : Option Discovery} {next : Option Order × EventLoop}
    (hadvances : Advances cause.departs h.loop next) (htasks : ∀ t ∈ tasks, t ∈ h.tasks)
    (hended : ∀ fetch how, cause = .ended fetch how → ∃ b ∈ h.moments, b.begun = some fetch)
    (hlast : ∀ uuid, (next.2.recordOf uuid).lastReported
      = ((Moment.mk cause (next.1.bind Order.fetch?) reported).pair? keys uuid).or
        (h.loop.recordOf uuid).lastReported)
    (hexact : ∀ found, reported = some found ↔
      CallsFor keys book ⟨cause, next.1.bind Order.fetch?, reported⟩ h.moments found) :
    Faithful keys book (h.note cause tasks reported next) where
  sameKeys := hf.sameKeys
  sameBook := hadvances.book.trans hf.sameBook
  identity := hadvances.identity.trans hf.identity
  waiting := hadvances.waiting
  numbered := by
    intro m hm fetch hbegun
    show fetch.number < next.2.nextFetch
    rcases List.mem_cons.mp hm with rfl | hm
    · obtain ⟨hnumber, hnext, -⟩ := hadvances.begun fetch (bind_fetch?.mp hbegun)
      omega
    · exact Nat.lt_of_lt_of_le (hf.numbered m hm fetch hbegun) hadvances.numbered
  begun := by
    intro t ht
    rcases mem_follow ht with ⟨t', ht', heq⟩ | horder
    · obtain ⟨m, hm, hbegun⟩ := hf.begun t' (htasks t' ht')
      exact ⟨m, List.mem_cons_of_mem _ hm, heq ▸ hbegun⟩
    · exact ⟨_, List.mem_cons_self, bind_fetch?.mpr horder⟩
  epoch := by
    intro t ht
    show ∃ r, next.2.record? t.fetch.peer.uuid = some r ∧ _
    rcases mem_follow ht with ⟨t', ht', heq⟩ | horder
    · obtain ⟨m, hm, hbegun⟩ := hf.begun t' (htasks t' ht')
      obtain ⟨r, hrecord, hle, hgone⟩ := hf.epoch t' (htasks t' ht')
      rw [heq] at hbegun hrecord hle hgone
      have hnumber := hf.numbered m hm t.fetch hbegun
      obtain ⟨r', hrecord', hepoch⟩ := hadvances.epoch _ r hrecord
      -- the fetch has begun before, so that this moment is one since then
      have hother : next.1.bind Order.fetch? ≠ some t.fetch := by
        intro hsame
        obtain ⟨hnew, -⟩ := hadvances.begun t.fetch (bind_fetch?.mp hsame)
        omega
      refine ⟨r', hrecord', by omega, ?_⟩
      show _ ↔ goneSince t.fetch (⟨cause, next.1.bind Order.fetch?, reported⟩ :: h.moments) = false
      rw [goneSince_cons hother, Bool.or_eq_false_iff, ← hgone]
      cases hdeparts : cause.departs t.fetch.peer.uuid with
      | false => simp [hepoch, hdeparts]
      | true =>
        simp only [hepoch, hdeparts, if_true, Bool.true_eq_false, false_and, iff_false]
        omega
    · obtain ⟨-, -, r, hrecord, hepoch⟩ := hadvances.begun t.fetch horder
      refine ⟨r, hrecord, Nat.le_of_eq hepoch.symm, ?_⟩
      show _ ↔ goneSince t.fetch (⟨cause, next.1.bind Order.fetch?, reported⟩ :: h.moments) = false
      rw [goneSince_cons_begun (bind_fetch?.mpr horder)]
      exact ⟨fun _ => rfl, fun _ => hepoch⟩
  last := by
    intro uuid
    exact (hlast uuid).trans (by rw [hf.last, ← head?_pairs_cons]; rfl)
  ended := by
    intro m earlier hsuffix fetch how hcause
    rcases List.suffix_cons_iff.mp hsuffix with heq | hsuffix
    · cases heq
      exact hended fetch how hcause
    · exact hf.ended m earlier hsuffix fetch how hcause
  exact := by
    intro m earlier hsuffix
    rcases List.suffix_cons_iff.mp hsuffix with heq | hsuffix
    · cases heq
      exact hexact
    · exact hf.exact m earlier hsuffix

theorem faithful_note_quiet (hf : Faithful keys book h) {cause : Cause} {tasks : List Task}
    {next : Option Order × EventLoop} (hadvances : Advances cause.departs h.loop next)
    (htasks : ∀ t ∈ tasks, t ∈ h.tasks)
    (hended : ∀ fetch how, cause = .ended fetch how → ∃ b ∈ h.moments, b.begun = some fetch)
    (hquiet : ∀ fetch given now, cause ≠ .ended fetch (.gave given now))
    (hlast : ∀ uuid, (next.2.recordOf uuid).lastReported = (h.loop.recordOf uuid).lastReported) :
    Faithful keys book (h.note cause tasks none next) := by
  refine faithful_note hf hadvances htasks hended ?_ ?_
  · intro uuid
    rw [hlast, Moment.pair?]
    split
    · rename_i hcause
      exact absurd hcause (hquiet _ _ _)
    · rfl
  · intro found
    constructor
    · intro h
      cases h
    · rintro ⟨fetch, blob, now, parsed, notice, hcause, -⟩
      exact absurd hcause (hquiet _ _ _)

theorem faithful_finish (hf : Faithful keys book h) {task : Task} (htask : task ∈ h.tasks)
    (how : FetchEnd) : Faithful keys book (h.finish task how) := by
  have htasks : ∀ t ∈ h.tasks.filter fun t => t.fetch.number != task.fetch.number,
      t ∈ h.tasks := fun t ht => (List.mem_filter.mp ht).1
  have hended : ∀ fetch how', Cause.ended task.fetch how = .ended fetch how' →
      ∃ b ∈ h.moments, b.begun = some fetch := by
    rintro fetch how' ⟨⟩
    exact hf.begun task htask
  unfold History.finish
  cases how with
  | cancelled =>
    simp only
    split
    · exact faithful_note_quiet hf (.refl hf.waiting) htasks hended
        (fun _ _ _ hcause => nomatch hcause) (fun _ => rfl)
    · exact hf
  | brokeDown =>
    exact faithful_note_quiet hf (.refl hf.waiting) htasks hended
      (fun _ _ _ hcause => nomatch hcause) (fun _ => rfl)
  | gave given now =>
    obtain ⟨r, hrecord, -, hgone⟩ := hf.epoch task htask
    rw [hf.sameKeys]
    refine faithful_note hf (advances_onFetched hf.waiting task.fetch _) htasks hended ?_ ?_
    · exact lastReported_onFetched task.fetch _
    · intro found
      show (h.loop.onFetched task.fetch (.read keys now given)).1.1 = some found ↔ _
      rw [onFetched_reports_iff, hf.sameBook, hf.identity, hf.last]
      constructor
      · rintro ⟨⟨r', hrecord', hepoch⟩, parsed, notice, hread, hwelcome, hnew, rfl⟩
        cases hrecord.symm.trans hrecord'
        obtain ⟨blob, rfl, hparse⟩ := read_eq_some.mp hread
        exact ⟨task.fetch, blob, now, parsed, notice, rfl, hgone.mp hepoch, hparse, hwelcome, hnew,
          rfl⟩
      · rintro ⟨fetch, blob, now', parsed, notice, ⟨⟩, hpresent, hparse, hwelcome, hnew, rfl⟩
        exact ⟨⟨r, hrecord, hgone.mpr hpresent⟩, parsed, notice,
          read_eq_some.mpr ⟨blob, rfl, hparse⟩, hwelcome, hnew, rfl⟩

theorem faithful_step (hf : Faithful keys book h) (s : Signal) : Faithful keys book (h.step s) := by
  unfold History.step
  split
  · rename_i peer
    exact faithful_note_quiet hf (advances_onAvailability hf.waiting peer) (fun _ ht => ht)
      (fun _ _ hcause => nomatch hcause) (fun _ _ _ hcause => nomatch hcause)
      (lastReported_onAvailability peer)
  · exact faithful_note_quiet hf (.refl hf.waiting) (fun _ ht => ht)
      (fun _ _ hcause => nomatch hcause) (fun _ _ _ hcause => nomatch hcause) (fun _ => rfl)
  · split
    · exact hf
    · rename_i hfind
      exact faithful_finish hf (List.mem_of_find?_eq_some hfind) _

theorem faithful_fresh (keys : KeyPair) (book : List KeyHash) :
    Faithful keys book (.fresh keys book) where
  sameKeys := rfl
  sameBook := rfl
  identity := rfl
  waiting := fun _ _ h => nomatch h
  numbered := fun _ hm => nomatch hm
  begun := fun _ ht => nomatch ht
  epoch := fun _ ht => nomatch ht
  last := fun _ => rfl
  ended := fun _ _ hsuffix => nomatch List.suffix_nil.mp hsuffix
  exact := fun _ _ hsuffix => nomatch List.suffix_nil.mp hsuffix

theorem faithful_run (hf : Faithful keys book h) (signals : List Signal) :
    Faithful keys book (h.run signals) := by
  induction signals generalizing h with
  | nil => exact hf
  | cons s signals ih => exact ih (faithful_step hf s)

theorem pair?_eq_some {uuid : String} {m : Moment} {pair : BeaconSecret × UInt64}
    (hpair : m.pair? keys uuid = some pair) : ∃ fetch given now found parsed,
      m.cause = .ended fetch (.gave given now) ∧ fetch.peer.uuid = uuid ∧
      m.reported = some found ∧ FetchResult.read keys now given = .ok (some parsed) ∧
      pair = (found.secret, parsed.expiresAt) := by
  unfold Moment.pair? at hpair
  split at hpair
  · rename_i fetch given now hcause
    split at hpair
    · rename_i huuid
      unfold EventLoop.pair? at hpair
      split at hpair
      · rename_i found parsed hreported hread
        cases hpair
        exact ⟨fetch, given, now, found, parsed, hcause, huuid, hreported, hread, rfl⟩
      · cases hpair
    · cases hpair
  · cases hpair

/-- If every report is called for, no two in a row for one peer say the same. -/
theorem isChain_pairs {moments : List Moment}
    (hexact : ∀ m earlier, m :: earlier <:+ moments → ∀ found, m.reported = some found →
      CallsFor keys book m earlier found) (uuid : String) :
    (pairs keys uuid moments).IsChain (· ≠ ·) := by
  induction moments with
  | nil => exact .nil
  | cons m moments ih =>
    have hrest : (pairs keys uuid moments).IsChain (· ≠ ·) :=
      ih fun m' earlier hsuffix => hexact m' earlier (hsuffix.trans (List.suffix_cons _ _))
    rw [pairs, List.filterMap_cons]
    cases hpair : m.pair? keys uuid with
    | none => exact hrest
    | some pair =>
      obtain ⟨fetch, given, now, found, parsed, hcause, rfl, hreported, hread, rfl⟩ :=
        pair?_eq_some hpair
      obtain ⟨fetch', blob, now', parsed', notice, hcause', -, hparse, -, hnew, rfl⟩ :=
        hexact m moments List.suffix_rfl found hreported
      cases hcause.symm.trans hcause'
      have hsame : parsed = parsed' := by
        have hread' := read_eq_some.mpr ⟨blob, rfl, hparse⟩
        cases hread.symm.trans hread'
        rfl
      refine List.isChain_cons.mpr ⟨?_, hrest⟩
      rintro last hlast rfl
      exact hnew (hsame ▸ hlast)

/-- Whatever comes to an event loop and in whatever order: it reports at just those moments at which
a fetch that is not stale has given a blob that is for this device, has not expired, comes from
somebody in the book and says something else than the last report for the peer. Every fetch that
ends has begun before, and no two reports in a row for one peer say the same. -/
theorem reported_iff (keys : KeyPair) (book : List KeyHash) (signals : List Signal) :
    let h := (History.fresh keys book).run signals
    (∀ m earlier, m :: earlier <:+ h.moments → ∀ found, m.reported = some found ↔
      ∃ fetch blob now parsed notice,
        m.cause = .ended fetch (.gave (.ok (some blob)) now) ∧ goneSince fetch earlier = false ∧
        parse blob keys now = .ok parsed ∧ parsed.notice = some notice ∧
        parsed.expired = false ∧ (book = [] ∨ notice.sender ∈ book) ∧
        (pairs keys fetch.peer.uuid earlier).head? ≠ some (notice.secret, parsed.expiresAt) ∧
        found = ⟨fetch.peer.identifier, fetch.peer.host, fetch.peer.port, fetch.peer.connection,
          notice.secret, notice.sender, keys.hash.toHex⟩) ∧
    (∀ m earlier, m :: earlier <:+ h.moments → ∀ fetch how, m.cause = .ended fetch how →
      ∃ b ∈ earlier, b.begun = some fetch) ∧
    ∀ uuid, (pairs keys uuid h.moments).IsChain (· ≠ ·) := by
  intro h
  have hf : Faithful keys book h := faithful_run (faithful_fresh keys book) signals
  refine ⟨?_, hf.ended, ?_⟩
  · intro m earlier hsuffix found
    rw [hf.exact m earlier hsuffix found]
    constructor
    · rintro ⟨fetch, blob, now, parsed, notice, hcause, hpresent, hparse, hwelcome, hnew, hfound⟩
      exact ⟨fetch, blob, now, parsed, notice, hcause, hpresent, hparse, hwelcome.matched,
        hwelcome.fresh, hwelcome.sender, hnew, hfound⟩
    · rintro ⟨fetch, blob, now, parsed, notice, hcause, hpresent, hparse, hmatched, hfresh,
        hsender, hnew, hfound⟩
      exact ⟨fetch, blob, now, parsed, notice, hcause, hpresent, hparse,
        ⟨hmatched, hfresh, hsender⟩, hnew, hfound⟩
  · intro uuid
    exact isChain_pairs (fun m earlier hsuffix found => (hf.exact m earlier hsuffix found).mp) uuid

def comer : PeerAvailability := .tcp ⟨"a", 1⟩ "10.0.0.1" 80

/-- What a peer hands out is reported when it was made for the client and is fetched while the peer
is there. -/
theorem reported_iff_comer : ∃ set secret m earlier,
    (generate askedTwice (repeating 1) (.ofSecs 60) ⟨0⟩ counting).1 = .ok set ∧
    ((History.fresh (repeating 2) []).run
      [.heard comer, .ended 0 (.gave (.ok (some set.blob)) ⟨0⟩)]).moments = m :: earlier ∧
    m.cause = .ended ⟨0, 0, comer⟩ (.gave (.ok (some set.blob)) ⟨0⟩) ∧
    m.reported = some ⟨⟨"a", 1⟩, "10.0.0.1", 80, .tcpNative, secret, (repeating 1).hash,
      (repeating 2).hash.toHex⟩ ∧
    ∃ b ∈ earlier, b.begun = some ⟨0, 0, comer⟩ := by
  obtain ⟨set, hmade⟩ := generate_askedTwice
  obtain ⟨item, record, -, -, -, -, hparse⟩ :=
    parse_made hmade (List.mem_cons_self : (repeating 2).publicKey ∈ askedTwice)
      legible_askedTwice ⟨0⟩
  revert hparse
  generalize (repeating 1).hash = sender
  generalize repeating 2 = keys
  intro hparse
  obtain ⟨m, hmoments, hcause⟩ : ∃ m, ((History.fresh keys []).run
      [.heard comer, .ended 0 (.gave (.ok (some set.blob)) ⟨0⟩)]).moments
        = [m, ⟨.heard comer, some ⟨0, 0, comer⟩, none⟩] ∧
      m.cause = .ended ⟨0, 0, comer⟩ (.gave (.ok (some set.blob)) ⟨0⟩) := ⟨_, rfl, rfl⟩
  obtain ⟨hexact, hbegun, -⟩ := reported_iff keys []
    [.heard comer, .ended 0 (.gave (.ok (some set.blob)) ⟨0⟩)]
  have hsuffix : [m, ⟨.heard comer, some ⟨0, 0, comer⟩, none⟩] <:+ ((History.fresh keys []).run
      [.heard comer, .ended 0 (.gave (.ok (some set.blob)) ⟨0⟩)]).moments :=
    ⟨[], hmoments.symm⟩
  refine ⟨set, item.secret, m, _, hmade, hmoments, hcause, ?_, ?_⟩
  · refine (hexact _ _ hsuffix _).mpr ?_
    exact ⟨⟨0, 0, comer⟩, set.blob, ⟨0⟩, _, ⟨sender, item.secret⟩, hcause, rfl, hparse, rfl, rfl,
      .inl rfl, (fun h => nomatch h), rfl⟩
  · exact hbegun _ _ hsuffix _ _ hcause

end BeaconMesh.Notification.EventLoop
