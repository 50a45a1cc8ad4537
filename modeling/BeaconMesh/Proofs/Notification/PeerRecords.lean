import BeaconMesh.Notification.EventLoopHistory

/-!
What an event and the end of a fetch do to the records of an event loop. Only a peer's departure
counts up its epoch, and only the fetch of an epoch that has not passed says anything.
-/

set_option autoImplicit false
set_option relaxedAutoImplicit false

namespace BeaconMesh.Notification.EventLoop

variable {l l' : EventLoop} {peer : PeerAvailability} {fetch : Fetch}

theorem record?_put_self (l : EventLoop) (uuid : String) (r : PeerRecord) :
    (l.put uuid r).record? uuid = some r := by
  simp [record?, put]

theorem record?_put_of_ne {uuid other : String} (hne : other ≠ uuid) (r : PeerRecord) :
    (l.put uuid r).record? other = l.record? other := by
  have hfirst : ((uuid, r).1 == other) = false := by simpa using hne.symm
  rw [record?, put, List.find?_cons_of_neg (by simp [hfirst]), List.find?_filter, record?]
  congr 2
  funext p
  by_cases hp : p.1 = other
  · simp [hp, hne]
  · simp [hp]

theorem record?_put (l : EventLoop) (uuid : String) (r : PeerRecord) (other : String) :
    (l.put uuid r).record? other = if other = uuid then some r else l.record? other := by
  by_cases heq : other = uuid
  · rw [if_pos heq, heq, record?_put_self]
  · rw [if_neg heq, record?_put_of_ne heq]

/-- What is known of a peer; nothing if it was never heard of. -/
def recordOf (l : EventLoop) (uuid : String) : PeerRecord := (l.record? uuid).getD .fresh

theorem recordOf_put (l : EventLoop) (uuid : String) (r : PeerRecord) (other : String) :
    (l.put uuid r).recordOf other = if other = uuid then r else l.recordOf other := by
  rw [recordOf, record?_put]
  split
  · rfl
  · rfl

theorem recordOf_of_some {uuid : String} {r : PeerRecord} (h : l.record? uuid = some r) :
    l.recordOf uuid = r := by
  rw [recordOf, h, Option.getD_some]

inductive Hears (l : EventLoop) (peer : PeerAvailability) : Option Order × EventLoop → Prop
  | unknown (hgone : peer.available = false) (hrecord : l.record? peer.uuid = none) :
    Hears l peer (none, l)
  | departed (hgone : peer.available = false) {r : PeerRecord}
    (hrecord : l.record? peer.uuid = some r) :
    Hears l peer (r.fetching.map .abandon,
      l.put peer.uuid { r with fetching := none, epoch := r.epoch + 1, deferred := none })
  | skipped (hcame : peer.available = true)
    (hold : (∃ last, (l.recordOf peer.uuid).lastFetched = some last ∧ peer.generation ≤ last) ∨
      (l.recordOf peer.uuid).fetching.isSome = true ∧
        ∃ newest, (l.recordOf peer.uuid).deferred = some newest ∧
          peer.generation ≤ newest.generation) :
    Hears l peer (none, l.put peer.uuid (l.recordOf peer.uuid))
  | deferred (hcame : peer.available = true)
    (hnew : ∀ last, (l.recordOf peer.uuid).lastFetched = some last → last < peer.generation)
    (hbusy : (l.recordOf peer.uuid).fetching.isSome = true)
    (hnewest : ∀ newest, (l.recordOf peer.uuid).deferred = some newest →
      newest.generation < peer.generation) :
    Hears l peer (none, l.put peer.uuid { l.recordOf peer.uuid with deferred := some peer })
  | begun (hcame : peer.available = true)
    (hnew : ∀ last, (l.recordOf peer.uuid).lastFetched = some last → last < peer.generation)
    (hidle : (l.recordOf peer.uuid).fetching = none) :
    Hears l peer (some (.begin ⟨l.nextFetch, (l.recordOf peer.uuid).epoch, peer⟩),
      { l.put peer.uuid { l.recordOf peer.uuid with fetching := some l.nextFetch } with
        nextFetch := l.nextFetch + 1 })

theorem hears_onAvailability (l : EventLoop) (peer : PeerAvailability) :
    Hears l peer (l.onAvailability peer) := by
  unfold onAvailability
  cases hcame : peer.available with
  | false =>
    simp only [Bool.false_eq_true, if_false]
    cases hrecord : l.record? peer.uuid with
    | none => exact .unknown hcame hrecord
    | some r => exact .departed hcame hrecord
  | true =>
    simp only [if_true]
    rw [show (l.record? peer.uuid).getD .fresh = l.recordOf peer.uuid from rfl]
    by_cases hskip : ((l.recordOf peer.uuid).lastFetched.any fun last =>
        decide (peer.generation ≤ last)) = true
    · rw [if_pos hskip]
      exact .skipped hcame (.inl (by simpa [Option.any_eq_true] using hskip))
    · have hnew : ∀ last, (l.recordOf peer.uuid).lastFetched = some last →
          last < peer.generation := by
        intro last hlast
        simpa [hlast] using hskip
      rw [if_neg hskip]
      cases hbusy : (l.recordOf peer.uuid).fetching.isSome with
      | false =>
        rw [if_neg Bool.false_ne_true]
        exact .begun hcame hnew (by simpa using hbusy)
      | true =>
        rw [if_pos rfl]
        cases hdeferred : (l.recordOf peer.uuid).deferred with
        | none => exact .deferred hcame hnew hbusy (by simp [hdeferred])
        | some newest =>
          by_cases hold : newest.generation < peer.generation
          · simp only [Option.all_some, hold, decide_true, if_true]
            exact .deferred hcame hnew hbusy (by simpa [hdeferred] using hold)
          · simp only [Option.all_some, hold, decide_false, Bool.false_eq_true, if_false]
            exact .skipped hcame (.inr ⟨hbusy, newest, hdeferred, UInt32.not_lt.mp hold⟩)

/-- The events that wait are of peers that came, each with the record of its own peer. -/
def Waiting (l : EventLoop) : Prop :=
  ∀ uuid next, (l.recordOf uuid).deferred = some next → next.available = true ∧ next.uuid = uuid

/-- What a step leaves as it was: the records stay, an epoch counts up only where a peer has gone,
and a fetch begins in the epoch of its peer, with the next number. -/
structure Advances (gone : String → Bool) (l : EventLoop) (next : Option Order × EventLoop) :
    Prop where
  book : next.2.book = l.book
  identity : next.2.pskIdentity = l.pskIdentity
  waiting : next.2.Waiting
  epoch : ∀ uuid r, l.record? uuid = some r →
    ∃ r', next.2.record? uuid = some r' ∧ r'.epoch = r.epoch + if gone uuid then 1 else 0
  numbered : l.nextFetch ≤ next.2.nextFetch
  begun : ∀ fetch, next.1 = some (.begin fetch) →
    fetch.number = l.nextFetch ∧ next.2.nextFetch = l.nextFetch + 1 ∧
      ∃ r, next.2.record? fetch.peer.uuid = some r ∧ r.epoch = fetch.epoch

theorem Advances.refl (hwaiting : l.Waiting) : Advances (fun _ => false) l (none, l) where
  book := rfl
  identity := rfl
  waiting := hwaiting
  epoch := fun _ r hrecord => ⟨r, hrecord, rfl⟩
  numbered := Nat.le_refl _
  begun := fun _ hbegun => nomatch hbegun

theorem Advances.trans {gone : String → Bool} {next : Option Order × EventLoop}
    (hfirst : Advances (fun _ => false) l (none, l')) (hnext : Advances gone l' next)
    (hnumber : l'.nextFetch = l.nextFetch) : Advances gone l next where
  book := hnext.book.trans hfirst.book
  identity := hnext.identity.trans hfirst.identity
  waiting := hnext.waiting
  epoch := by
    intro uuid r hrecord
    obtain ⟨r', hrecord', hepoch⟩ := hfirst.epoch uuid r hrecord
    obtain ⟨r'', hrecord'', hepoch'⟩ := hnext.epoch uuid r' hrecord'
    exact ⟨r'', hrecord'', by simpa [hepoch] using hepoch'⟩
  numbered := hnumber ▸ hnext.numbered
  begun := by
    intro fetch hbegun
    simpa only [hnumber] using hnext.begun fetch hbegun

theorem advances_put {gone : String → Bool} {uuid : String} {r : PeerRecord} {order : Option Order}
    {number : Nat} (hwaiting : l.Waiting)
    (hepoch : r.epoch = (l.recordOf uuid).epoch + if gone uuid then 1 else 0)
    (hothers : ∀ other, other ≠ uuid → gone other = false)
    (hdeferred : ∀ next, r.deferred = some next → next.available = true ∧ next.uuid = uuid)
    (hnumber : l.nextFetch ≤ number)
    (hbegun : ∀ fetch, order = some (.begin fetch) → fetch.number = l.nextFetch ∧
      number = l.nextFetch + 1 ∧ fetch.peer.uuid = uuid ∧ r.epoch = fetch.epoch) :
    Advances gone l (order, { l.put uuid r with nextFetch := number }) where
  book := rfl
  identity := rfl
  waiting := by
    intro other next hnext
    replace hnext : ((l.put uuid r).recordOf other).deferred = some next := hnext
    rw [recordOf_put] at hnext
    split at hnext
    · rename_i heq
      exact heq ▸ hdeferred next hnext
    · exact hwaiting other next hnext
  epoch := by
    intro other r' hrecord
    show ∃ r'', (l.put uuid r).record? other = some r'' ∧ _
    rw [record?_put]
    by_cases heq : other = uuid
    · subst heq
      rw [if_pos rfl]
      exact ⟨r, rfl, by rw [hepoch, recordOf_of_some hrecord]⟩
    · rw [if_neg heq]
      exact ⟨r', hrecord, by simp [hothers other heq]⟩
  numbered := hnumber
  begun := by
    intro fetch horder
    obtain ⟨hfirst, hnext, huuid, hepoch'⟩ := hbegun fetch horder
    refine ⟨hfirst, hnext, r, ?_, hepoch'⟩
    show (l.put uuid r).record? fetch.peer.uuid = some r
    rw [huuid, record?_put_self]

theorem advances_onAvailability (hwaiting : l.Waiting) (peer : PeerAvailability) :
    Advances (fun uuid => !peer.available && peer.uuid == uuid) l (l.onAvailability peer) := by
  have hears := hears_onAvailability l peer
  generalize l.onAvailability peer = next at hears
  have hothers : ∀ other, other ≠ peer.uuid → (!peer.available && peer.uuid == other) = false := by
    intro other hne
    simp [hne.symm]
  cases hears with
  | unknown hgone hrecord =>
    refine { Advances.refl hwaiting with epoch := ?_ }
    intro uuid r hknown
    have hne : peer.uuid ≠ uuid := by
      rintro rfl
      exact nomatch hrecord.symm.trans hknown
    exact ⟨r, hknown, by simp [hne]⟩
  | departed hgone hrecord =>
    refine advances_put hwaiting ?_ hothers (fun _ h => nomatch h) (Nat.le_refl _) ?_
    · simp [hgone, recordOf_of_some hrecord]
    · intro fetch horder
      simp at horder
  | skipped hcame _ =>
    exact advances_put hwaiting (by simp [hcame]) hothers (hwaiting _) (Nat.le_refl _)
      (fun _ h => nomatch h)
  | deferred hcame _ _ _ =>
    refine advances_put hwaiting (by simp [hcame]) hothers ?_ (Nat.le_refl _) (fun _ h => nomatch h)
    rintro next ⟨⟩
    exact ⟨hcame, rfl⟩
  | begun hcame _ _ =>
    refine advances_put hwaiting (by simp [hcame]) hothers (hwaiting _) (Nat.le_succ _) ?_
    rintro fetch ⟨⟩
    exact ⟨rfl, rfl, rfl, rfl⟩

theorem outcomes_onAvailability (peer : PeerAvailability) (uuid : String) :
    ((l.onAvailability peer).2.recordOf uuid).lastFetched = (l.recordOf uuid).lastFetched ∧
      ((l.onAvailability peer).2.recordOf uuid).lastReported
        = (l.recordOf uuid).lastReported := by
  have hput : ∀ r : PeerRecord, r.lastFetched = (l.recordOf peer.uuid).lastFetched →
      r.lastReported = (l.recordOf peer.uuid).lastReported →
      ((l.put peer.uuid r).recordOf uuid).lastFetched = (l.recordOf uuid).lastFetched ∧
        ((l.put peer.uuid r).recordOf uuid).lastReported = (l.recordOf uuid).lastReported := by
    intro r hfetched hreported
    rw [recordOf_put]
    split
    · rename_i heq
      rw [heq]
      exact ⟨hfetched, hreported⟩
    · exact ⟨rfl, rfl⟩
  have hears := hears_onAvailability l peer
  generalize l.onAvailability peer = next at hears
  cases hears with
  | unknown => exact ⟨rfl, rfl⟩
  | departed hgone hrecord =>
    exact hput _ (by rw [recordOf_of_some hrecord]) (by rw [recordOf_of_some hrecord])
  | skipped => exact hput _ rfl rfl
  | deferred => exact hput _ rfl rfl
  | begun => exact hput _ rfl rfl

theorem lastReported_onAvailability (peer : PeerAvailability) (uuid : String) :
    ((l.onAvailability peer).2.recordOf uuid).lastReported = (l.recordOf uuid).lastReported :=
  (outcomes_onAvailability peer uuid).2

def pair? (reported : Option Discovery) (result : FetchResult) : Option (BeaconSecret × UInt64) :=
  match reported, result with
  | some found, .ok (some parsed) => some (found.secret, parsed.expiresAt)
  | _, _ => none

/-- What was read is for this device, has not expired, and comes from somebody in the book. -/
structure Welcome (book : List KeyHash) (parsed : Beacon.Parsed) (notice : Beacon.Notice) :
    Prop where
  matched : parsed.notice = some notice
  fresh : parsed.expired = false
  sender : book = [] ∨ notice.sender ∈ book

def reportOf (peer : PeerAvailability) (notice : Beacon.Notice) (pskIdentity : String) :
    Discovery :=
  ⟨peer.identifier, peer.host, peer.port, peer.connection, notice.secret, notice.sender,
    pskIdentity⟩

theorem discovery?_eq_some {parsed : Option Beacon.Parsed} {found : Discovery}
    {expiresAt : UInt64} :
    l.discovery? peer parsed = some (found, expiresAt) ↔ ∃ p notice, parsed = some p ∧
      Welcome l.book p notice ∧ found = reportOf peer notice l.pskIdentity ∧
      expiresAt = p.expiresAt := by
  have hbook : ∀ sender, (!l.book.isEmpty && !l.book.contains sender) = true ↔
      ¬ (l.book = [] ∨ sender ∈ l.book) := by
    intro sender
    simp [not_or]
  constructor
  · intro h
    simp only [discovery?, Option.bind_eq_bind, Option.bind_eq_some_iff] at h
    obtain ⟨p, rfl, notice, hnotice, h⟩ := h
    split at h
    · cases h
    · rename_i hexpired
      split at h
      · cases h
      · rename_i hknown
        cases h
        refine ⟨p, notice, rfl, ⟨hnotice, by simpa using hexpired, ?_⟩, rfl, rfl⟩
        exact Decidable.not_not.mp (mt (hbook notice.sender).mpr hknown)
  · rintro ⟨p, notice, rfl, ⟨hnotice, hexpired, hsender⟩, rfl, rfl⟩
    have hknown : ¬ (!l.book.isEmpty && !l.book.contains notice.sender) = true :=
      fun h => (hbook notice.sender).mp h hsender
    simp only [discovery?, Option.bind_eq_bind, Option.bind_some, hnotice, hexpired,
      Bool.false_eq_true, if_false, if_neg hknown]
    rfl

theorem settle_reports_iff (l : EventLoop) (r : PeerRecord) (peer : PeerAvailability)
    (result : FetchResult) (found : Discovery) :
    (l.settle r peer result).1 = some found ↔ ∃ parsed notice, result = .ok (some parsed) ∧
      Welcome l.book parsed notice ∧ r.lastReported ≠ some (notice.secret, parsed.expiresAt) ∧
      found = reportOf peer notice l.pskIdentity := by
  constructor
  · intro h
    unfold settle at h
    split at h
    · cases h
    · simp only at h
      split at h
      · cases h
      · rename_i hfound
        obtain ⟨p, notice, rfl, hwelcome, rfl, rfl⟩ := discovery?_eq_some.mp hfound
        split at h
        · cases h
        · rename_i hnew
          cases h
          exact ⟨p, notice, rfl, hwelcome, hnew, rfl⟩
  · rintro ⟨p, notice, rfl, hwelcome, hnew, rfl⟩
    have hfound : l.discovery? peer (some p)
        = some (reportOf peer notice l.pskIdentity, p.expiresAt) :=
      discovery?_eq_some.mpr ⟨p, notice, rfl, hwelcome, rfl, rfl⟩
    have hnew' : ¬ r.lastReported
        = some ((reportOf peer notice l.pskIdentity).secret, p.expiresAt) := hnew
    simp only [settle, hfound, if_neg hnew']

theorem settle_lastReported (l : EventLoop) (r : PeerRecord) (peer : PeerAvailability)
    (result : FetchResult) :
    (l.settle r peer result).2.lastReported
      = (pair? (l.settle r peer result).1 result).or r.lastReported := by
  rcases result with fault | parsed
  · rfl
  unfold settle
  simp only
  split
  · rfl
  · rename_i hfound
    obtain ⟨p, notice, rfl, -, rfl, rfl⟩ := discovery?_eq_some.mp hfound
    split
    · rfl
    · rfl

theorem settle_keeps (l : EventLoop) (r : PeerRecord) (peer : PeerAvailability)
    (result : FetchResult) : (l.settle r peer result).2.epoch = r.epoch ∧
      (l.settle r peer result).2.deferred = r.deferred := by
  unfold settle
  split
  · exact ⟨rfl, rfl⟩
  · simp only
    split
    · exact ⟨rfl, rfl⟩
    · split
      · exact ⟨rfl, rfl⟩
      · exact ⟨rfl, rfl⟩

theorem settle_fetching (l : EventLoop) (r : PeerRecord) (peer : PeerAvailability)
    (result : FetchResult) : (l.settle r peer result).2.fetching = none := by
  unfold settle
  split
  · rfl
  · simp only
    split
    · rfl
    · split
      · rfl
      · rfl

theorem settle_lastFetched (l : EventLoop) (r : PeerRecord) (peer : PeerAvailability)
    (result : FetchResult) : (l.settle r peer result).2.lastFetched =
      if result.isOk then some (highest r.lastFetched peer.generation) else r.lastFetched := by
  unfold settle
  split
  · rfl
  · simp only
    split
    · rfl
    · split
      · rfl
      · rfl

def goOn (l : EventLoop) : Option PeerAvailability → Option Order × EventLoop
  | none => (none, l)
  | some next => l.onAvailability next

inductive HearsEnd (l : EventLoop) (fetch : Fetch) (result : FetchResult) :
    (Option Discovery × Option Order) × EventLoop → Prop
  | stale (hstale : ∀ r, l.record? fetch.peer.uuid = some r → r.epoch ≠ fetch.epoch) :
    HearsEnd l fetch result ((none, none), l)
  | current {r r' : PeerRecord} {found : Option Discovery} {order : Option Order} {l' : EventLoop}
    (hrecord : l.record? fetch.peer.uuid = some r) (hepoch : r.epoch = fetch.epoch)
    (hsettle : l.settle r fetch.peer result = (found, r'))
    (hnext : (l.put fetch.peer.uuid { r' with deferred := none }).goOn r.deferred
      = (order, l')) :
    HearsEnd l fetch result ((found, order), l')

theorem hearsEnd_onFetched (l : EventLoop) (fetch : Fetch) (result : FetchResult) :
    HearsEnd l fetch result (l.onFetched fetch result) := by
  unfold onFetched
  cases hrecord : l.record? fetch.peer.uuid with
  | none => exact .stale fun r h => nomatch hrecord.symm.trans h
  | some r =>
    by_cases hepoch : r.epoch = fetch.epoch
    · simp only [hepoch, ne_eq, not_true_eq_false, if_false]
      obtain ⟨-, hdeferred⟩ := settle_keeps l r fetch.peer result
      rcases hsettle : l.settle r fetch.peer result with ⟨found, r'⟩
      rw [hsettle] at hdeferred
      simp only at hdeferred ⊢
      cases hwaits : r.deferred with
      | none =>
        rw [hdeferred, hwaits]
        exact .current hrecord hepoch hsettle (by rw [hwaits, goOn])
      | some next =>
        rw [hdeferred, hwaits]
        exact .current hrecord hepoch hsettle (by rw [hwaits, goOn])
    · simp only [ne_eq, hepoch, not_false_eq_true, if_true]
      refine .stale fun r' h => ?_
      cases hrecord.symm.trans h
      exact hepoch

/-- A report is made when the fetch is not stale and gave something new and welcome. -/
theorem onFetched_reports_iff {result : FetchResult} {found : Discovery} :
    (l.onFetched fetch result).1.1 = some found ↔
      (∃ r, l.record? fetch.peer.uuid = some r ∧ r.epoch = fetch.epoch) ∧
      ∃ parsed notice, result = .ok (some parsed) ∧ Welcome l.book parsed notice ∧
        (l.recordOf fetch.peer.uuid).lastReported ≠ some (notice.secret, parsed.expiresAt) ∧
        found = reportOf fetch.peer notice l.pskIdentity := by
  have hends := hearsEnd_onFetched l fetch result
  generalize l.onFetched fetch result = ended at hends
  cases hends with
  | stale hstale =>
    constructor
    · intro h
      cases h
    · rintro ⟨⟨r, hrecord, hepoch⟩, -⟩
      exact absurd hepoch (hstale r hrecord)
  | @current r r' found' order l' hrecord hepoch hsettle hnext =>
    have hreports := settle_reports_iff l r fetch.peer result found
    rw [hsettle] at hreports
    rw [recordOf_of_some hrecord]
    exact hreports.trans ⟨fun h => ⟨⟨r, hrecord, hepoch⟩, h⟩, fun h => h.2⟩

theorem lastReported_onFetched (fetch : Fetch) (result : FetchResult) (uuid : String) :
    ((l.onFetched fetch result).2.recordOf uuid).lastReported =
      ((if fetch.peer.uuid = uuid then pair? (l.onFetched fetch result).1.1 result else none).or
        (l.recordOf uuid).lastReported) := by
  have hends := hearsEnd_onFetched l fetch result
  generalize l.onFetched fetch result = ended at hends
  cases hends with
  | stale hstale => simp [pair?]
  | @current r r' found order l' hrecord hepoch hsettle hnext =>
    have hlast := settle_lastReported l r fetch.peer result
    rw [hsettle] at hlast
    have hgone : (l'.recordOf uuid).lastReported
        = ((l.put fetch.peer.uuid { r' with deferred := none }).recordOf uuid).lastReported := by
      rw [show l' = (order, l').2 from rfl, ← hnext]
      cases r.deferred with
      | none => rfl
      | some next => exact lastReported_onAvailability next uuid
    rw [hgone, recordOf_put]
    by_cases heq : fetch.peer.uuid = uuid
    · subst heq
      rw [if_pos rfl, if_pos rfl, recordOf_of_some hrecord]
      exact hlast
    · rw [if_neg (Ne.symm heq), if_neg heq]
      rfl

theorem advances_onFetched (hwaiting : l.Waiting) (fetch : Fetch) (result : FetchResult) :
    Advances (fun _ => false) l
      ((l.onFetched fetch result).1.2, (l.onFetched fetch result).2) := by
  have hends := hearsEnd_onFetched l fetch result
  generalize l.onFetched fetch result = ended at hends
  cases hends with
  | stale hstale => exact .refl hwaiting
  | @current r r' found order l' hrecord hepoch hsettle hnext =>
    obtain ⟨hepoch', -⟩ := settle_keeps l r fetch.peer result
    rw [hsettle] at hepoch'
    have hput : Advances (fun _ => false) l
        (none, l.put fetch.peer.uuid { r' with deferred := none }) := by
      refine @advances_put l _ fetch.peer.uuid _ _ _ hwaiting ?_ (fun _ _ => rfl)
        (fun _ h => nomatch h) (Nat.le_refl _) (fun _ h => nomatch h)
      simpa [recordOf_of_some hrecord] using hepoch'
    show Advances _ l (order, l')
    rw [← hnext]
    cases hwaits : r.deferred with
    | none => exact hput
    | some next =>
      have hcame : next.available = true :=
        (hwaiting fetch.peer.uuid next (by rw [recordOf_of_some hrecord, hwaits])).1
      have hheard := advances_onAvailability hput.waiting next
      simp only [hcame, Bool.not_true, Bool.false_and] at hheard
      exact hput.trans hheard rfl

end BeaconMesh.Notification.EventLoop
