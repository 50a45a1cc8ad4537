import BeaconMesh.Proofs.Notification.Reports

/-!
What is known of a peer, beside its fetches that have not ended and the events with which it has
come since they began. An event that is heard, and the end of a fetch, keep the three in agreement.
-/

set_option autoImplicit false
set_option relaxedAutoImplicit false

namespace BeaconMesh.Notification.EventLoop

def Cause.arrival? (cause : Cause) (uuid : String) : Option PeerAvailability :=
  match cause with
  | .heard peer => if peer.available && peer.uuid == uuid then some peer else none
  | _ => none

/-- The events with which the peer of a fetch has come since the fetch began. -/
def arrivals (fetch : Fetch) (moments : List Moment) : List PeerAvailability :=
  (moments.takeWhile fun m => decide (m.begun ≠ some fetch)).filterMap
    fun m => m.cause.arrival? fetch.peer.uuid

def fetchesOf (uuid : String) (tasks : List Task) : List Fetch :=
  (tasks.map Task.fetch).filter fun f => f.peer.uuid == uuid

variable {r : PeerRecord} {fetches fetches' : List Fetch} {m : Moment} {moments : List Moment}
  {uuid : String}

theorem mem_fetchesOf {tasks : List Task} {f : Fetch} :
    f ∈ fetchesOf uuid tasks ↔ (∃ t ∈ tasks, t.fetch = f) ∧ f.peer.uuid = uuid := by
  simp [fetchesOf]

theorem arrivals_cons {fetch : Fetch} (hbegun : m.begun ≠ some fetch) (moments : List Moment) :
    arrivals fetch (m :: moments)
      = (m.cause.arrival? fetch.peer.uuid).toList ++ arrivals fetch moments := by
  rw [arrivals, List.takeWhile_cons_of_pos (by simpa using hbegun), List.filterMap_cons, arrivals]
  cases m.cause.arrival? fetch.peer.uuid with
  | none => rfl
  | some peer => rfl

theorem arrivals_cons_begun {fetch : Fetch} (hbegun : m.begun = some fetch)
    (moments : List Moment) : arrivals fetch (m :: moments) = [] := by
  rw [arrivals, List.takeWhile_cons_of_neg (by simp [hbegun]), List.filterMap_nil]

/-- What is known of a peer agrees with its fetches that have not ended. At most one of them is of
the present; it is of a higher generation than any fetched before, and whatever has come since it
began is either old or no newer than what waits for it. -/
structure Minded (r : PeerRecord) (fetches : List Fetch) (moments : List Moment) : Prop where
  past : ∀ f ∈ fetches, f.epoch ≤ r.epoch
  fetching : ∀ number, r.fetching = some number ↔
    ∃ f ∈ fetches, f.epoch = r.epoch ∧ f.number = number
  waits : r.deferred.isSome = true → r.fetching.isSome = true
  ahead : ∀ f ∈ fetches, f.epoch = r.epoch →
    ∀ last, r.lastFetched = some last → last < f.peer.generation
  came : ∀ f ∈ fetches, f.epoch = r.epoch →
    ∀ newest, r.deferred = some newest → newest ∈ arrivals f moments
  newest : ∀ f ∈ fetches, f.epoch = r.epoch → ∀ p ∈ arrivals f moments,
    (∃ last, r.lastFetched = some last ∧ p.generation ≤ last) ∨
      ∃ newest, r.deferred = some newest ∧ p.generation ≤ newest.generation

theorem minded_idle (hpast : ∀ f ∈ fetches, f.epoch < r.epoch) (hidle : r.fetching = none)
    (hdeferred : r.deferred = none) (moments : List Moment) : Minded r fetches moments where
  past := fun f hf => Nat.le_of_lt (hpast f hf)
  fetching := by
    intro number
    constructor
    · intro hnumber
      exact nomatch hidle.symm.trans hnumber
    · rintro ⟨f, hf, hepoch, -⟩
      exact absurd hepoch (Nat.ne_of_lt (hpast f hf))
  waits := by simp [hdeferred]
  ahead := fun f hf hepoch => absurd hepoch (Nat.ne_of_lt (hpast f hf))
  came := fun f hf hepoch => absurd hepoch (Nat.ne_of_lt (hpast f hf))
  newest := fun f hf hepoch => absurd hepoch (Nat.ne_of_lt (hpast f hf))

theorem Minded.lt_of_idle (hm : Minded r fetches moments) (hidle : r.fetching = none) :
    ∀ f ∈ fetches, f.epoch < r.epoch := by
  intro f hf
  refine Nat.lt_of_le_of_ne (hm.past f hf) ?_
  intro hepoch
  exact nomatch hidle.symm.trans ((hm.fetching f.number).mpr ⟨f, hf, hepoch, rfl⟩)

theorem Minded.deferred_of_idle (hm : Minded r fetches moments) (hidle : r.fetching = none) :
    r.deferred = none := by
  by_contra hwaits
  have hbusy := hm.waits (Option.isSome_iff_ne_none.mpr hwaits)
  simp [hidle] at hbusy

theorem minded_begun {f : Fetch} (hpast : ∀ f ∈ fetches, f.epoch < r.epoch)
    (hdeferred : r.deferred = none) (hepoch : f.epoch = r.epoch)
    (hnew : ∀ last, r.lastFetched = some last → last < f.peer.generation)
    (hfetches : ∀ f', f' ∈ fetches' ↔ f' ∈ fetches ∨ f' = f) (hbegun : m.begun = some f) :
    Minded { r with fetching := some f.number } fetches' (m :: moments) := by
  have honly : ∀ f' ∈ fetches', f'.epoch = r.epoch → f' = f := by
    intro f' hf' hepoch'
    rcases (hfetches f').mp hf' with hold | rfl
    · exact absurd hepoch' (Nat.ne_of_lt (hpast f' hold))
    · rfl
  refine ⟨?_, ?_, fun _ => rfl, ?_, ?_, ?_⟩
  · intro f' hf'
    rcases (hfetches f').mp hf' with hold | rfl
    · exact Nat.le_of_lt (hpast f' hold)
    · exact Nat.le_of_eq hepoch
  · intro number
    constructor
    · rintro ⟨⟩
      exact ⟨f, (hfetches f).mpr (.inr rfl), hepoch, rfl⟩
    · rintro ⟨f', hf', hepoch', rfl⟩
      rw [honly f' hf' hepoch']
  · intro f' hf' hepoch'
    rw [honly f' hf' hepoch']
    exact hnew
  · intro f' hf' hepoch' newest hnewest
    exact nomatch hdeferred.symm.trans hnewest
  · intro f' hf' hepoch' p hp
    rw [honly f' hf' hepoch', arrivals_cons_begun hbegun] at hp
    exact nomatch hp

theorem Minded.quiet (hm : Minded r fetches moments) (hbegun : ∀ f ∈ fetches, m.begun ≠ some f)
    (harrival : ∀ f ∈ fetches, m.cause.arrival? f.peer.uuid = none) :
    Minded r fetches (m :: moments) := by
  have hsame : ∀ f ∈ fetches, arrivals f (m :: moments) = arrivals f moments := by
    intro f hf
    rw [arrivals_cons (hbegun f hf), harrival f hf]
    rfl
  refine ⟨hm.past, hm.fetching, hm.waits, hm.ahead, ?_, ?_⟩
  · intro f hf
    rw [hsame f hf]
    exact hm.came f hf
  · intro f hf
    rw [hsame f hf]
    exact hm.newest f hf

/-- Another event with which the peer comes: it may take the place of the one that waits, and if it
does not, it is old or no newer than that one. -/
theorem Minded.arrived (hm : Minded r fetches moments) {peer : PeerAvailability}
    (hbegun : m.begun = none)
    (harrival : ∀ f ∈ fetches, m.cause.arrival? f.peer.uuid = some peer)
    {deferred : Option PeerAvailability}
    (hwaits : deferred.isSome = true → r.fetching.isSome = true)
    (hcame : deferred = r.deferred ∨ deferred = some peer)
    (hpeer : (∃ last, r.lastFetched = some last ∧ peer.generation ≤ last) ∨
      ∃ newest, deferred = some newest ∧ peer.generation ≤ newest.generation)
    (hnewer : ∀ old, r.deferred = some old →
      ∃ newest, deferred = some newest ∧ old.generation ≤ newest.generation) :
    Minded { r with deferred := deferred } fetches (m :: moments) := by
  have hmore : ∀ f ∈ fetches, arrivals f (m :: moments) = peer :: arrivals f moments := by
    intro f hf
    rw [arrivals_cons (by simp [hbegun]), harrival f hf]
    rfl
  refine ⟨hm.past, hm.fetching, hwaits, hm.ahead, ?_, ?_⟩
  · intro f hf hepoch newest hnewest
    rw [hmore f hf]
    rcases hcame with hsame | hsame
    · exact List.mem_cons_of_mem _ (hm.came f hf hepoch newest (hsame.symm.trans hnewest))
    · rw [Option.some.inj (hnewest.symm.trans hsame)]
      exact List.mem_cons_self
  · intro f hf hepoch p hp
    rw [hmore f hf] at hp
    rcases List.mem_cons.mp hp with rfl | hp
    · exact hpeer
    · rcases hm.newest f hf hepoch p hp with hold | ⟨old, hdeferred, hle⟩
      · exact .inl hold
      · obtain ⟨newest, hnewest, hle'⟩ := hnewer old hdeferred
        exact .inr ⟨newest, hnewest, UInt32.le_trans hle hle'⟩

theorem Minded.ofPresent (hm : Minded r fetches moments)
    (hfetches : ∀ f ∈ fetches', f ∈ fetches)
    (hpresent : ∀ f ∈ fetches, f.epoch = r.epoch → f ∈ fetches') : Minded r fetches' moments where
  past := fun f hf => hm.past f (hfetches f hf)
  fetching := by
    intro number
    rw [hm.fetching number]
    constructor
    · rintro ⟨f, hf, hepoch, hnumber⟩
      exact ⟨f, hpresent f hf hepoch, hepoch, hnumber⟩
    · rintro ⟨f, hf, hepoch, hnumber⟩
      exact ⟨f, hfetches f hf, hepoch, hnumber⟩
  waits := hm.waits
  ahead := fun f hf => hm.ahead f (hfetches f hf)
  came := fun f hf => hm.came f (hfetches f hf)
  newest := fun f hf => hm.newest f (hfetches f hf)

theorem fetchesOf_follow_abandon (uuid : String) (tasks : List Task) (number : Nat) :
    fetchesOf uuid (History.follow tasks (some (.abandon number))) = fetchesOf uuid tasks := by
  have hfetch : ∀ t : Task,
      (if t.fetch.number = number then { t with abandoned := true } else t).fetch = t.fetch := by
    intro t
    split
    · rfl
    · rfl
  simp [fetchesOf, History.follow, Function.comp_def, hfetch]

theorem mem_fetchesOf_follow {tasks : List Task} {order : Option Order} {f : Fetch} :
    f ∈ fetchesOf uuid (History.follow tasks order) ↔
      f ∈ fetchesOf uuid tasks ∨ order = some (.begin f) ∧ f.peer.uuid = uuid := by
  rcases order with _ | ⟨fetch⟩ | ⟨number⟩
  · simp [History.follow]
  · simp only [mem_fetchesOf, History.follow, List.mem_append, List.mem_singleton,
      Option.some.injEq, Order.begin.injEq]
    constructor
    · rintro ⟨⟨t, ht | rfl, rfl⟩, huuid⟩
      · exact .inl ⟨⟨t, ht, rfl⟩, huuid⟩
      · exact .inr ⟨rfl, huuid⟩
    · rintro (⟨⟨t, ht, rfl⟩, huuid⟩ | ⟨rfl, huuid⟩)
      · exact ⟨⟨t, .inl ht, rfl⟩, huuid⟩
      · exact ⟨⟨_, .inr rfl, rfl⟩, huuid⟩
  · simp [fetchesOf_follow_abandon]

theorem mem_fetchesOf_follow_begin {tasks : List Task} {f new : Fetch}
    (huuid : new.peer.uuid = uuid) :
    f ∈ fetchesOf uuid (History.follow tasks (some (.begin new))) ↔
      f ∈ fetchesOf uuid tasks ∨ f = new := by
  rw [mem_fetchesOf_follow, Option.some.injEq, Order.begin.injEq]
  constructor
  · rintro (hf | ⟨rfl, -⟩)
    · exact .inl hf
    · exact .inr rfl
  · rintro (hf | rfl)
    · exact .inl hf
    · exact .inr ⟨rfl, huuid⟩

theorem mem_follow_abandoned {tasks : List Task} {order : Option Order} {t : Task}
    (ht : t ∈ History.follow tasks order) (habandoned : t.abandoned = true) :
    (∃ t' ∈ tasks, t'.fetch = t.fetch ∧ t'.abandoned = true) ∨
      order = some (.abandon t.fetch.number) ∧ ∃ t' ∈ tasks, t'.fetch = t.fetch := by
  rcases order with _ | ⟨fetch⟩ | ⟨number⟩
  · exact .inl ⟨t, ht, rfl, habandoned⟩
  · rcases List.mem_append.mp ht with ht | ht
    · exact .inl ⟨t, ht, rfl, habandoned⟩
    · rw [List.mem_singleton.mp ht] at habandoned
      cases habandoned
  · obtain ⟨t', ht', rfl⟩ := List.mem_map.mp ht
    by_cases hnumber : t'.fetch.number = number
    · rw [if_pos hnumber, ← hnumber]
      exact .inr ⟨rfl, t', ht', rfl⟩
    · rw [if_neg hnumber] at habandoned ⊢
      exact .inl ⟨t', ht', rfl, habandoned⟩

theorem nodup_follow {l : EventLoop} {tasks : List Task} {order : Option Order}
    (hdistinct : (tasks.map fun t => t.fetch.number).Nodup)
    (hnumbered : ∀ t ∈ tasks, t.fetch.number < l.nextFetch)
    (hbegun : ∀ f, order = some (.begin f) → f.number = l.nextFetch) :
    ((History.follow tasks order).map fun t => t.fetch.number).Nodup := by
  rcases order with _ | ⟨fetch⟩ | ⟨number⟩
  · exact hdistinct
  · rw [History.follow, List.map_append, List.map_singleton, hbegun fetch rfl]
    refine List.nodup_append.mpr ⟨hdistinct, List.pairwise_singleton _ _, ?_⟩
    intro number hmem last hlast
    obtain ⟨t, ht, rfl⟩ := List.mem_map.mp hmem
    rw [List.mem_singleton.mp hlast]
    exact Nat.ne_of_lt (hnumbered t ht)
  · have hnumber : ∀ t : Task, (if t.fetch.number = number then { t with abandoned := true }
        else t).fetch.number = t.fetch.number := by
      intro t
      split
      · rfl
      · rfl
    simpa [History.follow, Function.comp_def, hnumber] using hdistinct

section hearing

variable {l : EventLoop} {peer : PeerAvailability} {next : Option Order × EventLoop}

theorem recordOf_of_hears (hears : Hears l peer next) (hne : uuid ≠ peer.uuid) :
    next.2.recordOf uuid = l.recordOf uuid := by
  cases hears with
  | unknown => rfl
  | departed => exact (recordOf_put _ _ _ _).trans (if_neg hne)
  | skipped => exact (recordOf_put _ _ _ _).trans (if_neg hne)
  | deferred => exact (recordOf_put _ _ _ _).trans (if_neg hne)
  | begun => exact (recordOf_put _ _ _ _).trans (if_neg hne)

theorem peer_of_hears (hears : Hears l peer next) {f : Fetch} (horder : next.1 = some (.begin f)) :
    f.peer = peer := by
  cases hears with
  | unknown => cases horder
  | departed => simp at horder
  | skipped => cases horder
  | deferred => cases horder
  | begun =>
    cases horder
    rfl

theorem departs_of_hears (hears : Hears l peer next) {number : Nat}
    (horder : next.1 = some (.abandon number)) :
    (l.recordOf peer.uuid).fetching = some number ∧
      (next.2.recordOf peer.uuid).epoch = (l.recordOf peer.uuid).epoch + 1 := by
  cases hears with
  | unknown => cases horder
  | @departed hgone r hrecord =>
    obtain ⟨number', hfetching, heq⟩ := Option.map_eq_some_iff.mp horder
    cases heq
    rw [recordOf_of_some hrecord, recordOf_put, if_pos rfl]
    exact ⟨hfetching, rfl⟩
  | skipped => cases horder
  | deferred => cases horder
  | begun => cases horder

/-- What a loop does about an event that had to wait, once nothing is fetched from its peer. -/
inductive Resumes (l : EventLoop) (uuid : String) (deferred : Option PeerAvailability) :
    Option Order × EventLoop → Prop
  | rested {l' : EventLoop} (hold : ∀ peer, deferred = some peer →
      ∃ last, (l.recordOf uuid).lastFetched = some last ∧ peer.generation ≤ last)
    (hrecords : ∀ other, l'.recordOf other = l.recordOf other) :
    Resumes l uuid deferred (none, l')
  | begun {l' : EventLoop} {peer : PeerAvailability} (hdeferred : deferred = some peer)
    (huuid : peer.uuid = uuid)
    (hnew : ∀ last, (l.recordOf uuid).lastFetched = some last → last < peer.generation)
    (hrecords : ∀ other, l'.recordOf other = if other = uuid then
      { l.recordOf uuid with fetching := some l.nextFetch } else l.recordOf other) :
    Resumes l uuid deferred (some (.begin ⟨l.nextFetch, (l.recordOf uuid).epoch, peer⟩), l')

theorem resumes_goOn {deferred : Option PeerAvailability}
    (hidle : (l.recordOf uuid).fetching = none)
    (hwaiting : ∀ peer, deferred = some peer → peer.available = true ∧ peer.uuid = uuid) :
    Resumes l uuid deferred (l.goOn deferred) := by
  cases deferred with
  | none =>
    refine .rested ?_ fun _ => rfl
    intro peer hpeer
    cases hpeer
  | some peer =>
    obtain ⟨hcame, rfl⟩ := hwaiting peer rfl
    have hears := hears_onAvailability l peer
    rw [goOn]
    generalize l.onAvailability peer = next at hears
    cases hears with
    | unknown hgone => exact Bool.noConfusion (hcame.symm.trans hgone)
    | departed hgone => exact Bool.noConfusion (hcame.symm.trans hgone)
    | skipped _ hold =>
      rcases hold with hold | ⟨hbusy, -⟩
      · refine .rested ?_ ?_
        · rintro peer ⟨⟩
          exact hold
        · intro other
          rw [recordOf_put]
          split
          · rename_i heq
            rw [heq]
          · rfl
      · simp [hidle] at hbusy
    | deferred _ _ hbusy => simp [hidle] at hbusy
    | begun _ hnew => exact .begun rfl rfl hnew fun other => recordOf_put _ _ _ _

theorem recordOf_of_resumes {deferred : Option PeerAvailability}
    (hresumes : Resumes l uuid deferred next) {other : String} (hne : other ≠ uuid) :
    next.2.recordOf other = l.recordOf other := by
  cases hresumes with
  | rested _ hrecords => exact hrecords other
  | begun _ _ _ hrecords => exact (hrecords other).trans (if_neg hne)

theorem peer_of_resumes {deferred : Option PeerAvailability}
    (hresumes : Resumes l uuid deferred next) {f : Fetch} (horder : next.1 = some (.begin f)) :
    f.peer.uuid = uuid := by
  cases hresumes with
  | rested => cases horder
  | begun _ huuid =>
    cases horder
    exact huuid

theorem ne_abandon_of_resumes {deferred : Option PeerAvailability}
    (hresumes : Resumes l uuid deferred next) (number : Nat) :
    next.1 ≠ some (.abandon number) := by
  cases hresumes with
  | rested => simp
  | begun => simp

theorem lastFetched_of_resumes {deferred : Option PeerAvailability}
    (hresumes : Resumes l uuid deferred next) (other : String) :
    (next.2.recordOf other).lastFetched = (l.recordOf other).lastFetched := by
  cases hresumes with
  | rested _ hrecords => rw [hrecords]
  | begun _ _ _ hrecords =>
    rw [hrecords]
    split
    · rename_i heq
      rw [heq]
    · rfl

/-- A loop in which a fetch of the present has ended, and the event that had to wait for it has not
been heard yet. -/
structure Closes (l : EventLoop) (fetch : Fetch) (result : FetchResult) (closed : EventLoop) :
    Prop where
  others : ∀ other, other ≠ fetch.peer.uuid → closed.recordOf other = l.recordOf other
  epoch : (closed.recordOf fetch.peer.uuid).epoch = (l.recordOf fetch.peer.uuid).epoch
  fetching : (closed.recordOf fetch.peer.uuid).fetching = none
  deferred : (closed.recordOf fetch.peer.uuid).deferred = none
  fetched : (closed.recordOf fetch.peer.uuid).lastFetched = if result.isOk then
    some (highest (l.recordOf fetch.peer.uuid).lastFetched fetch.peer.generation)
    else (l.recordOf fetch.peer.uuid).lastFetched

theorem closes_put {fetch : Fetch} {result : FetchResult} {found : Option Discovery}
    {r' : PeerRecord} (hrecord : l.record? fetch.peer.uuid = some r)
    (hsettle : l.settle r fetch.peer result = (found, r')) :
    Closes l fetch result (l.put fetch.peer.uuid { r' with deferred := none }) := by
  have hself := recordOf_put l fetch.peer.uuid { r' with deferred := none } fetch.peer.uuid
  rw [if_pos rfl] at hself
  obtain ⟨hepoch, -⟩ := settle_keeps l r fetch.peer result
  have hfetching := settle_fetching l r fetch.peer result
  have hfetched := settle_lastFetched l r fetch.peer result
  rw [hsettle] at hepoch hfetching hfetched
  refine ⟨fun other hne => ?_, ?_, ?_, ?_, ?_⟩
  · rw [recordOf_put, if_neg hne]
  · rw [hself, recordOf_of_some hrecord]
    exact hepoch
  · rw [hself]
    exact hfetching
  · rw [hself]
  · rw [hself, recordOf_of_some hrecord]
    exact hfetched

end hearing

theorem minded_of_others {l l' : EventLoop} {tasks : List Task} {order : Option Order}
    (hm : Minded (l.recordOf uuid) (fetchesOf uuid tasks) moments)
    (hrecord : l'.recordOf uuid = l.recordOf uuid)
    (horder : ∀ f, order = some (.begin f) → f.peer.uuid ≠ uuid)
    (hbegun : m.begun = order.bind Order.fetch?) (harrival : m.cause.arrival? uuid = none) :
    Minded (l'.recordOf uuid) (fetchesOf uuid (History.follow tasks order)) (m :: moments) := by
  have hmem : ∀ f, f ∈ fetchesOf uuid (History.follow tasks order) ↔ f ∈ fetchesOf uuid tasks := by
    intro f
    rw [mem_fetchesOf_follow]
    constructor
    · rintro (hf | ⟨hbegin, huuid⟩)
      · exact hf
      · exact absurd huuid (horder f hbegin)
    · exact .inl
  rw [hrecord]
  refine (hm.quiet ?_ ?_).ofPresent (fun f => (hmem f).mp) (fun f hf _ => (hmem f).mpr hf)
  · intro f hf hsame
    rw [hbegun] at hsame
    exact horder f (bind_fetch?.mp hsame) (mem_fetchesOf.mp hf).2
  · intro f hf
    rw [(mem_fetchesOf.mp hf).2]
    exact harrival

theorem minded_of_hears {l : EventLoop} {peer : PeerAvailability} {tasks : List Task}
    {next : Option Order × EventLoop} (hears : Hears l peer next)
    (hm : Minded (l.recordOf peer.uuid) (fetchesOf peer.uuid tasks) moments) :
    Minded (next.2.recordOf peer.uuid) (fetchesOf peer.uuid (History.follow tasks next.1))
      (⟨.heard peer, next.1.bind Order.fetch?, none⟩ :: moments) := by
  have harrival : ∀ f ∈ fetchesOf peer.uuid tasks, (Cause.heard peer).arrival? f.peer.uuid
      = if peer.available then some peer else none := by
    intro f hf
    rw [(mem_fetchesOf.mp hf).2, Cause.arrival?]
    simp
  cases hears with
  | unknown hgone hrecord =>
    refine hm.quiet (fun f _ hbegun => nomatch hbegun) fun f hf => ?_
    rw [harrival f hf, if_neg (by simp [hgone])]
  | @departed hgone r hrecord =>
    rw [recordOf_put, if_pos rfl]
    refine minded_idle ?_ rfl rfl _
    intro f hf
    have hpast := hm.past
    rw [recordOf_of_some hrecord] at hpast
    refine Nat.lt_succ_of_le (hpast f ?_)
    rcases mem_fetchesOf_follow.mp hf with hf | ⟨horder, -⟩
    · exact hf
    · simp at horder
  | skipped hcame hold =>
    rw [recordOf_put, if_pos rfl]
    refine hm.arrived rfl (fun f hf => by rw [harrival f hf, if_pos hcame]) hm.waits (.inl rfl) ?_
      fun old hdeferred => ⟨old, hdeferred, UInt32.le_refl _⟩
    rcases hold with hold | ⟨-, hwaits⟩
    · exact .inl hold
    · exact .inr hwaits
  | deferred hcame hnew hbusy hnewest =>
    rw [recordOf_put, if_pos rfl]
    exact hm.arrived rfl (fun f hf => by rw [harrival f hf, if_pos hcame]) (fun _ => hbusy)
      (.inr rfl) (.inr ⟨peer, rfl, UInt32.le_refl _⟩)
      fun old hdeferred => ⟨peer, rfl, UInt32.le_of_lt (hnewest old hdeferred)⟩
  | begun hcame hnew hidle =>
    show Minded ((l.put peer.uuid _).recordOf peer.uuid) _ _
    rw [recordOf_put, if_pos rfl]
    exact minded_begun (f := ⟨l.nextFetch, (l.recordOf peer.uuid).epoch, peer⟩)
      (hm.lt_of_idle hidle) (hm.deferred_of_idle hidle) rfl hnew
      (fun _ => mem_fetchesOf_follow_begin rfl) rfl

theorem minded_of_resumes {l : EventLoop} {tasks : List Task} {deferred : Option PeerAvailability}
    {next : Option Order × EventLoop} (hresumes : Resumes l uuid deferred next)
    (hpast : ∀ f ∈ fetchesOf uuid tasks, f.epoch < (l.recordOf uuid).epoch)
    (hidle : (l.recordOf uuid).fetching = none) (hdeferred : (l.recordOf uuid).deferred = none)
    (hbegun : m.begun = next.1.bind Order.fetch?) :
    Minded (next.2.recordOf uuid) (fetchesOf uuid (History.follow tasks next.1))
      (m :: moments) := by
  cases hresumes with
  | rested hold hrecords =>
    rw [hrecords]
    exact minded_idle hpast hidle hdeferred _
  | begun _ huuid hnew hrecords =>
    rw [hrecords, if_pos rfl]
    exact minded_begun hpast hdeferred rfl hnew (fun _ => mem_fetchesOf_follow_begin huuid) hbegun

end BeaconMesh.Notification.EventLoop
