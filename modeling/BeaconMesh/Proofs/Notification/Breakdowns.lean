import BeaconMesh.Proofs.Notification.Fetching

/-!
What becomes of a peer whose fetch breaks down. The loop is not told whose fetch it was and acts as
though it were still under way: nothing more is fetched from the peer until it has gone away.
-/

set_option autoImplicit false
set_option relaxedAutoImplicit false

namespace BeaconMesh.Notification.EventLoop

open Beacon

def Cause.breakdown? : Cause → Option Fetch
  | .ended fetch .brokeDown => some fetch
  | _ => none

def broken (moments : List Moment) : List Fetch := moments.filterMap fun m => m.cause.breakdown?

/-- A fetch keeps others from its peer: the peer has not gone since it began, and its end has not
been heard of or was a breakdown. -/
def History.Occupies (h : History) (uuid : String) (fetch : Fetch) : Prop :=
  fetch.peer.uuid = uuid ∧ goneSince fetch h.moments = false ∧
    ((∃ t ∈ h.tasks, t.fetch = fetch) ∨ fetch ∈ broken h.moments)

variable {keys : KeyPair} {book : List KeyHash} {h h' : History} {uuid : String}

theorem broken_cons_of_none {m : Moment} (hwhole : m.cause.breakdown? = none)
    (moments : List Moment) : broken (m :: moments) = broken moments :=
  List.filterMap_cons_none hwhole

theorem mem_follow_iff {tasks tasks' : List Task} {gone : List Fetch}
    (htasks : ∀ t, t ∈ tasks ↔ t ∈ tasks' ∧ t.fetch ∉ gone) {order : Option Order}
    (hnew : ∀ f, order = some (.begin f) → f ∉ gone) (t : Task) :
    t ∈ History.follow tasks order ↔ t ∈ History.follow tasks' order ∧ t.fetch ∉ gone := by
  rcases order with _ | ⟨fetch⟩ | ⟨number⟩
  · exact htasks t
  · simp only [History.follow, List.mem_append, List.mem_singleton, htasks]
    constructor
    · rintro (⟨ht, hwhole⟩ | rfl)
      · exact ⟨.inl ht, hwhole⟩
      · exact ⟨.inr rfl, hnew fetch rfl⟩
    · rintro ⟨ht | ht, hwhole⟩
      · exact .inl ⟨ht, hwhole⟩
      · exact .inr ht
  · have hfetch : ∀ t : Task,
        (if t.fetch.number = number then { t with abandoned := true } else t).fetch = t.fetch := by
      intro t
      split
      · rfl
      · rfl
    simp only [History.follow, List.mem_map, htasks]
    constructor
    · rintro ⟨t', ⟨ht', hwhole⟩, rfl⟩
      exact ⟨⟨t', ht', rfl⟩, (hfetch t').symm ▸ hwhole⟩
    · rintro ⟨⟨t', ht', rfl⟩, hwhole⟩
      exact ⟨t', ⟨ht', hfetch t' ▸ hwhole⟩, rfl⟩

theorem exists_mem_follow {tasks : List Task} {t : Task} (ht : t ∈ tasks) (order : Option Order) :
    ∃ t' ∈ History.follow tasks order, t'.fetch = t.fetch := by
  rcases order with _ | ⟨fetch⟩ | ⟨number⟩
  · exact ⟨t, ht, rfl⟩
  · exact ⟨t, List.mem_append_left _ ht, rfl⟩
  · refine ⟨_, List.mem_map_of_mem ht, ?_⟩
    split
    · rfl
    · rfl

/-- Another past of the same loop, in which those fetches are still under way that have broken down
in the first: the loop cannot tell the two apart. -/
structure Unnoticed (keys : KeyPair) (book : List KeyHash) (h h' : History) : Prop where
  faithful : Faithful keys book h'
  attentive : Attentive keys h'
  sameKeys : h.keys = keys
  loop : h'.loop = h.loop
  tasks : ∀ t, t ∈ h.tasks ↔ t ∈ h'.tasks ∧ t.fetch ∉ broken h.moments
  lasting : ∀ fetch ∈ broken h.moments, ∃ t ∈ h'.tasks, t.fetch = fetch
  gone : ∀ fetch, goneSince fetch h'.moments = goneSince fetch h.moments
  fetched : ∀ uuid, successes keys uuid h'.moments = successes keys uuid h.moments
  freed : ∀ m earlier, m :: earlier <:+ h.moments → ∀ next, m.begun = some next →
    ∀ fetch ∈ broken earlier, fetch.peer.uuid = next.peer.uuid →
      goneSince fetch (m :: earlier) = true
  rising : ∀ m earlier, m :: earlier <:+ h.moments → ∀ next, m.begun = some next →
    ∀ last ∈ successes keys next.peer.uuid (m :: earlier), last < next.peer.generation

theorem Unnoticed.not_broken (hu : Unnoticed keys book h h') {f : Fetch}
    (hnumber : f.number = h'.loop.nextFetch) : f ∉ broken h.moments := by
  intro hbroken
  obtain ⟨t, ht, rfl⟩ := hu.lasting f hbroken
  have hlt := hu.faithful.number_lt ht
  omega

theorem Faithful.present_iff (hf : Faithful keys book h) {t : Task} (ht : t ∈ h.tasks) :
    t.fetch.epoch = (h.loop.recordOf t.fetch.peer.uuid).epoch ↔
      goneSince t.fetch h.moments = false := by
  obtain ⟨r, hrecord, -, hgone⟩ := hf.epoch t ht
  rw [recordOf_of_some hrecord, ← hgone]
  exact eq_comm

theorem present_of_begun {cause : Cause} {tasks : List Task} {reported : Option Discovery}
    {next : Option Order × EventLoop} (hf : Faithful keys book (h.note cause tasks reported next))
    {f : Fetch} (horder : next.1 = some (.begin f)) :
    ∃ t ∈ (h.note cause tasks reported next).tasks, t.fetch = f ∧
      t.fetch.epoch = (next.2.recordOf t.fetch.peer.uuid).epoch := by
  have hmem : ⟨f, false⟩ ∈ (h.note cause tasks reported next).tasks := by
    show _ ∈ History.follow tasks next.1
    rw [horder]
    exact List.mem_append_right _ List.mem_cons_self
  refine ⟨⟨f, false⟩, hmem, rfl, (hf.present_iff hmem).mpr ?_⟩
  exact goneSince_cons_begun (bind_fetch?.mpr horder) _

theorem unnoticed_note (hu : Unnoticed keys book h h') {cause : Cause} {tasks tasks' : List Task}
    {reported : Option Discovery} {next : Option Order × EventLoop}
    (hwhole : cause.breakdown? = none)
    (htasks : ∀ t, t ∈ tasks ↔ t ∈ tasks' ∧ t.fetch ∉ broken h.moments)
    (hlasting : ∀ fetch ∈ broken h.moments, ∃ t ∈ tasks', t.fetch = fetch)
    (hnumber : ∀ f, next.1 = some (.begin f) → f.number = h'.loop.nextFetch)
    (hf : Faithful keys book (h'.note cause tasks' reported next))
    (ha : Attentive keys (h'.note cause tasks' reported next)) :
    Unnoticed keys book (h.note cause tasks reported next)
      (h'.note cause tasks' reported next) := by
  have hnew : ∀ f, next.1 = some (.begin f) → f ∉ broken h.moments :=
    fun f horder => hu.not_broken (hnumber f horder)
  have hbroken : broken (h.note cause tasks reported next).moments = broken h.moments :=
    broken_cons_of_none hwhole _
  have hlasts : ∀ fetch ∈ broken h.moments,
      ∃ t ∈ (h'.note cause tasks' reported next).tasks, t.fetch = fetch := by
    intro fetch hfetch
    obtain ⟨t, ht, rfl⟩ := hlasting fetch hfetch
    exact exists_mem_follow ht next.1
  have hgone : ∀ fetch, goneSince fetch (h'.note cause tasks' reported next).moments
      = goneSince fetch (h.note cause tasks reported next).moments := by
    intro fetch
    by_cases hbegun : next.1.bind Order.fetch? = some fetch
    · exact (goneSince_cons_begun hbegun _).trans (goneSince_cons_begun hbegun _).symm
    · refine (goneSince_cons hbegun _).trans (Eq.trans ?_ (goneSince_cons hbegun _).symm)
      rw [hu.gone]
  have hfetched : ∀ uuid, successes keys uuid (h'.note cause tasks' reported next).moments
      = successes keys uuid (h.note cause tasks reported next).moments := by
    intro uuid
    show (_ ++ successes keys uuid h'.moments) = _ ++ successes keys uuid h.moments
    rw [hu.fetched]
    simp only [Moment.success?, hu.gone]
  refine ⟨hf, ha, hu.sameKeys, rfl, ?_, hbroken ▸ hlasts, hgone, hfetched, ?_, ?_⟩
  · rw [hbroken]
    exact mem_follow_iff htasks hnew
  · intro m earlier hsuffix f hbegun fetch hfetch huuid
    rcases List.suffix_cons_iff.mp hsuffix with heq | hsuffix
    · cases heq
      have horder : next.1 = some (.begin f) := bind_fetch?.mp hbegun
      obtain ⟨t, ht, rfl⟩ := hlasts fetch hfetch
      obtain ⟨t', ht', rfl, hpresent'⟩ := present_of_begun hf horder
      -- there cannot be two fetches of the present, and the one that begins is of the present
      by_contra hstays
      have hstayed := (Bool.not_eq_true _).mp hstays
      have hpresent := (hf.present_iff ht).mpr ((hgone t.fetch).trans hstayed)
      have hsame := ha.eq_of_present ht ht' huuid hpresent hpresent'
      exact hnew t'.fetch horder (hsame ▸ hfetch)
    · exact hu.freed m earlier hsuffix f hbegun fetch hfetch huuid
  · intro m earlier hsuffix f hbegun
    rcases List.suffix_cons_iff.mp hsuffix with heq | hsuffix
    · cases heq
      obtain ⟨t, ht, rfl, hpresent⟩ := present_of_begun hf (bind_fetch?.mp hbegun)
      have hfetch : t.fetch ∈ fetchesOf t.fetch.peer.uuid
          (h'.note cause tasks' reported next).tasks := mem_fetchesOf.mpr ⟨⟨t, ht, rfl⟩, rfl⟩
      have hlower := ha.lt_of_last ((ha.minded t.fetch.peer.uuid).ahead t.fetch hfetch hpresent)
      rw [hfetched] at hlower
      exact hlower
    · exact hu.rising m earlier hsuffix f hbegun

theorem unnoticed_heard (hu : Unnoticed keys book h h') (peer : PeerAvailability) :
    Unnoticed keys book (h.step (.heard peer)) (h'.step (.heard peer)) := by
  have hadvances := advances_onAvailability hu.faithful.waiting peer
  have hf := faithful_step hu.faithful (.heard peer)
  have ha := attentive_heard hu.faithful hu.attentive peer
  simp only [History.step] at hf ha ⊢
  rw [hu.loop] at hf ha hadvances ⊢
  refine unnoticed_note hu rfl hu.tasks hu.lasting ?_ hf ha
  rw [hu.loop]
  exact fun f horder => (hadvances.begun f horder).1

theorem unnoticed_lagged (hu : Unnoticed keys book h h') (missed : Nat) :
    Unnoticed keys book (h.step (.lagged missed)) (h'.step (.lagged missed)) := by
  have hf := faithful_step hu.faithful (.lagged missed)
  have ha := attentive_lagged hu.attentive missed
  simp only [History.step] at hf ha ⊢
  rw [hu.loop] at hf ha ⊢
  exact unnoticed_note hu rfl hu.tasks hu.lasting (fun f horder => nomatch horder) hf ha

theorem Unnoticed.without (hu : Unnoticed keys book h h') {task : Task} (htask : task ∈ h.tasks) :
    (∀ t, t ∈ without h.tasks task.fetch ↔
      t ∈ without h'.tasks task.fetch ∧ t.fetch ∉ broken h.moments) ∧
    ∀ fetch ∈ broken h.moments, ∃ t ∈ without h'.tasks task.fetch, t.fetch = fetch := by
  obtain ⟨htask', hwhole⟩ := (hu.tasks task).mp htask
  constructor
  · intro t
    rw [EventLoop.without, EventLoop.without, List.mem_filter, List.mem_filter, hu.tasks t]
    exact and_right_comm
  · intro fetch hfetch
    obtain ⟨t, ht, rfl⟩ := hu.lasting fetch hfetch
    refine ⟨t, List.mem_filter.mpr ⟨ht, bne_iff_ne.mpr ?_⟩, rfl⟩
    intro hnumber
    rw [hu.attentive.eq_of_number ht htask' hnumber] at hfetch
    exact hwhole hfetch

theorem unnoticed_finish (hu : Unnoticed keys book h h') {task : Task} (htask : task ∈ h.tasks)
    {how : FetchEnd} (hwhole : how ≠ .brokeDown) :
    Unnoticed keys book (h.finish task how) (h'.finish task how) := by
  obtain ⟨htask', -⟩ := (hu.tasks task).mp htask
  obtain ⟨htasks, hlasting⟩ := hu.without htask
  have hf := faithful_finish hu.faithful htask' how
  have ha := attentive_finish hu.faithful hu.attentive htask' hwhole
  unfold History.finish at hf ha ⊢
  cases how with
  | brokeDown => exact absurd rfl hwhole
  | cancelled =>
    simp only at hf ha ⊢
    cases habandoned : task.abandoned with
    | false =>
      rw [if_neg Bool.false_ne_true, if_neg Bool.false_ne_true]
      exact hu
    | true =>
      simp only [habandoned, if_true, hu.loop] at hf ha ⊢
      exact unnoticed_note hu rfl htasks hlasting (fun f horder => nomatch horder) hf ha
  | gave given now =>
    have hadvances := advances_onFetched hu.faithful.waiting task.fetch (.read keys now given)
    simp only [hu.faithful.sameKeys, hu.sameKeys, hu.loop] at hf ha hadvances ⊢
    refine unnoticed_note hu rfl htasks hlasting ?_ hf ha
    rw [hu.loop]
    exact fun f horder => (hadvances.begun f horder).1

theorem unnoticed_brokeDown (hu : Unnoticed keys book h h') {task : Task}
    (htask : task ∈ h.tasks) : Unnoticed keys book (h.finish task .brokeDown) h' := by
  obtain ⟨htask', -⟩ := (hu.tasks task).mp htask
  have hbroken : broken (h.finish task .brokeDown).moments = task.fetch :: broken h.moments := rfl
  have hmem : ∀ t ∈ h'.tasks, t.fetch.number ≠ task.fetch.number ↔ t.fetch ≠ task.fetch := by
    intro t ht
    refine not_congr ⟨?_, congrArg Fetch.number⟩
    intro hnumber
    rw [hu.attentive.eq_of_number ht htask' hnumber]
  refine ⟨hu.faithful, hu.attentive, hu.sameKeys, hu.loop, ?_, ?_, ?_, ?_, ?_, ?_⟩
  · intro t
    show t ∈ without h.tasks task.fetch ↔ _
    rw [EventLoop.without, List.mem_filter, bne_iff_ne, hu.tasks t, hbroken, List.mem_cons, not_or]
    constructor
    · rintro ⟨⟨ht, hwhole⟩, hnumber⟩
      exact ⟨ht, (hmem t ht).mp hnumber, hwhole⟩
    · rintro ⟨ht, hother, hwhole⟩
      exact ⟨⟨ht, hwhole⟩, (hmem t ht).mpr hother⟩
  · intro fetch hfetch
    rcases List.mem_cons.mp (hbroken ▸ hfetch) with rfl | hfetch
    · exact ⟨task, htask', rfl⟩
    · exact hu.lasting fetch hfetch
  · intro fetch
    have hquiet : (Moment.mk (.ended task.fetch .brokeDown) none none).begun ≠ some fetch := by
      intro hbegun
      cases hbegun
    exact (hu.gone fetch).trans (goneSince_cons hquiet h.moments).symm
  · exact fun uuid => hu.fetched uuid
  · intro m earlier hsuffix f hbegun
    rcases List.suffix_cons_iff.mp hsuffix with heq | hsuffix
    · cases heq
      cases hbegun
    · exact hu.freed m earlier hsuffix f hbegun
  · intro m earlier hsuffix f hbegun
    rcases List.suffix_cons_iff.mp hsuffix with heq | hsuffix
    · cases heq
      cases hbegun
    · exact hu.rising m earlier hsuffix f hbegun

theorem unnoticed_step (hu : Unnoticed keys book h h') (s : Signal) :
    ∃ h'', Unnoticed keys book (h.step s) h'' := by
  cases s with
  | heard peer => exact ⟨_, unnoticed_heard hu peer⟩
  | lagged missed => exact ⟨_, unnoticed_lagged hu missed⟩
  | ended number how =>
    unfold History.step
    simp only
    split
    · exact ⟨h', hu⟩
    · rename_i task hfind
      have htask : task ∈ h.tasks := List.mem_of_find?_eq_some hfind
      cases how with
      | brokeDown => exact ⟨h', unnoticed_brokeDown hu htask⟩
      | cancelled => exact ⟨_, unnoticed_finish hu htask nofun⟩
      | gave given now => exact ⟨_, unnoticed_finish hu htask nofun⟩

theorem unnoticed_fresh (keys : KeyPair) (book : List KeyHash) :
    Unnoticed keys book (.fresh keys book) (.fresh keys book) where
  faithful := faithful_fresh keys book
  attentive := attentive_fresh keys book
  sameKeys := rfl
  loop := rfl
  tasks := by
    intro t
    constructor
    · intro ht
      cases ht
    · rintro ⟨ht, -⟩
      cases ht
  lasting := by
    intro fetch hfetch
    cases hfetch
  gone := fun _ => rfl
  fetched := fun _ => rfl
  freed := fun _ _ hsuffix => nomatch List.suffix_nil.mp hsuffix
  rising := fun _ _ hsuffix => nomatch List.suffix_nil.mp hsuffix

theorem unnoticed_run (hu : Unnoticed keys book h h') (signals : List Signal) :
    ∃ h'', Unnoticed keys book (h.run signals) h'' := by
  induction signals generalizing h h' with
  | nil => exact ⟨h', hu⟩
  | cons s signals ih =>
    obtain ⟨h'', hu'⟩ := unnoticed_step hu s
    exact ih hu'

/-- A peer's record names a fetch just as long as that fetch keeps others from the peer. -/
theorem Unnoticed.fetching_iff (hu : Unnoticed keys book h h') (uuid : String) (number : Nat) :
    (h.loop.recordOf uuid).fetching = some number ↔
      ∃ fetch, h.Occupies uuid fetch ∧ fetch.number = number := by
  rw [← hu.loop, (hu.attentive.minded uuid).fetching number]
  constructor
  · rintro ⟨f, hf, hepoch, hnumber⟩
    obtain ⟨⟨t, ht, rfl⟩, rfl⟩ := mem_fetchesOf.mp hf
    have hstays := (hu.faithful.present_iff ht).mp hepoch
    refine ⟨t.fetch, ⟨rfl, (hu.gone t.fetch).symm.trans hstays, ?_⟩, hnumber⟩
    by_cases hbroken : t.fetch ∈ broken h.moments
    · exact .inr hbroken
    · exact .inl ⟨t, (hu.tasks t).mpr ⟨ht, hbroken⟩, rfl⟩
  · rintro ⟨fetch, ⟨rfl, hstays, hunheard⟩, hnumber⟩
    obtain ⟨t, ht, rfl⟩ : ∃ t ∈ h'.tasks, t.fetch = fetch := by
      rcases hunheard with ⟨t, ht, rfl⟩ | hbroken
      · exact ⟨t, ((hu.tasks t).mp ht).1, rfl⟩
      · exact hu.lasting fetch hbroken
    have hepoch := (hu.faithful.present_iff ht).mpr ((hu.gone t.fetch).trans hstays)
    exact ⟨t.fetch, mem_fetchesOf.mpr ⟨⟨t, ht, rfl⟩, rfl⟩, hepoch, hnumber⟩

theorem Unnoticed.idle_iff (hu : Unnoticed keys book h h') (uuid : String) :
    (h.loop.recordOf uuid).fetching = none ↔ ∀ fetch, ¬ h.Occupies uuid fetch := by
  rw [Option.eq_none_iff_forall_ne_some]
  constructor
  · intro hidle fetch hoccupies
    exact hidle fetch.number ((hu.fetching_iff uuid fetch.number).mpr ⟨fetch, hoccupies, rfl⟩)
  · intro hfree number hnumber
    obtain ⟨fetch, hoccupies, -⟩ := (hu.fetching_iff uuid number).mp hnumber
    exact hfree fetch hoccupies

theorem Unnoticed.last (hu : Unnoticed keys book h h') (uuid : String) :
    (h.loop.recordOf uuid).lastFetched = (successes keys uuid h.moments).head? := by
  rw [← hu.loop, hu.attentive.last, hu.fetched]

/-- The fetch that has begun at the latest moment. -/
def History.latestBegun (h : History) : Option Fetch := h.moments.head?.bind Moment.begun

theorem Unnoticed.begins_iff (hu : Unnoticed keys book h h') {peer : PeerAvailability}
    (hcame : peer.available = true)
    (hnew : ∀ last, (successes keys peer.uuid h.moments).head? = some last →
      last < peer.generation) :
    (∃ fetch, (h.step (.heard peer)).latestBegun = some fetch ∧ fetch.peer = peer) ↔
      ∀ fetch, ¬ h.Occupies peer.uuid fetch := by
  rw [← hu.idle_iff]
  rw [← hu.last] at hnew
  have hears := hears_onAvailability h.loop peer
  show (∃ fetch, (h.loop.onAvailability peer).1.bind Order.fetch? = some fetch ∧ _) ↔ _
  generalize h.loop.onAvailability peer = next at hears
  cases hears with
  | unknown hgone => exact Bool.noConfusion (hcame.symm.trans hgone)
  | departed hgone => exact Bool.noConfusion (hcame.symm.trans hgone)
  | skipped _ hold =>
    rcases hold with ⟨last, hlast, hle⟩ | ⟨hbusy, -⟩
    · exact absurd (hnew last hlast) (UInt32.not_lt.mpr hle)
    · simp [Option.isSome_iff_ne_none.mp hbusy]
  | deferred _ _ hbusy => simp [Option.isSome_iff_ne_none.mp hbusy]
  | begun _ _ hidle => simp [hidle, Order.fetch?]

/-- Whatever comes to an event loop and in whatever order: a peer's record names a fetch as long as
the peer has not gone since the fetch began and its end has not been heard of or was a breakdown. An
event that brings a higher generation than any fetched begins a fetch unless there is one like that.
So once a fetch of the present has broken down, none begins from its peer until the peer has gone
away. -/
theorem begins_iff_unoccupied (keys : KeyPair) (book : List KeyHash) (signals : List Signal) :
    let h := (History.fresh keys book).run signals
    (∀ uuid number, (h.loop.recordOf uuid).fetching = some number ↔
      ∃ fetch, h.Occupies uuid fetch ∧ fetch.number = number) ∧
    (∀ peer : PeerAvailability, peer.available = true →
      (∀ last, (successes keys peer.uuid h.moments).head? = some last → last < peer.generation) →
      ((∃ fetch, (h.step (.heard peer)).latestBegun = some fetch ∧ fetch.peer = peer) ↔
        ∀ fetch, ¬ h.Occupies peer.uuid fetch)) ∧
    ∀ m earlier, m :: earlier <:+ h.moments → ∀ next, m.begun = some next →
      ∀ fetch ∈ broken earlier, fetch.peer.uuid = next.peer.uuid →
        goneSince fetch (m :: earlier) = true := by
  intro h
  obtain ⟨h', hu⟩ : ∃ h', Unnoticed keys book h h' :=
    unnoticed_run (unnoticed_fresh keys book) signals
  refine ⟨hu.fetching_iff, ?_, hu.freed⟩
  intro peer hcame hnew
  exact hu.begins_iff hcame hnew

/-- A fetch breaks down. Nothing is under way then, and the next generation is not fetched; it is
once the peer has gone and come again. -/
theorem begins_iff_unoccupied_brokeDown :
    let signals := [.heard (comerOf 1), .ended 0 .brokeDown]
    let h := (History.fresh (repeating 2) []).run signals
    let gone := h.step (.heard (comerOf 1).unavailable)
    (comerOf 2).available = true ∧ successes (repeating 2) "a" h.moments = [] ∧ h.tasks = [] ∧
    h.Occupies "a" ⟨0, 0, comerOf 1⟩ ∧ (h.loop.recordOf "a").fetching = some 0 ∧
    (¬ ∃ fetch, (h.step (.heard (comerOf 2))).latestBegun = some fetch ∧
      fetch.peer = comerOf 2) ∧
    (gone.step (.heard (comerOf 2))).latestBegun = some ⟨1, 1, comerOf 2⟩ := by
  generalize repeating 2 = keys
  intro signals h gone
  have hoccupies : h.Occupies "a" ⟨0, 0, comerOf 1⟩ := ⟨rfl, rfl, .inr List.mem_cons_self⟩
  obtain ⟨hfetching, hbegins, -⟩ := begins_iff_unoccupied keys [] signals
  refine ⟨rfl, rfl, rfl, hoccupies, (hfetching "a" 0).mpr ⟨_, hoccupies, rfl⟩, ?_, rfl⟩
  intro hbegun
  exact (hbegins (comerOf 2) rfl (fun _ hlast => nomatch hlast)).mp hbegun _ hoccupies

end BeaconMesh.Notification.EventLoop
