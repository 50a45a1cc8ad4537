import BeaconMesh.Proofs.Notification.Minding
import Mathlib.Data.List.Nodup

/-!
How an event loop fetches from a peer. There is one fetch at a time; the newest event that comes
while it is under way waits for its end, and is fetched then unless it has become old. So no
generation is fetched twice, and none is fetched after a higher one.
-/

set_option autoImplicit false
set_option relaxedAutoImplicit false

namespace BeaconMesh.Notification.EventLoop

open Beacon

/-- The generation that was fetched from a peer at a moment: what a fetch gave could be read, and
the peer had not gone since it began. -/
def Moment.success? (keys : KeyPair) (uuid : String) (m : Moment) (earlier : List Moment) :
    Option UInt32 :=
  match m.cause with
  | .ended fetch (.gave given now) =>
    if fetch.peer.uuid = uuid ∧ goneSince fetch earlier = false ∧
      (FetchResult.read keys now given).isOk = true then some fetch.peer.generation else none
  | _ => none

/-- All generations that were fetched from a peer, the latest first. -/
def successes (keys : KeyPair) (uuid : String) : List Moment → List UInt32
  | [] => []
  | m :: earlier => (m.success? keys uuid earlier).toList ++ successes keys uuid earlier

/-- If a fetch of the present succeeds at a moment, the newest event that has come since it began is
fetched from then on, provided that its generation is higher. -/
def GoesOn (keys : KeyPair) (m : Moment) (earlier : List Moment) : Prop :=
  ∀ fetch given now, m.cause = .ended fetch (.gave given now) →
    (FetchResult.read keys now given).isOk = true → goneSince fetch earlier = false →
    (∀ next, m.begun = some next →
      next.peer ∈ arrivals fetch earlier ∧ fetch.peer.generation < next.peer.generation) ∧
    ((∃ p ∈ arrivals fetch earlier, fetch.peer.generation < p.generation) →
      ∃ next, m.begun = some next ∧
        ∀ p ∈ arrivals fetch earlier, p.generation ≤ next.peer.generation)

variable {keys : KeyPair} {book : List KeyHash} {h : History} {uuid : String}

theorem goesOn_of_resumes {r : PeerRecord} {fetches : List Fetch} {moments : List Moment}
    {l : EventLoop} {fetch : Fetch} {reported : Option Discovery}
    {next : Option Order × EventLoop} {given : Except Fault (Option Bytes)} {now : Instant}
    (hm : Minded r fetches moments) (hfetch : fetch ∈ fetches) (hpresent : fetch.epoch = r.epoch)
    (hlast : (FetchResult.read keys now given).isOk = true →
      (l.recordOf uuid).lastFetched = some fetch.peer.generation)
    (hresumes : Resumes l uuid r.deferred next) :
    GoesOn keys ⟨.ended fetch (.gave given now), next.1.bind Order.fetch?, reported⟩ moments := by
  rintro fetch' given' now' ⟨⟩ hok -
  have hlast := hlast hok
  have hnewest := hm.newest fetch hfetch hpresent
  have hahead := hm.ahead fetch hfetch hpresent
  cases hresumes with
  | rested hold hrecords =>
    refine ⟨fun next hbegun => (nomatch hbegun), ?_⟩
    rintro ⟨p, hp, hhigher⟩
    -- what has come is newer than what was fetched, so that something waits and is not old
    rcases hnewest p hp with ⟨last, hfetched, hle⟩ | ⟨newest, hdeferred, hle⟩
    · exact absurd (UInt32.lt_of_lt_of_le hhigher hle)
        (UInt32.lt_asymm (hahead last hfetched))
    · obtain ⟨last, hfetched, hold⟩ := hold newest hdeferred
      cases hlast.symm.trans hfetched
      exact absurd (UInt32.le_trans hle hold) (UInt32.not_le.mpr hhigher)
  | @begun l' peer hdeferred huuid hnew hrecords =>
    have hhigher := hnew fetch.peer.generation hlast
    constructor
    · rintro next ⟨⟩
      exact ⟨hm.came fetch hfetch hpresent peer hdeferred, hhigher⟩
    · intro
      refine ⟨_, rfl, ?_⟩
      intro p hp
      rcases hnewest p hp with ⟨last, hfetched, hle⟩ | ⟨newest, hdeferred', hle⟩
      · exact UInt32.le_of_lt (UInt32.lt_of_le_of_lt hle
          (UInt32.lt_trans (hahead last hfetched) hhigher))
      · cases hdeferred.symm.trans hdeferred'
        exact hle

/-- Every peer is minded, and the past shows it. A fetch that was abandoned is of the past. -/
structure Attentive (keys : KeyPair) (h : History) : Prop where
  distinct : (h.tasks.map fun t => t.fetch.number).Nodup
  minded : ∀ uuid, Minded (h.loop.recordOf uuid) (fetchesOf uuid h.tasks) h.moments
  abandoned : ∀ t ∈ h.tasks, t.abandoned = true →
    t.fetch.epoch ≠ (h.loop.recordOf t.fetch.peer.uuid).epoch
  last : ∀ uuid, (h.loop.recordOf uuid).lastFetched = (successes keys uuid h.moments).head?
  increasing : ∀ uuid, (successes keys uuid h.moments).Pairwise (· > ·)
  onward : ∀ m earlier, m :: earlier <:+ h.moments → GoesOn keys m earlier

theorem Attentive.eq_of_number (ha : Attentive keys h) {t t' : Task} (ht : t ∈ h.tasks)
    (ht' : t' ∈ h.tasks) (hnumber : t.fetch.number = t'.fetch.number) : t = t' :=
  List.inj_on_of_nodup_map ha.distinct ht ht' hnumber

theorem Attentive.eq_of_present (ha : Attentive keys h) {t t' : Task} (ht : t ∈ h.tasks)
    (ht' : t' ∈ h.tasks) (huuid : t.fetch.peer.uuid = t'.fetch.peer.uuid)
    (hpresent : t.fetch.epoch = (h.loop.recordOf t.fetch.peer.uuid).epoch)
    (hpresent' : t'.fetch.epoch = (h.loop.recordOf t'.fetch.peer.uuid).epoch) : t = t' := by
  have hfetching : ∀ t ∈ h.tasks, t.fetch.epoch = (h.loop.recordOf t.fetch.peer.uuid).epoch →
      (h.loop.recordOf t.fetch.peer.uuid).fetching = some t.fetch.number := by
    intro t ht hepoch
    exact ((ha.minded _).fetching _).mpr
      ⟨t.fetch, mem_fetchesOf.mpr ⟨⟨t, ht, rfl⟩, rfl⟩, hepoch, rfl⟩
  have hsame := (hfetching t ht hpresent).symm
  rw [huuid, hfetching t' ht' hpresent'] at hsame
  exact ha.eq_of_number ht ht' (Option.some.inj hsame)

theorem Attentive.lt_of_last (ha : Attentive keys h) {generation : UInt32}
    (hnew : ∀ last, (h.loop.recordOf uuid).lastFetched = some last → last < generation) :
    ∀ last ∈ successes keys uuid h.moments, last < generation := by
  intro old hold
  have hsorted := ha.increasing uuid
  rw [ha.last uuid] at hnew
  -- the last one is the highest, so that it is enough to be above that one
  cases hpast : successes keys uuid h.moments with
  | nil =>
    rw [hpast] at hold
    cases hold
  | cons last past =>
    rw [hpast] at hold hsorted hnew
    rcases List.mem_cons.mp hold with rfl | hold
    · exact hnew old rfl
    · exact UInt32.lt_trans ((List.pairwise_cons.mp hsorted).1 old hold) (hnew last rfl)

theorem attentive_note (ha : Attentive keys h) {cause : Cause} {tasks : List Task}
    {reported : Option Discovery} {next : Option Order × EventLoop}
    (hdistinct : ((History.follow tasks next.1).map fun t => t.fetch.number).Nodup)
    (hminded : ∀ uuid, Minded (next.2.recordOf uuid)
      (fetchesOf uuid (History.follow tasks next.1))
      (⟨cause, next.1.bind Order.fetch?, reported⟩ :: h.moments))
    (habandoned : ∀ t ∈ History.follow tasks next.1, t.abandoned = true →
      t.fetch.epoch ≠ (next.2.recordOf t.fetch.peer.uuid).epoch)
    (hlast : ∀ uuid, (next.2.recordOf uuid).lastFetched
      = ((Moment.mk cause (next.1.bind Order.fetch?) reported).success? keys uuid h.moments).or
        (h.loop.recordOf uuid).lastFetched)
    (hnew : ∀ uuid generation, (Moment.mk cause (next.1.bind Order.fetch?) reported).success? keys
        uuid h.moments = some generation →
      ∀ last, (h.loop.recordOf uuid).lastFetched = some last → last < generation)
    (honward : GoesOn keys ⟨cause, next.1.bind Order.fetch?, reported⟩ h.moments) :
    Attentive keys (h.note cause tasks reported next) where
  distinct := hdistinct
  minded := hminded
  abandoned := habandoned
  last := by
    intro uuid
    refine (hlast uuid).trans ?_
    rw [ha.last uuid]
    show _ = (_ ++ successes keys uuid h.moments).head?
    rw [List.head?_append, Option.head?_toList]
  increasing := by
    intro uuid
    show (_ ++ successes keys uuid h.moments).Pairwise (· > ·)
    refine List.pairwise_append.mpr ⟨?_, ha.increasing uuid, ?_⟩
    · cases Moment.success? keys uuid _ h.moments with
      | none => exact .nil
      | some generation => exact List.pairwise_singleton _ _
    · intro generation hgeneration old hold
      exact ha.lt_of_last (hnew uuid generation (Option.mem_toList.mp hgeneration)) old hold
  onward := by
    intro m earlier hsuffix
    rcases List.suffix_cons_iff.mp hsuffix with heq | hsuffix
    · cases heq
      exact honward
    · exact ha.onward m earlier hsuffix

theorem attentive_note_quiet (ha : Attentive keys h) {cause : Cause} {tasks : List Task}
    {next : Option Order × EventLoop}
    (hdistinct : ((History.follow tasks next.1).map fun t => t.fetch.number).Nodup)
    (hminded : ∀ uuid, Minded (next.2.recordOf uuid)
      (fetchesOf uuid (History.follow tasks next.1))
      (⟨cause, next.1.bind Order.fetch?, none⟩ :: h.moments))
    (habandoned : ∀ t ∈ History.follow tasks next.1, t.abandoned = true →
      t.fetch.epoch ≠ (next.2.recordOf t.fetch.peer.uuid).epoch)
    (hquiet : ∀ fetch given now, cause ≠ .ended fetch (.gave given now))
    (hlast : ∀ uuid, (next.2.recordOf uuid).lastFetched = (h.loop.recordOf uuid).lastFetched) :
    Attentive keys (h.note cause tasks none next) := by
  have hnone : ∀ uuid, (Moment.mk cause (next.1.bind Order.fetch?) none).success? keys uuid
      h.moments = none := by
    intro uuid
    unfold Moment.success?
    split
    · rename_i hcause
      exact absurd hcause (hquiet _ _ _)
    · rfl
  refine attentive_note ha hdistinct hminded habandoned ?_ ?_ ?_
  · intro uuid
    rw [hlast, hnone, Option.none_or]
  · intro uuid generation hgeneration
    exact nomatch (hnone uuid).symm.trans hgeneration
  · intro fetch given now hcause
    exact absurd hcause (hquiet _ _ _)

theorem Faithful.number_lt (hf : Faithful keys book h) {t : Task} (ht : t ∈ h.tasks) :
    t.fetch.number < h.loop.nextFetch := by
  obtain ⟨m, hm, hbegun⟩ := hf.begun t ht
  exact hf.numbered m hm t.fetch hbegun

theorem epoch_ne_of_advances (hf : Faithful keys book h) {gone : String → Bool}
    {next : Option Order × EventLoop} (hadvances : Advances gone h.loop next) {t : Task}
    (ht : t ∈ h.tasks) (hstale : t.fetch.epoch ≠ (h.loop.recordOf t.fetch.peer.uuid).epoch) :
    t.fetch.epoch ≠ (next.2.recordOf t.fetch.peer.uuid).epoch := by
  obtain ⟨r, hrecord, hle, -⟩ := hf.epoch t ht
  obtain ⟨r', hrecord', hepoch⟩ := hadvances.epoch _ r hrecord
  rw [recordOf_of_some hrecord] at hstale
  rw [recordOf_of_some hrecord']
  omega

theorem attentive_heard (hf : Faithful keys book h) (ha : Attentive keys h)
    (peer : PeerAvailability) : Attentive keys (h.step (.heard peer)) := by
  have hears := hears_onAvailability h.loop peer
  have hadvances := advances_onAvailability hf.waiting peer
  refine attentive_note_quiet ha ?_ ?_ ?_ (fun _ _ _ hcause => nomatch hcause)
    fun uuid => (outcomes_onAvailability peer uuid).1
  · exact nodup_follow ha.distinct (fun t ht => hf.number_lt ht)
      fun f horder => (hadvances.begun f horder).1
  · intro uuid
    by_cases huuid : uuid = peer.uuid
    · subst huuid
      exact minded_of_hears hears (ha.minded peer.uuid)
    · refine minded_of_others (ha.minded uuid) (recordOf_of_hears hears huuid) ?_ rfl ?_
      · intro f horder
        rw [peer_of_hears hears horder]
        exact Ne.symm huuid
      · simp [Cause.arrival?, Ne.symm huuid]
  · intro t ht habandoned
    rcases mem_follow_abandoned ht habandoned with
      ⟨t', ht', hsame, hbefore⟩ | ⟨horder, t', ht', hsame⟩
    · rw [← hsame]
      exact epoch_ne_of_advances hf hadvances ht' (ha.abandoned t' ht' hbefore)
    · -- the fetch that is abandoned is the one under way for the peer that has gone
      obtain ⟨hfetching, hepoch⟩ := departs_of_hears hears horder
      obtain ⟨f, hmem, hpresent, hnumber⟩ := ((ha.minded peer.uuid).fetching _).mp hfetching
      obtain ⟨⟨t'', ht'', rfl⟩, huuid⟩ := mem_fetchesOf.mp hmem
      rw [← hsame] at hnumber ⊢
      rw [ha.eq_of_number ht'' ht' hnumber] at huuid hpresent
      rw [huuid, hepoch, hpresent]
      exact Nat.ne_of_lt (Nat.lt_succ_self _)

theorem attentive_lagged (ha : Attentive keys h) (missed : Nat) :
    Attentive keys (h.step (.lagged missed)) := by
  refine attentive_note_quiet ha ha.distinct ?_ ha.abandoned (fun _ _ _ hcause => nomatch hcause)
    fun _ => rfl
  intro uuid
  exact minded_of_others (ha.minded uuid) rfl (fun _ horder => nomatch horder) rfl rfl

def without (tasks : List Task) (fetch : Fetch) : List Task :=
  tasks.filter fun t => t.fetch.number != fetch.number

theorem nodup_without {tasks : List Task} (hdistinct : (tasks.map fun t => t.fetch.number).Nodup)
    (fetch : Fetch) : ((without tasks fetch).map fun t => t.fetch.number).Nodup :=
  hdistinct.sublist (List.filter_sublist.map _)

theorem mem_fetchesOf_without {tasks : List Task} {fetch f : Fetch} :
    f ∈ fetchesOf uuid (without tasks fetch) ↔
      f ∈ fetchesOf uuid tasks ∧ f.number ≠ fetch.number := by
  simp only [mem_fetchesOf, without, List.mem_filter, bne_iff_ne]
  constructor
  · rintro ⟨⟨t, ⟨ht, hnumber⟩, rfl⟩, huuid⟩
    exact ⟨⟨⟨t, ht, rfl⟩, huuid⟩, hnumber⟩
  · rintro ⟨⟨⟨t, ht, rfl⟩, huuid⟩, hnumber⟩
    exact ⟨⟨t, ⟨ht, hnumber⟩, rfl⟩, huuid⟩

theorem minded_without (ha : Attentive keys h) {task : Task} (htask : task ∈ h.tasks)
    (hpast : task.fetch.peer.uuid = uuid → task.fetch.epoch ≠ (h.loop.recordOf uuid).epoch) :
    Minded (h.loop.recordOf uuid) (fetchesOf uuid (without h.tasks task.fetch)) h.moments := by
  refine (ha.minded uuid).ofPresent (fun f hf => (mem_fetchesOf_without.mp hf).1) ?_
  intro f hf hpresent
  refine mem_fetchesOf_without.mpr ⟨hf, ?_⟩
  intro hnumber
  obtain ⟨⟨t, ht, rfl⟩, huuid⟩ := mem_fetchesOf.mp hf
  rw [ha.eq_of_number ht htask hnumber] at huuid hpresent
  exact hpast huuid hpresent

theorem attentive_without (ha : Attentive keys h) {task : Task} (htask : task ∈ h.tasks)
    (hpast : task.fetch.epoch ≠ (h.loop.recordOf task.fetch.peer.uuid).epoch)
    (hgone : goneSince task.fetch h.moments = true) (how : FetchEnd) :
    Attentive keys (h.note (.ended task.fetch how) (without h.tasks task.fetch) none
      (none, h.loop)) := by
  have hnone : ∀ uuid, (Moment.mk (.ended task.fetch how) none none).success? keys uuid
      h.moments = none := by
    intro uuid
    unfold Moment.success?
    split
    · rename_i hcause
      cases hcause
      exact if_neg (by simp [hgone])
    · rfl
  refine attentive_note ha (nodup_without ha.distinct _) ?_ ?_ ?_ ?_ ?_
  · intro uuid
    refine minded_of_others (minded_without ha htask ?_) rfl (fun _ horder => nomatch horder)
      rfl rfl
    rintro rfl
    exact hpast
  · intro t ht
    exact ha.abandoned t (List.mem_filter.mp ht).1
  · intro uuid
    show _ = ((Moment.mk (.ended task.fetch how) none none).success? keys uuid h.moments).or _
    rw [hnone, Option.none_or]
  · intro uuid generation hgeneration
    exact nomatch (hnone uuid).symm.trans hgeneration
  · rintro fetch given now ⟨⟩ - hpresent
    exact nomatch hgone.symm.trans hpresent

theorem highest_of_lt {last : Option UInt32} {generation : UInt32}
    (hnew : ∀ l, last = some l → l < generation) : highest last generation = generation := by
  cases last with
  | none => rfl
  | some last => exact if_pos (UInt32.le_of_lt (hnew last rfl))

theorem lt_of_without (ha : Attentive keys h) {task : Task} (htask : task ∈ h.tasks)
    (hpresent : task.fetch.epoch = (h.loop.recordOf task.fetch.peer.uuid).epoch) :
    ∀ f ∈ fetchesOf task.fetch.peer.uuid (without h.tasks task.fetch),
      f.epoch < (h.loop.recordOf task.fetch.peer.uuid).epoch := by
  intro f hf
  obtain ⟨hmem, hnumber⟩ := mem_fetchesOf_without.mp hf
  refine Nat.lt_of_le_of_ne ((ha.minded _).past f hmem) ?_
  intro hsame
  obtain ⟨⟨t, ht, rfl⟩, huuid⟩ := mem_fetchesOf.mp hmem
  rw [ha.eq_of_present ht htask huuid (huuid ▸ hsame) hpresent] at hnumber
  exact hnumber rfl

/-- Every peer stays minded when a fetch of the present has ended and what had to wait for it has
been heard. -/
theorem minded_of_closes (ha : Attentive keys h) {task : Task} (htask : task ∈ h.tasks)
    (hpresent : task.fetch.epoch = (h.loop.recordOf task.fetch.peer.uuid).epoch)
    {result : FetchResult} {closed : EventLoop} {deferred : Option PeerAvailability}
    {next : Option Order × EventLoop} (hcloses : Closes h.loop task.fetch result closed)
    (hresumes : Resumes closed task.fetch.peer.uuid deferred next) {m : Moment}
    (hbegun : m.begun = next.1.bind Order.fetch?) (harrival : m.cause.arrival? uuid = none) :
    Minded (next.2.recordOf uuid)
      (fetchesOf uuid (History.follow (without h.tasks task.fetch) next.1)) (m :: h.moments) := by
  by_cases huuid : uuid = task.fetch.peer.uuid
  · subst huuid
    refine minded_of_resumes hresumes ?_ hcloses.fetching hcloses.deferred hbegun
    rw [hcloses.epoch]
    exact lt_of_without ha htask hpresent
  · refine minded_of_others (minded_without ha htask ?_) ?_ ?_ hbegun harrival
    · exact fun heq => absurd heq.symm huuid
    · exact (recordOf_of_resumes hresumes huuid).trans (hcloses.others uuid huuid)
    · intro f horder heq
      exact huuid (heq.symm.trans (peer_of_resumes hresumes horder))

theorem attentive_current (hf : Faithful keys book h) (ha : Attentive keys h) {task : Task}
    (htask : task ∈ h.tasks) {given : Except Fault (Option Bytes)} {now : Instant}
    {found : Option Discovery} {closed : EventLoop} {next : Option Order × EventLoop}
    (hpresent : task.fetch.epoch = (h.loop.recordOf task.fetch.peer.uuid).epoch)
    (hstays : goneSince task.fetch h.moments = false)
    (hcloses : Closes h.loop task.fetch (.read keys now given) closed)
    (hresumes : Resumes closed task.fetch.peer.uuid
      (h.loop.recordOf task.fetch.peer.uuid).deferred next)
    (hadvances : Advances (fun _ => false) h.loop next) :
    Attentive keys (h.note (.ended task.fetch (.gave given now)) (without h.tasks task.fetch) found
      next) := by
  have hfetch : task.fetch ∈ fetchesOf task.fetch.peer.uuid h.tasks :=
    mem_fetchesOf.mpr ⟨⟨task, htask, rfl⟩, rfl⟩
  have hown := ha.minded task.fetch.peer.uuid
  have hahead := hown.ahead task.fetch hfetch hpresent
  have hfetched := hcloses.fetched
  rw [highest_of_lt hahead] at hfetched
  have hsuccess : ∀ uuid, (Moment.mk (.ended task.fetch (.gave given now))
      (next.1.bind Order.fetch?) found).success? keys uuid h.moments
        = if task.fetch.peer.uuid = uuid ∧ (FetchResult.read keys now given).isOk = true then
          some task.fetch.peer.generation else none := by
    intro uuid
    simp only [Moment.success?, hstays, true_and]
  refine attentive_note ha ?_ ?_ ?_ ?_ ?_ ?_
  · exact nodup_follow (nodup_without ha.distinct _)
      (fun t ht => hf.number_lt (List.mem_filter.mp ht).1)
      fun f horder => (hadvances.begun f horder).1
  · exact fun uuid => minded_of_closes ha htask hpresent hcloses hresumes rfl rfl
  · intro t ht habandoned
    rcases mem_follow_abandoned ht habandoned with ⟨t', ht', hsame, hbefore⟩ | ⟨horder, -⟩
    · obtain ⟨hmem, -⟩ := List.mem_filter.mp ht'
      rw [← hsame]
      exact epoch_ne_of_advances hf hadvances hmem (ha.abandoned t' hmem hbefore)
    · exact absurd horder (ne_abandon_of_resumes hresumes _)
  · intro uuid
    rw [hsuccess, lastFetched_of_resumes hresumes]
    by_cases huuid : uuid = task.fetch.peer.uuid
    · subst huuid
      rw [hfetched]
      cases (FetchResult.read keys now given).isOk with
      | true => simp
      | false => simp
    · rw [hcloses.others uuid huuid, if_neg (fun hboth => huuid hboth.1.symm), Option.none_or]
  · intro uuid generation hgeneration last hlast
    rw [hsuccess] at hgeneration
    split at hgeneration
    · rename_i hboth
      cases hgeneration
      exact hahead last (hboth.1 ▸ hlast)
    · cases hgeneration
  · exact goesOn_of_resumes hown hfetch hpresent (fun hok => hfetched.trans (if_pos hok)) hresumes

theorem attentive_finish (hf : Faithful keys book h) (ha : Attentive keys h) {task : Task}
    (htask : task ∈ h.tasks) {how : FetchEnd} (hwhole : how ≠ .brokeDown) :
    Attentive keys (h.finish task how) := by
  obtain ⟨r, hrecord, -, hgone⟩ := hf.epoch task htask
  have hstale : ∀ hne : r.epoch ≠ task.fetch.epoch,
      task.fetch.epoch ≠ (h.loop.recordOf task.fetch.peer.uuid).epoch ∧
        goneSince task.fetch h.moments = true := by
    intro hne
    rw [recordOf_of_some hrecord]
    exact ⟨hne.symm, by simpa using mt hgone.mpr hne⟩
  unfold History.finish
  cases how with
  | brokeDown => exact absurd rfl hwhole
  | cancelled =>
    simp only
    split
    · rename_i habandoned
      have hne := ha.abandoned task htask habandoned
      rw [recordOf_of_some hrecord] at hne
      obtain ⟨hpast, hgone⟩ := hstale hne.symm
      exact attentive_without ha htask hpast hgone .cancelled
    · exact ha
  | gave given now =>
    have hadvances := advances_onFetched hf.waiting task.fetch (.read h.keys now given)
    have hends := hearsEnd_onFetched h.loop task.fetch (.read h.keys now given)
    simp only
    generalize h.loop.onFetched task.fetch (.read h.keys now given) = ended at hends hadvances
    cases hends with
    | stale hold =>
      obtain ⟨hpast, hgone⟩ := hstale (hold r hrecord)
      exact attentive_without ha htask hpast hgone (.gave given now)
    | current hrecord' hepoch hsettle hnext =>
      cases hrecord.symm.trans hrecord'
      have hcloses := closes_put hrecord hsettle
      have hresumes := resumes_goOn hcloses.fetching fun peer hdeferred =>
        hf.waiting task.fetch.peer.uuid peer (by rw [recordOf_of_some hrecord]; exact hdeferred)
      rw [hnext, ← recordOf_of_some hrecord] at hresumes
      rw [hf.sameKeys] at hcloses
      refine attentive_current hf ha htask ?_ (hgone.mp hepoch) hcloses hresumes hadvances
      rw [recordOf_of_some hrecord, hepoch]

theorem attentive_step (hf : Faithful keys book h) (ha : Attentive keys h) {s : Signal}
    (hwhole : ∀ number, s ≠ .ended number .brokeDown) : Attentive keys (h.step s) := by
  cases s with
  | heard peer => exact attentive_heard hf ha peer
  | lagged missed => exact attentive_lagged ha missed
  | ended number how =>
    unfold History.step
    simp only
    split
    · exact ha
    · rename_i task hfind
      refine attentive_finish hf ha (List.mem_of_find?_eq_some hfind) ?_
      rintro rfl
      exact hwhole number rfl

theorem attentive_fresh (keys : KeyPair) (book : List KeyHash) :
    Attentive keys (.fresh keys book) where
  distinct := .nil
  minded := by
    intro uuid
    refine minded_idle ?_ rfl rfl _
    intro f hf
    obtain ⟨⟨t, ht, -⟩, -⟩ := mem_fetchesOf.mp hf
    cases ht
  abandoned := fun _ ht => nomatch ht
  last := fun _ => rfl
  increasing := fun _ => .nil
  onward := fun _ _ hsuffix => nomatch List.suffix_nil.mp hsuffix

theorem attentive_run (hf : Faithful keys book h) (ha : Attentive keys h) {signals : List Signal}
    (hwhole : ∀ number, Signal.ended number .brokeDown ∉ signals) :
    Attentive keys (h.run signals) := by
  induction signals generalizing h with
  | nil => exact ha
  | cons s signals ih =>
    refine ih (faithful_step hf s) (attentive_step hf ha ?_) ?_
    · rintro number rfl
      exact hwhole number List.mem_cons_self
    · exact fun number hmem => hwhole number (List.mem_cons_of_mem s hmem)

/-- Whatever comes to an event loop and in whatever order, as long as no fetch breaks down: of each
peer at most one fetch of the present is under way, and an event waits only while there is one. When
a fetch succeeds whose peer has not gone since it began, the newest generation that has come
meanwhile is fetched at once if it is higher, and nothing is fetched otherwise. The generations that
are fetched from a peer strictly increase. -/
theorem fetches_newest (keys : KeyPair) (book : List KeyHash) (signals : List Signal)
    (hwhole : ∀ number, Signal.ended number .brokeDown ∉ signals) :
    let h := (History.fresh keys book).run signals
    (∀ t ∈ h.tasks, ∀ t' ∈ h.tasks, t.fetch.peer.uuid = t'.fetch.peer.uuid →
      t.fetch.epoch = (h.loop.recordOf t.fetch.peer.uuid).epoch →
      t'.fetch.epoch = (h.loop.recordOf t'.fetch.peer.uuid).epoch → t = t') ∧
    (∀ uuid, (h.loop.recordOf uuid).deferred.isSome = true → ∃ t ∈ h.tasks,
      t.fetch.peer.uuid = uuid ∧ t.fetch.epoch = (h.loop.recordOf uuid).epoch) ∧
    (∀ m earlier, m :: earlier <:+ h.moments → ∀ fetch given now,
      m.cause = .ended fetch (.gave given now) →
      (FetchResult.read keys now given).isOk = true → goneSince fetch earlier = false →
      (∀ next, m.begun = some next →
        next.peer ∈ arrivals fetch earlier ∧ fetch.peer.generation < next.peer.generation) ∧
      ((∃ p ∈ arrivals fetch earlier, fetch.peer.generation < p.generation) →
        ∃ next, m.begun = some next ∧
          ∀ p ∈ arrivals fetch earlier, p.generation ≤ next.peer.generation)) ∧
    ∀ uuid, (successes keys uuid h.moments).Pairwise (· > ·) := by
  intro h
  have ha : Attentive keys h :=
    attentive_run (faithful_fresh keys book) (attentive_fresh keys book) hwhole
  refine ⟨fun t ht t' ht' => ha.eq_of_present ht ht', ?_, ha.onward, ha.increasing⟩
  intro uuid hdeferred
  obtain ⟨number, hnumber⟩ := Option.isSome_iff_exists.mp ((ha.minded uuid).waits hdeferred)
  obtain ⟨f, hmem, hepoch, -⟩ := ((ha.minded uuid).fetching number).mp hnumber
  obtain ⟨⟨t, ht, rfl⟩, huuid⟩ := mem_fetchesOf.mp hmem
  exact ⟨t, ht, huuid, hepoch⟩

def comerOf (generation : UInt32) : PeerAvailability := .tcp ⟨"a", generation⟩ "10.0.0.1" 80

/-- Two newer generations come during a fetch, the higher one first: it is fetched when the first
fetch has succeeded, and nothing when the second one has. -/
theorem fetches_newest_comer :
    let signals := [.heard (comerOf 1), .heard (comerOf 3), .heard (comerOf 2),
      .ended 0 (.gave (.ok none) ⟨0⟩), .ended 1 (.gave (.ok none) ⟨0⟩)]
    let h := (History.fresh (repeating 2) []).run signals
    (∀ number, Signal.ended number .brokeDown ∉ signals) ∧
    (∃ m earlier, m :: earlier <:+ h.moments ∧
      m.cause = .ended ⟨0, 0, comerOf 1⟩ (.gave (.ok none) ⟨0⟩) ∧
      ∃ next, m.begun = some next ∧ next.peer.generation = 3) ∧
    (successes (repeating 2) "a" h.moments).Pairwise (· > ·) ∧
    successes (repeating 2) "a" h.moments = [3, 1] := by
  generalize repeating 2 = keys
  intro signals h
  have hwhole : ∀ number, Signal.ended number .brokeDown ∉ signals := by
    intro number
    simp [signals]
  obtain ⟨-, -, honward, hincreasing⟩ := fetches_newest keys [] signals hwhole
  obtain ⟨m, earlier, hsuffix, hcause, harrivals, hpresent⟩ : ∃ m earlier,
      m :: earlier <:+ h.moments ∧ m.cause = .ended ⟨0, 0, comerOf 1⟩ (.gave (.ok none) ⟨0⟩) ∧
      arrivals ⟨0, 0, comerOf 1⟩ earlier = [comerOf 2, comerOf 3] ∧
      goneSince ⟨0, 0, comerOf 1⟩ earlier = false := by
    refine ⟨_, _, List.suffix_cons _ _, rfl, ?_, ?_⟩
    · rfl
    · rfl
  obtain ⟨hnewer, hnewest⟩ := honward m earlier hsuffix _ _ _ hcause rfl hpresent
  obtain ⟨next, hbegun, hgreatest⟩ := hnewest ⟨comerOf 3, by simp [harrivals], by decide⟩
  refine ⟨hwhole, ⟨m, earlier, hsuffix, hcause, next, hbegun, ?_⟩, hincreasing "a", rfl⟩
  obtain ⟨hcame, -⟩ := hnewer next hbegun
  rw [harrivals] at hcame hgreatest
  have hhigh : (comerOf 3).generation ≤ next.peer.generation := hgreatest _ (by simp)
  rcases List.mem_pair.mp hcame with heq | heq
  · rw [heq] at hhigh
    exact absurd hhigh (by decide)
  · rw [heq]
    rfl

end BeaconMesh.Notification.EventLoop
