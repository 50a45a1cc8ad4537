import BeaconMesh.Proofs.Round.Runs
import BeaconMesh.Round.Run

/-!
Whom the half of a round that dials has in mind: nobody is dialed twice at a time or again after an
answer of success, and nobody who can be reached is forgotten. This is told by what the round learns
meanwhile: the last event about each peer, and who has answered with success to which dial.
-/

set_option autoImplicit false
set_option relaxedAutoImplicit false

namespace BeaconMesh.Round

def Event.heard? : Event → Option PeerAvailability
  | .heard peer => some peer
  | _ => none

/-- The last event about a peer. -/
def lastHeard (es : List Event) (uuid : String) : Option PeerAvailability :=
  ((es.filterMap Event.heard?).filter fun p => p.uuid == uuid).getLast?

/-- An answer of success by a participant, to the dial of a peer with this uuid. -/
structure Answer where
  dialed : String
  participant : Uuid
  deriving DecidableEq

def ClientRole.success? (r : ClientRole) (uuid : String) : Option Uuid :=
  (r.result? uuid).bind Except.toOption

namespace Run

def isDialing (r : Run) : Bool := r.result.isNone && r.succeeded.isNone

def answer? (r : Run) : Event → Option Answer
  | .concluded uuid =>
    if r.isDialing then (r.client.success? uuid).map (Answer.mk uuid) else none
  | _ => none

/-- The answers of success that these events bring to notice. -/
def answers (r : Run) : List Event → List Answer
  | [] => []
  | e :: es => (r.answer? e).toList ++ (r.step e).answers es

end Run

namespace ClientRole

variable {answered : List String} {quit quit' : QuitSignal Unit} {r r' : ClientRole}

/-- The peers that are being dialed are all different and none of them has answered; these two kinds
are the ones not to be dialed now. Every retry has a timer of its own, which runs. -/
structure Orderly (answered : List String) (quit : QuitSignal Unit) (r : ClientRole) : Prop where
  distinct : (r.attempts.map fun d => d.peer.uuid).Nodup
  apart : ∀ d ∈ r.attempts, d.peer.uuid ∉ answered
  resolving : ∀ uuid,
    uuid ∈ r.resolving ↔ uuid ∈ r.attempts.map (fun d => d.peer.uuid) ∨ uuid ∈ answered
  timers : (r.retries.map Prod.fst).Nodup
  pending : ∀ t ∈ r.retries, t.1 ∈ quit.timers ∧ t.1 < quit.nextTimer
  unraised : quit.raised = false

/-- A peer is not to be dialed now or will be dialed after a timer. -/
def Minds (r : ClientRole) (uuid : String) : Prop :=
  uuid ∈ r.resolving ∨ ∃ timer, (timer, uuid) ∈ r.retries

theorem dial_cases (r : ClientRole) (peer : PeerAvailability) :
    r.dial peer = r ∧ (peer.available = true → peer.uuid ∈ r.resolving) ∨
    peer.available = true ∧ peer.uuid ∉ r.resolving ∧ r.dial peer = { r with
      resolving := peer.uuid :: r.resolving, attempts := r.attempts ++ [⟨peer, .fresh⟩] } := by
  unfold dial
  by_cases hdials : (peer.available && !r.resolving.contains peer.uuid) = true
  · rw [if_pos hdials]
    simp only [Bool.and_eq_true, Bool.not_eq_true', List.contains_eq_mem,
      decide_eq_false_iff_not] at hdials
    exact .inr ⟨hdials.1, hdials.2, rfl⟩
  · rw [if_neg hdials]
    refine .inl ⟨rfl, fun hcame => ?_⟩
    simpa [hcame] using hdials

theorem orderly_dial (h : r.Orderly answered quit) (peer : PeerAvailability) :
    (r.dial peer).Orderly answered quit := by
  rcases dial_cases r peer with ⟨heq, -⟩ | ⟨-, hnew, heq⟩
  · rw [heq]
    exact h
  · rw [heq]
    obtain ⟨hundialed, hunanswered⟩ := not_or.mp (mt (h.resolving peer.uuid).mpr hnew)
    refine ⟨?_, ?_, ?_, h.timers, h.pending, h.unraised⟩
    · rw [List.map_append]
      refine List.nodup_append.mpr ⟨h.distinct, List.nodup_singleton _, ?_⟩
      rintro uuid huuid other hother rfl
      obtain rfl := List.mem_singleton.mp hother
      exact hundialed huuid
    · intro d hd
      rcases List.mem_append.mp hd with hd | hd
      · exact h.apart d hd
      · obtain rfl := List.mem_singleton.mp hd
        exact hunanswered
    · intro uuid
      rw [List.mem_cons, h.resolving, List.map_append, List.mem_append, List.map_singleton,
        List.mem_singleton]
      exact ⟨fun h => by tauto, fun h => by tauto⟩

theorem Minds.dial {uuid : String} (h : r.Minds uuid) (peer : PeerAvailability) :
    (r.dial peer).Minds uuid := by
  rcases dial_cases r peer with ⟨heq, -⟩ | ⟨-, -, heq⟩
  · rw [heq]
    exact h
  · rw [heq]
    exact h.imp (List.mem_cons_of_mem _) id

theorem minds_dial_self (r : ClientRole) {peer : PeerAvailability} (hcame : peer.available = true) :
    (r.dial peer).Minds peer.uuid := by
  rcases dial_cases r peer with ⟨heq, hresolving⟩ | ⟨-, -, heq⟩
  · rw [heq]
    exact .inl (hresolving hcame)
  · rw [heq]
    exact .inl List.mem_cons_self

theorem known_dial (r : ClientRole) (peer : PeerAvailability) : (r.dial peer).known = r.known := by
  rcases dial_cases r peer with ⟨heq, -⟩ | ⟨-, -, heq⟩
  · rw [heq]
  · rw [heq]

theorem orderly_start (known : Roster) (hunraised : quit.raised = false) :
    (start known).Orderly [] quit ∧ (start known).known = known ∧
      ∀ peer ∈ known, peer.available = true → (start known).Minds peer.uuid := by
  -- what has been dialed is minded whatever is dialed after it
  have hfold : ∀ (peers : Roster) (r : ClientRole), r.Orderly [] quit →
      (peers.foldl dial r).Orderly [] quit ∧ (peers.foldl dial r).known = r.known ∧
      (∀ uuid, r.Minds uuid → (peers.foldl dial r).Minds uuid) ∧
      ∀ peer ∈ peers, peer.available = true → (peers.foldl dial r).Minds peer.uuid := by
    intro peers
    induction peers with
    | nil => exact fun r h => ⟨h, rfl, fun _ h => h, fun _ hp => nomatch hp⟩
    | cons first peers ih =>
      intro r h
      obtain ⟨horderly, hknown, hminds, hreached⟩ := ih (r.dial first) (orderly_dial h first)
      refine ⟨horderly, hknown.trans (known_dial r first),
        fun uuid h => hminds uuid (h.dial first), ?_⟩
      intro peer hpeer hcame
      rcases List.mem_cons.mp hpeer with rfl | hpeer
      · exact hminds _ (minds_dial_self r hcame)
      · exact hreached peer hpeer hcame
  have hempty : Orderly [] quit ⟨known, [], [], [], [], true⟩ := by
    refine ⟨List.nodup_nil, ?_, ?_, List.nodup_nil, ?_, hunraised⟩
    · intro d hd
      cases hd
    · intro uuid
      simp
    · intro t ht
      cases ht
  obtain ⟨horderly, hknown, -, hreached⟩ := hfold known _ hempty
  exact ⟨horderly, hknown, hreached⟩

theorem orderly_notice (h : r.Orderly answered quit) (uuid : String) (f : Attempt → Attempt) :
    (r.notice uuid f).Orderly answered quit := by
  have huuids := map_uuid_notice r uuid f
  refine ⟨huuids ▸ h.distinct, ?_, huuids ▸ h.resolving, h.timers, h.pending, h.unraised⟩
  intro d hd
  have hmem : d.peer.uuid ∈ r.attempts.map fun d => d.peer.uuid :=
    huuids ▸ List.mem_map_of_mem hd
  obtain ⟨before, hbefore, heq⟩ := List.mem_map.mp hmem
  exact heq ▸ h.apart before hbefore

/-- The half that dials after a failure: the peer may be dialed again, and a timer runs for it. -/
def postpone (r : ClientRole) (timer : Nat) (uuid : String) : ClientRole :=
  { r with
    attempts := r.attempts.filter fun d => d.peer.uuid != uuid
    resolving := r.resolving.filter (· != uuid)
    retries := r.retries ++ [(timer, uuid)] }

theorem conclude_cases {uuid : String} (hconclude : r.conclude quit uuid = .ok (r', quit')) :
    (r.result? uuid = none ∧ r' = r ∧ quit' = quit) ∨
    (∃ participant, r.result? uuid = some (.ok participant) ∧ quit' = quit ∧ r' = { r with
      attempts := r.attempts.filter fun d => d.peer.uuid != uuid
      succeeded := Uuid.Set.insert participant r.succeeded }) ∨
    ∃ fault, r.result? uuid = some (.error fault) ∧ fault.isFatal = false ∧
      quit.raised = false ∧
      quit' = { quit with
        nextTimer := quit.nextTimer + 1, timers := quit.timers ++ [quit.nextTimer] } ∧
      r' = r.postpone quit.nextTimer uuid := by
  unfold conclude at hconclude
  rcases hresult : r.result? uuid with _ | fault | participant
  · simp only [hresult] at hconclude
    cases hconclude
    exact .inl ⟨rfl, rfl, rfl⟩
  · simp only [hresult] at hconclude
    split at hconclude
    · cases hconclude
    · rename_i hfatal
      unfold QuitSignal.register? at hconclude
      split at hconclude
      · cases hconclude
      · rename_i timer signal hregister
        split at hregister
        · cases hregister
        · rename_i hunraised
          cases hregister
          cases hconclude
          exact .inr (.inr ⟨fault, rfl, by simpa using hfatal, by simpa using hunraised, rfl, rfl⟩)
  · simp only [hresult] at hconclude
    cases hconclude
    exact .inr (.inl ⟨participant, rfl, rfl, rfl⟩)

theorem mem_of_result? {uuid : String} {result : Except Fault Uuid}
    (h : r.result? uuid = some result) :
    ∃ d ∈ r.attempts, d.peer.uuid = uuid ∧ d.attempt.result? = some result := by
  obtain ⟨d, hfind, hresult⟩ := Option.bind_eq_some_iff.mp h
  exact ⟨d, List.mem_of_find?_eq_some hfind, by simpa using List.find?_some hfind, hresult⟩

private theorem mem_map_uuid_filter (r : ClientRole) (uuid other : String) :
    other ∈ (r.attempts.filter fun d => d.peer.uuid != uuid).map (fun d => d.peer.uuid) ↔
      other ∈ r.attempts.map (fun d => d.peer.uuid) ∧ other ≠ uuid := by
  constructor
  · intro h
    obtain ⟨d, hd, rfl⟩ := List.mem_map.mp h
    obtain ⟨hmem, hne⟩ := List.mem_filter.mp hd
    exact ⟨List.mem_map_of_mem hmem, by simpa using hne⟩
  · rintro ⟨h, hne⟩
    obtain ⟨d, hd, rfl⟩ := List.mem_map.mp h
    exact List.mem_map_of_mem (List.mem_filter.mpr ⟨hd, by simpa using hne⟩)

theorem orderly_answered (h : r.Orderly answered quit) {uuid : String}
    (hdialed : uuid ∈ r.attempts.map fun d => d.peer.uuid) (succeeded : Uuid.Set) :
    Orderly (answered ++ [uuid]) quit { r with
      attempts := r.attempts.filter fun d => d.peer.uuid != uuid, succeeded := succeeded } := by
  refine ⟨h.distinct.sublist (List.filter_sublist.map _), ?_, ?_, h.timers, h.pending, h.unraised⟩
  · intro d hd hanswered
    obtain ⟨hmem, hne⟩ := List.mem_filter.mp hd
    rcases List.mem_append.mp hanswered with hanswered | hnow
    · exact h.apart d hmem hanswered
    · simp [List.mem_singleton.mp hnow] at hne
  · intro other
    rw [h.resolving, mem_map_uuid_filter, List.mem_append, List.mem_singleton]
    by_cases hother : other = uuid
    · subst hother
      exact ⟨fun _ => .inr (.inr rfl), fun _ => .inl hdialed⟩
    · simp [hother]

theorem orderly_postpone (h : r.Orderly answered quit) {uuid : String} (hapart : uuid ∉ answered) :
    (r.postpone quit.nextTimer uuid).Orderly answered { quit with
      nextTimer := quit.nextTimer + 1, timers := quit.timers ++ [quit.nextTimer] } := by
  refine ⟨h.distinct.sublist (List.filter_sublist.map _), ?_, ?_, ?_, ?_, h.unraised⟩
  · intro d hd
    exact h.apart d (List.mem_filter.mp hd).1
  · intro other
    show other ∈ r.resolving.filter _ ↔ other ∈ (r.attempts.filter _).map _ ∨ other ∈ answered
    rw [mem_map_uuid_filter, List.mem_filter, h.resolving]
    by_cases hother : other = uuid
    · subst hother
      simp [hapart]
    · simp [hother]
  · -- the timer's number was not given out before
    rw [postpone, List.map_append]
    refine List.nodup_append.mpr ⟨h.timers, List.nodup_singleton _, ?_⟩
    rintro timer htimer other hother rfl
    obtain rfl := List.mem_singleton.mp hother
    obtain ⟨t, ht, hnumber⟩ := List.mem_map.mp htimer
    have hlt := (h.pending t ht).2
    simp only at hnumber
    omega
  · intro t ht
    rcases List.mem_append.mp ht with ht | ht
    · exact ⟨List.mem_append_left _ (h.pending t ht).1, Nat.lt_succ_of_lt (h.pending t ht).2⟩
    · obtain rfl := List.mem_singleton.mp ht
      exact ⟨List.mem_append_right _ (List.mem_singleton_self _), Nat.lt_succ_self _⟩

theorem Minds.postpone {other : String} (h : r.Minds other) (timer : Nat) (uuid : String) :
    (r.postpone timer uuid).Minds other := by
  by_cases hother : other = uuid
  · exact .inr ⟨timer, List.mem_append_right _ (by simp [hother])⟩
  · refine h.imp ?_ ?_
    · intro hresolving
      exact List.mem_filter.mpr ⟨hresolving, by simpa using hother⟩
    · rintro ⟨timer', htimer⟩
      exact ⟨timer', List.mem_append_left _ htimer⟩

theorem orderly_conclude {uuid : String} (h : r.Orderly answered quit)
    (hconclude : r.conclude quit uuid = .ok (r', quit')) :
    r'.Orderly (answered ++ ((r.success? uuid).map fun _ => uuid).toList) quit' ∧
      r'.known = r.known ∧ ∀ other, r.Minds other → r'.Minds other := by
  rcases conclude_cases hconclude with ⟨hresult, rfl, rfl⟩ | ⟨participant, hresult, rfl, rfl⟩ |
    ⟨fault, hresult, -, hunraised, rfl, rfl⟩
  · rw [success?, hresult, Option.bind_none, Option.map_none, Option.toList_none, List.append_nil]
    exact ⟨h, rfl, fun _ hminds => hminds⟩
  · obtain ⟨d, hd, rfl, -⟩ := mem_of_result? hresult
    rw [success?, hresult]
    exact ⟨orderly_answered h (List.mem_map_of_mem hd) _, rfl, fun _ hminds => hminds⟩
  · obtain ⟨d, hd, rfl, -⟩ := mem_of_result? hresult
    have hfailed : answered ++ ((r.success? d.peer.uuid).map fun _ => d.peer.uuid).toList
        = answered := by
      rw [success?, hresult]
      exact List.append_nil _
    rw [hfailed]
    exact ⟨orderly_postpone h (h.apart d hd), rfl, fun _ hminds => hminds.postpone _ _⟩

theorem orderly_retry (h : r.Orderly answered quit) (timer : Nat) :
    (r.retry quit timer).1.Orderly answered (r.retry quit timer).2 ∧
      (r.retry quit timer).1.known = r.known ∧
      ∀ uuid peer, r.known.last? uuid = some peer → peer.available = true → r.Minds uuid →
        (r.retry quit timer).1.Minds uuid := by
  unfold retry
  split
  · exact ⟨h, rfl, fun _ _ _ _ h => h⟩
  · rename_i number dialed hfind
    obtain rfl : number = timer := by simpa using List.find?_some hfind
    have hmem := List.mem_of_find?_eq_some hfind
    -- the other retries keep their timers
    have hrest : Orderly answered (quit.deregister number)
        { r with retries := r.retries.filter fun t => t.1 != number } := by
      refine ⟨h.distinct, h.apart, h.resolving, h.timers.sublist (List.filter_sublist.map _), ?_,
        h.unraised⟩
      intro t ht
      obtain ⟨ht, hother⟩ := List.mem_filter.mp ht
      exact ⟨List.mem_filter.mpr ⟨(h.pending t ht).1, hother⟩, (h.pending t ht).2⟩
    have hminds : ∀ uuid, uuid ≠ dialed → r.Minds uuid →
        Minds { r with retries := r.retries.filter fun t => t.1 != number } uuid := by
      intro uuid hne h'
      refine h'.imp id ?_
      rintro ⟨timer, htimer⟩
      refine ⟨timer, List.mem_filter.mpr ⟨htimer, ?_⟩⟩
      rw [bne_iff_ne]
      rintro rfl
      have hsame := List.inj_on_of_nodup_map h.timers htimer hmem rfl
      exact hne (congrArg Prod.snd hsame)
    simp only
    cases hlast : r.known.last? dialed with
    | none =>
      refine ⟨hrest, rfl, ?_⟩
      intro uuid peer hpeer hcame
      refine hminds uuid ?_
      rintro rfl
      exact nomatch hlast.symm.trans hpeer
    | some next =>
      refine ⟨orderly_dial hrest next, known_dial _ next, ?_⟩
      intro uuid peer hpeer hcame h'
      by_cases hne : uuid = dialed
      · subst hne
        cases hlast.symm.trans hpeer
        have huuid : next.uuid = uuid := by simpa using List.find?_some hlast
        exact huuid ▸ minds_dial_self _ hcame
      · exact (hminds uuid hne h').dial next

end ClientRole

namespace Run

variable {answered : List String} {last : String → Option PeerAvailability} {r : Run}

theorem isDialing_iff : r.isDialing = true ↔ r.result = none ∧ r.succeeded = none := by
  simp [isDialing]

private theorem isDialing_settleClient (h : r.settleClient.isDialing = true) :
    r.settleClient = r := by
  unfold settleClient at h ⊢
  split at h
  · obtain ⟨-, hsucceeded⟩ := isDialing_iff.mp h
    cases hsucceeded
  · obtain ⟨hresult, -⟩ := isDialing_iff.mp h
    cases hresult
  · rfl

private theorem client_settleServer (r : Run) : r.settleServer.isDialing = r.isDialing ∧
    r.settleServer.client = r.client ∧ r.settleServer.quit = r.quit := by
  unfold settleServer
  split
  · exact ⟨rfl, rfl, rfl⟩
  · exact ⟨rfl, rfl, rfl⟩

private theorem isDialing_settleBoth (h : r.settleBoth.isDialing = true) : r.settleBoth = r := by
  unfold settleBoth at h ⊢
  split at h
  · obtain ⟨hresult, -⟩ := isDialing_iff.mp h
    cases hresult
  · rfl

theorem settle_of_isDialing (h : r.settle.isDialing = true) :
    r.isDialing = true ∧ r.settle.client = r.client ∧ r.settle.quit = r.quit := by
  have hboth := isDialing_settleBoth h
  obtain ⟨hdialing, hclient, hquit⟩ := client_settleServer r.settleClient
  unfold settle at h ⊢
  rw [hboth] at h ⊢
  rw [hdialing] at h
  have hsettled := isDialing_settleClient h
  rw [hsettled] at h
  exact ⟨h, hclient.trans (congrArg Run.client hsettled), hquit.trans (congrArg Run.quit hsettled)⟩

/-- The half that dials is in order, knows the last event about each peer, and has everybody in mind
who can be reached. -/
structure Dialing (answered : List String) (last : String → Option PeerAvailability) (r : Run) :
    Prop where
  orderly : r.client.Orderly answered r.quit
  known : ∀ uuid, r.client.known.last? uuid = last uuid
  minds : ∀ uuid peer, last uuid = some peer → peer.available = true → r.client.Minds uuid

theorem Dialing.congr {r' : Run} (h : r.Dialing answered last) (hclient : r'.client = r.client)
    (hquit : r'.quit = r.quit) : r'.Dialing answered last :=
  ⟨hclient ▸ hquit ▸ h.orderly, hclient ▸ h.known, hclient ▸ h.minds⟩

theorem dialing_heard (h : r.Dialing answered last) (hlive : r.isDialing = true)
    (peer : PeerAvailability) : (r.take (.heard peer)).Dialing answered
      fun uuid => ((some peer).filter fun p => p.uuid == uuid).or (last uuid) := by
  obtain ⟨-, hsucceeded⟩ := isDialing_iff.mp hlive
  rw [take, onClient_of_none hsucceeded]
  have hdial := ClientRole.orderly_dial h.orderly peer
  refine ⟨⟨hdial.distinct, hdial.apart, hdial.resolving, hdial.timers, hdial.pending,
    hdial.unraised⟩, ?_, ?_⟩
  · intro uuid
    show (r.client.known.note peer).last? uuid = _
    by_cases huuid : peer.uuid = uuid
    · subst huuid
      simp [Option.filter_some]
    · simp [Roster.last?_note_of_ne _ _ huuid, h.known, Option.filter_some, huuid]
  · intro uuid next hnext hcame
    show (r.client.dial peer).Minds uuid
    by_cases huuid : peer.uuid = uuid
    · subst huuid
      obtain rfl : peer = next := by simpa [Option.filter_some] using hnext
      exact ClientRole.minds_dial_self _ hcame
    · exact (h.minds uuid next (by simpa [Option.filter_some, huuid] using hnext) hcame).dial peer

theorem dialing_concluded (h : r.Dialing answered last) (hlive : r.isDialing = true) {uuid : String}
    (hnext : (r.take (.concluded uuid)).isDialing = true) : (r.take (.concluded uuid)).Dialing
      (answered ++ ((r.client.success? uuid).map fun _ => uuid).toList) last := by
  obtain ⟨-, hsucceeded⟩ := isDialing_iff.mp hlive
  rw [take, conclude, hsucceeded, if_neg (by simp)] at hnext ⊢
  cases hconclude : r.client.conclude r.quit uuid with
  | error fault =>
    rw [hconclude] at hnext
    obtain ⟨hresult, -⟩ := isDialing_iff.mp hnext
    cases hresult
  | ok next =>
    obtain ⟨horderly, hknown, hminds⟩ := ClientRole.orderly_conclude h.orderly hconclude
    refine ⟨horderly, fun other => ?_, ?_⟩
    · show next.1.known.last? other = last other
      rw [hknown, h.known]
    · intro other peer hpeer hcame
      exact hminds other (h.minds other peer hpeer hcame)

theorem dialing_retried (h : r.Dialing answered last) (hlive : r.isDialing = true) (timer : Nat) :
    (r.take (.retried timer)).Dialing answered last := by
  obtain ⟨-, hsucceeded⟩ := isDialing_iff.mp hlive
  rw [take, onClient_of_none hsucceeded]
  obtain ⟨horderly, hknown, hminds⟩ := ClientRole.orderly_retry h.orderly timer
  refine ⟨horderly, fun uuid => ?_, ?_⟩
  · show (r.client.retry r.quit timer).1.known.last? uuid = last uuid
    rw [hknown, h.known]
  · intro uuid peer hpeer hcame
    exact hminds uuid peer ((h.known uuid).trans hpeer) hcame (h.minds uuid peer hpeer hcame)

theorem dialing_onServer (h : r.Dialing answered last) (f : ServerRole → ServerRole) :
    (r.onServer f).Dialing answered last := by
  unfold onServer
  split
  · exact h
  · exact ⟨h.orderly, h.known, h.minds⟩

/-- What an event makes of the half that dials, as long as that goes on. -/
theorem dialing_take (h : r.Dialing answered last) (hlive : r.isDialing = true) {e : Event}
    (hnext : (r.take e).isDialing = true) :
    (r.take e).Dialing (answered ++ ((r.answer? e).map Answer.dialed).toList)
      fun uuid => (e.heard?.filter fun p => p.uuid == uuid).or (last uuid) := by
  obtain ⟨-, hsucceeded⟩ := isDialing_iff.mp hlive
  have hquiet : answered ++ [] = answered := List.append_nil _
  cases e with
  | heard peer => exact hquiet.symm ▸ dialing_heard h hlive peer
  | lagged missed => exact hquiet.symm ▸ h
  | streamEnded =>
    show Dialing (answered ++ []) last _
    rw [hquiet, take, onClient_of_none hsucceeded]
    exact ⟨⟨h.orderly.distinct, h.orderly.apart, h.orderly.resolving, h.orderly.timers,
      h.orderly.pending, h.orderly.unraised⟩, h.known, h.minds⟩
  | dialed uuid n =>
    show Dialing (answered ++ []) last _
    rw [hquiet, take, onClient_of_none hsucceeded]
    have hnotice := ClientRole.orderly_notice h.orderly uuid
      fun a => a.step r.context r.code r.config.exchangeTimeout n
    exact ⟨hnotice, h.known, h.minds⟩
  | concluded uuid =>
    have hanswer : (r.answer? (.concluded uuid)).map Answer.dialed
        = (r.client.success? uuid).map fun _ => uuid := by
      rw [answer?, if_pos hlive, Option.map_map]
      rfl
    rw [hanswer]
    exact dialing_concluded h hlive hnext
  | retried timer => exact hquiet.symm ▸ dialing_retried h hlive timer
  | accepted => exact hquiet.symm ▸ dialing_onServer h _
  | served number n =>
    show Dialing (answered ++ []) last _
    rw [hquiet, take]
    exact dialing_onServer h _
  | left number =>
    show Dialing (answered ++ []) last _
    rw [hquiet, take]
    exact dialing_onServer h _
  | limitReached =>
    show Dialing (answered ++ []) last _
    rw [hquiet]
    unfold take at hnext ⊢
    simp only at hnext ⊢
    split at hnext
    · exact h
    · obtain ⟨hresult, -⟩ := isDialing_iff.mp hnext
      cases hresult

theorem succeeded_take (r : Run) (e : Event) : (r.take e).succeeded = r.succeeded := by
  have hclient : ∀ f, (r.onClient f).succeeded = r.succeeded := by
    intro f
    unfold onClient
    split <;> rfl
  have hserver : ∀ f, (r.onServer f).succeeded = r.succeeded := by
    intro f
    unfold onServer
    split <;> rfl
  cases e with
  | lagged missed => rfl
  | accepted | served | left => exact hserver _
  | concluded uuid =>
    rw [take, conclude]
    split
    · rfl
    · split <;> rfl
  | limitReached =>
    rw [take]
    split <;> rfl
  | _ => exact hclient _

theorem dialing_step (h : r.isDialing = true → r.Dialing answered last) {e : Event}
    (hnext : (r.step e).isDialing = true) :
    (r.step e).Dialing (answered ++ ((r.answer? e).map Answer.dialed).toList)
      fun uuid => (e.heard?.filter fun p => p.uuid == uuid).or (last uuid) := by
  unfold step at hnext ⊢
  by_cases hresult : r.result.isSome = true
  · rw [if_pos hresult] at hnext
    obtain ⟨hnone, -⟩ := isDialing_iff.mp hnext
    simp [hnone] at hresult
  · rw [if_neg hresult] at hnext ⊢
    obtain ⟨htaken, hclient, hquit⟩ := settle_of_isDialing hnext
    have hlive : r.isDialing = true := by
      refine isDialing_iff.mpr ⟨by simpa using hresult, ?_⟩
      rw [← succeeded_take r e]
      exact (isDialing_iff.mp htaken).2
    exact (dialing_take (h hlive) hlive htaken).congr hclient hquit

theorem lastHeard_cons (e : Event) (es : List Event) (uuid : String) :
    lastHeard (e :: es) uuid
      = (lastHeard es uuid).or (e.heard?.filter fun p => p.uuid == uuid) := by
  unfold lastHeard
  rw [List.filterMap_cons]
  cases e.heard? with
  | none => simp
  | some peer =>
    by_cases huuid : peer.uuid = uuid
    · simp [huuid, Option.filter_some, List.getLast?_cons]
    · simp [huuid, Option.filter_some]

theorem dialing_steps (h : r.isDialing = true → r.Dialing answered last) {es : List Event}
    (hnext : (r.steps es).isDialing = true) :
    (r.steps es).Dialing (answered ++ (r.answers es).map Answer.dialed)
      fun uuid => (lastHeard es uuid).or (last uuid) := by
  induction es generalizing r answered last with
  | nil => simpa [answers, steps, lastHeard] using h hnext
  | cons e es ih =>
    have hrest := ih (dialing_step h) hnext
    have hanswered : (answered ++ ((r.answer? e).map Answer.dialed).toList)
        ++ ((r.step e).answers es).map Answer.dialed
          = answered ++ (r.answers (e :: es)).map Answer.dialed := by
      rw [answers, List.map_append, List.append_assoc]
      cases r.answer? e <;> rfl
    have hlast : (fun uuid => (lastHeard es uuid).or
          ((e.heard?.filter fun p => p.uuid == uuid).or (last uuid)))
        = fun uuid => (lastHeard (e :: es) uuid).or (last uuid) := by
      funext uuid
      rw [lastHeard_cons, Option.or_assoc]
    rw [hanswered, hlast] at hrest
    exact hrest

private theorem raised_registerLimit {quit quit' : QuitSignal Unit} {config : Config}
    (h : registerLimit quit config = .ok quit') : quit'.raised = quit.raised := by
  unfold registerLimit QuitSignal.register? at h
  split at h
  · cases h
    rfl
  · split at h
    · cases h
    · rename_i hregister
      split at hregister
      · cases hregister
      · cases hregister
        cases h
        rfl

theorem start_eq_settle {context : Context} {config : Config} {known : Roster} {round : Nat}
    (hstart : start context config known round = .ok r) : ∃ code quit, quit.raised = false ∧
      r = settle ⟨context, config, round, code, quit, .start known, .start, none, none, none⟩ := by
  unfold start at hstart
  split at hstart
  · cases hstart
  · rename_i code _
    split at hstart
    · cases hstart
    · rename_i limited hlimit
      unfold QuitSignal.onRaise? at hstart
      split at hstart
      · cases hstart
      · rename_i quit hraise
        split at hraise
        · cases hraise
        · cases hraise
          cases hstart
          exact ⟨code, { limited with callbacks := limited.callbacks ++ [()] },
            raised_registerLimit hlimit, rfl⟩

theorem dialing_start {context : Context} {config : Config} {known : Roster} {round : Nat}
    (hstart : start context config known round = .ok r) (hlive : r.isDialing = true) :
    r.Dialing [] known.last? := by
  obtain ⟨code, quit, hunraised, rfl⟩ := start_eq_settle hstart
  obtain ⟨-, hclient, hquit⟩ := settle_of_isDialing hlive
  obtain ⟨horderly, hknown, hminds⟩ := ClientRole.orderly_start known hunraised
  refine Dialing.congr ⟨horderly, ?_, ?_⟩ hclient hquit
  · intro uuid
    show (ClientRole.start known).known.last? uuid = known.last? uuid
    rw [hknown]
  · intro uuid peer hpeer hcame
    have huuid : peer.uuid = uuid := by simpa using List.find?_some hpeer
    exact huuid ▸ hminds peer (List.mem_of_find?_eq_some hpeer) hcame

/-- As long as the half of a round that dials goes on, whatever happens and in whatever order:
nobody is dialed twice at a time, and nobody again who has answered with success; what is known of a
peer is the last event about it; and every peer that can be reached by that is being dialed, has
answered, or will be dialed after a timer that runs. -/
theorem dialing_complete {context : Context} {config : Config} {known : Roster} {round : Nat}
    {r₀ : Run} (hstart : start context config known round = .ok r₀) (es : List Event)
    (hresult : (r₀.steps es).result = none) (hsucceeded : (r₀.steps es).succeeded = none) :
    let r := r₀.steps es
    let dialed := r.client.attempts.map fun d => d.peer.uuid
    let answered := (r₀.answers es).map Answer.dialed
    (dialed.Nodup ∧ ∀ uuid ∈ dialed, uuid ∉ answered) ∧
    (∀ uuid, r.client.known.last? uuid = (lastHeard es uuid).or (known.last? uuid)) ∧
    ∀ uuid peer, (lastHeard es uuid).or (known.last? uuid) = some peer → peer.available = true →
      uuid ∈ dialed ∨ uuid ∈ answered ∨
        ∃ timer, (timer, uuid) ∈ r.client.retries ∧ timer ∈ r.quit.timers ∧
          r.quit.raised = false := by
  intro r dialed answered
  have hlive : r.isDialing = true := isDialing_iff.mpr ⟨hresult, hsucceeded⟩
  have h : r.Dialing answered fun uuid => (lastHeard es uuid).or (known.last? uuid) :=
    dialing_steps (dialing_start hstart) hlive
  refine ⟨⟨h.orderly.distinct, ?_⟩, h.known, ?_⟩
  · intro uuid huuid
    obtain ⟨d, hd, rfl⟩ := List.mem_map.mp huuid
    exact h.orderly.apart d hd
  · intro uuid peer hpeer hcame
    rcases h.minds uuid peer hpeer hcame with hresolving | ⟨timer, htimer⟩
    · exact ((h.orderly.resolving uuid).mp hresolving).imp id .inl
    · exact .inr (.inr ⟨timer, htimer, (h.orderly.pending _ htimer).1, h.orderly.unraised⟩)

def named (b : UInt8) : Uuid := ⟨⟨List.replicate 16 b, by simp⟩⟩

def refusal : List Event :=
  [.heard (.tcp ⟨"second", 0⟩ "host" 1), .dialed "second" (.failed "refused"), .concluded "second"]

/-- A peer that has refused is dialed again after a timer. -/
theorem dialing_complete_refusal : ∃ r₀,
    start (.of (named 1) [named 2] 3) .fast [] 0 = .ok r₀ ∧
    (r₀.steps refusal).result = none ∧ (r₀.steps refusal).succeeded = none ∧
    (r₀.steps refusal).client.attempts.map (fun d => d.peer.uuid) = [] ∧
    ∃ timer, (timer, "second") ∈ (r₀.steps refusal).client.retries ∧
      timer ∈ (r₀.steps refusal).quit.timers := by
  obtain ⟨r₀, hstart, hlive, hdialed, hanswered⟩ : ∃ r₀,
      start (.of (named 1) [named 2] 3) .fast [] 0 = .ok r₀ ∧
      (r₀.steps refusal).isDialing = true ∧
      (r₀.steps refusal).client.attempts.map (fun d => d.peer.uuid) = [] ∧
      r₀.answers refusal = [] :=
    ⟨_, rfl, by decide +kernel, by decide +kernel, by decide +kernel⟩
  obtain ⟨hresult, hsucceeded⟩ := isDialing_iff.mp hlive
  refine ⟨r₀, hstart, hresult, hsucceeded, hdialed, ?_⟩
  obtain ⟨-, -, hminds⟩ := dialing_complete hstart refusal hresult hsucceeded
  have hheard : lastHeard refusal "second" = some (.tcp ⟨"second", 0⟩ "host" 1) := by
    decide +kernel
  rcases hminds "second" _ (by rw [hheard, Option.some_or]) rfl
    with hmem | hmem | ⟨timer, hretry, htimer, -⟩
  · rw [hdialed] at hmem
    cases hmem
  · rw [hanswered] at hmem
    cases hmem
  · exact ⟨timer, hretry, htimer⟩

end Run

end BeaconMesh.Round
