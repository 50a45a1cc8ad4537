import BeaconMesh.Proofs.Ascending
import BeaconMesh.Proofs.Round.Dialing
import BeaconMesh.Proofs.Round.Messages

/-!
What a completed round reports. Those who were counted are the other participants. Those who have
answered are too, except that an answer in the participant's own name is let through: then the
participant stands among those who have succeeded.
-/

set_option autoImplicit false
set_option relaxedAutoImplicit false

namespace BeaconMesh.Round

open Ascending (IsAscending)

namespace Context

variable {c : Context} {u : Uuid}

theorem participant_of_interpret {response : Message} (h : c.interpret response = .ok u) :
    u = response.sender ∧ u ∈ c.participants := by
  unfold interpret at h
  split_ifs at h with hsender
  split at h <;> cases h
  exact ⟨rfl, hsender⟩

theorem other_of_judge_success {request : Message} {code : UInt8}
    (h : c.judge request code = .success) : request.sender ∈ c.others := by
  unfold judge at h
  split_ifs at h with hsender _ hself _
  exact mem_others.mpr ⟨hsender, hself⟩

theorem isAscending_others {self : Uuid} {group : List Uuid} {payloadLength : Nat} :
    IsAscending Uuid.le (Context.of self group payloadLength).others :=
  (Uuid.Set.isAscending_insert self (Uuid.Set.isAscending_ofList group)).filter _

end Context

theorem Attempt.participant_of_step {c : Context} {code : UInt8} {limit : Duration} {a : Attempt}
    {n : Notice} (h : ∀ u, a.stage = .done (.ok u) → u ∈ c.participants) (u : Uuid)
    (hdone : (a.step c code limit n).stage = .done (.ok u)) : u ∈ c.participants := by
  unfold step at hdone
  split at hdone
  · exact h u hdone
  · cases hdone
  · cases hdone
  · cases hdone
  · exact h u hdone
  · rename_i received more hstage
    simp only [receive] at hdone
    split at hdone
    · cases hdone
    · have hverdict := Stage.done.inj hdone
      unfold verdict at hverdict
      split at hverdict
      · cases hverdict
      · rename_i response hread
        cases hinterpret : c.interpret response with
        | error objection =>
          rw [hinterpret] at hverdict
          cases hverdict
        | ok sender =>
          rw [hinterpret] at hverdict
          cases hverdict
          exact (Context.participant_of_interpret hinterpret).2
  · cases hdone
  · exact h u hdone

namespace Session

/-- The participant whom a session counts or will count. -/
def names? (s : Session) : Option Uuid :=
  match s.stage with
  | .lingering sender => some sender
  | .done (.ok sender) => sender
  | _ => none

theorem other_of_answer {c : Context} {code : UInt8} {s : Session} {bytes : Bytes} (u : Uuid)
    (hnames : (s.answer c code bytes).names? = some u) : u ∈ c.others := by
  unfold answer at hnames
  split at hnames
  · cases hnames
  · rename_i request _
    by_cases hsuccess : c.judge request code = .success
    · simp only [hsuccess, if_true, names?, Option.some.injEq] at hnames
      exact hnames ▸ Context.other_of_judge_success hsuccess
    · simp only [hsuccess, if_false, names?] at hnames
      cases hnames

/-- Whatever comes, a session counts nobody but another participant. -/
theorem other_of_step {c : Context} {code : UInt8} {limit : Duration} {s : Session} {n : Notice}
    (h : ∀ u, s.names? = some u → u ∈ c.others) (u : Uuid)
    (hnames : (s.step c code limit n).names? = some u) : u ∈ c.others := by
  unfold step at hnames
  split at hnames
  · exact h u hnames
  · cases hnames
  · cases hnames
  · exact h u hnames
  · rename_i received more _
    unfold receive at hnames
    simp only at hnames
    split at hnames
    · cases hnames
    · exact other_of_answer u hnames
  · cases hnames
  · exact h u hnames
  · rename_i sender hstage
    refine h u ?_
    rw [names?, hstage]
    exact hnames

end Session

namespace ServerRole

theorem validated_conclude (r : ServerRole) (number : Nat) :
    (r.conclude number).validated = r.validated ∨
    ∃ s ∈ r.sessions, ∃ u, s.2.names? = some u ∧
      (r.conclude number).validated = Uuid.Set.insert u r.validated := by
  unfold conclude
  cases hresult : r.result? number with
  | none => exact .inl rfl
  | some result =>
    simp only
    split
    · rename_i participant
      obtain ⟨s, hfind, hdone⟩ := Option.bind_eq_some_iff.mp hresult
      refine .inr ⟨s, List.mem_of_find?_eq_some hfind, participant, ?_, rfl⟩
      unfold Session.result? at hdone
      split at hdone
      · rename_i hstage
        cases hdone
        rw [Session.names?, hstage]
      · cases hdone
    · exact .inl rfl

theorem verdict?_eq_some {r : ServerRole} {others validated : Uuid.Set}
    (h : r.verdict? others = some validated) :
    validated = r.validated ∧ ∀ u ∈ others, u ∈ r.validated := by
  unfold verdict? at h
  split at h
  · rename_i hall
    cases h
    refine ⟨rfl, fun u hu => ?_⟩
    simpa using List.all_eq_true.mp hall u hu
  · cases h

end ServerRole

namespace ClientRole

theorem succeeded_dial (r : ClientRole) (peer : PeerAvailability) :
    (r.dial peer).succeeded = r.succeeded := by
  rcases dial_cases r peer with ⟨heq, -⟩ | ⟨-, -, heq⟩
  · rw [heq]
  · rw [heq]

theorem succeeded_start (known : Roster) : (start known).succeeded = [] := by
  have hfold : ∀ (peers : Roster) (r : ClientRole),
      (peers.foldl dial r).succeeded = r.succeeded := by
    intro peers
    induction peers with
    | nil => exact fun r => rfl
    | cons peer peers ih => exact fun r => (ih (r.dial peer)).trans (succeeded_dial r peer)
  exact hfold known _

theorem succeeded_retry (r : ClientRole) (quit : QuitSignal Unit) (timer : Nat) :
    (r.retry quit timer).1.succeeded = r.succeeded := by
  unfold retry
  split
  · rfl
  · rename_i uuid _
    cases hlast : r.known.last? uuid with
    | none => simp [hlast]
    | some peer => simp [hlast, succeeded_dial]

theorem success?_of_conclude_error {r : ClientRole} {quit : QuitSignal Unit} {uuid : String}
    {fault : Fault} (h : r.conclude quit uuid = .error fault) : r.success? uuid = none := by
  unfold conclude at h
  rcases hresult : r.result? uuid with _ | fault' | participant
  · rw [hresult] at h
    cases h
  · rw [success?, hresult]
    rfl
  · rw [hresult] at h
    cases h

end ClientRole

namespace Run

variable {c : Context} {r : Run}

def insertAll (s : Uuid.Set) (us : List Uuid) : Uuid.Set :=
  us.foldl (fun s u => Uuid.Set.insert u s) s

theorem mem_insertAll {s : Uuid.Set} {us : List Uuid} {u : Uuid} :
    u ∈ insertAll s us ↔ u ∈ s ∨ u ∈ us := by
  induction us generalizing s with
  | nil => simp [insertAll]
  | cons first us ih =>
    rw [insertAll, List.foldl_cons, ← insertAll, ih, Uuid.Set.insert, Ascending.mem_insert,
      List.mem_cons]
    tauto

theorem isAscending_insertAll {s : Uuid.Set} (h : IsAscending Uuid.le s) (us : List Uuid) :
    IsAscending Uuid.le (insertAll s us) := by
  induction us generalizing s with
  | nil => exact h
  | cons first us ih => exact ih (Uuid.Set.isAscending_insert first h)

theorem succeeded_settle (r : Run) : r.settle.client.succeeded = r.client.succeeded := by
  have hclient : r.settleClient.client.succeeded = r.client.succeeded := by
    unfold settleClient
    split <;> rfl
  have hserver : ∀ r : Run, r.settleServer.client.succeeded = r.client.succeeded := by
    intro r
    unfold settleServer
    split <;> rfl
  have hboth : ∀ r : Run, r.settleBoth.client.succeeded = r.client.succeeded := by
    intro r
    unfold settleBoth
    split <;> rfl
  rw [settle, hboth, hserver, hclient]

theorem succeeded_conclude (hlive : r.isDialing = true) (uuid : String) :
    (r.conclude uuid).client.succeeded
      = insertAll r.client.succeeded (r.client.success? uuid).toList := by
  obtain ⟨-, hsucceeded⟩ := isDialing_iff.mp hlive
  rw [conclude, hsucceeded, if_neg (by simp)]
  cases hconclude : r.client.conclude r.quit uuid with
  | error fault =>
    rw [ClientRole.success?_of_conclude_error hconclude]
    rfl
  | ok next =>
    rcases ClientRole.conclude_cases hconclude with ⟨hresult, hnext, -⟩ |
      ⟨participant, hresult, -, hnext⟩ | ⟨fault, hresult, -, -, -, hnext⟩
    · simp only [ClientRole.success?, hresult, hnext]
      rfl
    · simp only [ClientRole.success?, hresult, hnext]
      rfl
    · simp only [ClientRole.success?, hresult, hnext]
      rfl

theorem succeeded_onClient {f : ClientRole → QuitSignal Unit → ClientRole × QuitSignal Unit}
    (hf : (f r.client r.quit).1.succeeded = r.client.succeeded) :
    (r.onClient f).client.succeeded = r.client.succeeded := by
  unfold onClient
  split
  · rfl
  · exact hf

theorem succeeded_onServer (r : Run) (f : ServerRole → ServerRole) :
    (r.onServer f).client.succeeded = r.client.succeeded := by
  unfold onServer
  split <;> rfl

theorem succeeded_step (r : Run) (e : Event) : (r.step e).client.succeeded
    = insertAll r.client.succeeded ((r.answer? e).map Answer.participant).toList := by
  by_cases hover : r.result.isSome = true
  · have hanswer : r.answer? e = none := by
      unfold answer?
      split
      · rw [if_neg]
        simp [isDialing, Option.isNone_iff_eq_none, Option.isSome_iff_ne_none.mp hover]
      · rfl
    rw [step_of_isSome hover, hanswer]
    rfl
  · rw [step, if_neg hover, succeeded_settle]
    cases e with
    | heard peer => exact succeeded_onClient (ClientRole.succeeded_dial r.client peer)
    | lagged missed => rfl
    | streamEnded => exact succeeded_onClient rfl
    | dialed uuid n => exact succeeded_onClient rfl
    | concluded uuid =>
      cases hlive : r.isDialing with
      | true =>
        rw [answer?, if_pos hlive, Option.map_map]
        refine (succeeded_conclude hlive uuid).trans ?_
        cases r.client.success? uuid <;> rfl
      | false =>
        have hsucceeded : r.succeeded.isSome = true := by
          by_contra hnone
          simp_all [isDialing]
        rw [answer?, hlive, take, conclude, if_pos hsucceeded]
        rfl
    | retried timer => exact succeeded_onClient (ClientRole.succeeded_retry _ _ _)
    | accepted => exact succeeded_onServer r _
    | served number n => exact succeeded_onServer r _
    | left number => exact succeeded_onServer r _
    | limitReached =>
      rw [take]
      split <;> rfl

theorem succeeded_steps (r : Run) (es : List Event) : (r.steps es).client.succeeded
    = insertAll r.client.succeeded ((r.answers es).map Answer.participant) := by
  induction es generalizing r with
  | nil => rfl
  | cons e es ih =>
    show ((r.step e).steps es).client.succeeded = _
    rw [ih, succeeded_step, answers, List.map_append, insertAll, insertAll, insertAll,
      List.foldl_append]
    cases r.answer? e <;> rfl

/-- What a half of the round has come to is what it counted, and that includes all others; nobody
but others is validated. -/
structure Tally (r : Run) : Prop where
  validated : ∀ u ∈ r.server.validated, u ∈ r.context.others
  ascending : IsAscending Uuid.le r.server.validated
  agreed : ∀ us, r.succeeded = some us → us = r.client.succeeded ∧ ∀ u ∈ r.context.others, u ∈ us
  seen : ∀ us, r.validated = some us → us = r.server.validated ∧ ∀ u ∈ r.context.others, u ∈ us
  reported : ∀ report, r.result = some (.ok report) →
    r.succeeded = some report.succeeded ∧ r.validated = some report.validated

theorem tally_fail (h : r.Tally) (fault : Fault) : (r.finish (.error fault)).Tally :=
  ⟨h.validated, h.ascending, h.agreed, h.seen, fun _ hreport => nomatch hreport⟩

theorem tally_settleClient (h : r.Tally) : r.settleClient.Tally := by
  unfold settleClient
  split
  · rename_i us hresult _ hverdict
    obtain ⟨rfl, hothers⟩ := ClientRole.verdict?_ok hverdict
    refine ⟨h.validated, h.ascending, ?_, h.seen, ?_⟩
    · rintro us ⟨⟩
      exact ⟨rfl, hothers⟩
    · intro report hreport
      exact nomatch hresult.symm.trans hreport
  · exact tally_fail h _
  · exact h

theorem tally_settleServer (h : r.Tally) : r.settleServer.Tally := by
  unfold settleServer
  split
  · rename_i us hresult _ hverdict
    obtain ⟨rfl, hothers⟩ := ServerRole.verdict?_eq_some hverdict
    refine ⟨h.validated, h.ascending, h.agreed, ?_, ?_⟩
    · rintro us ⟨⟩
      exact ⟨rfl, hothers⟩
    · intro report hreport
      exact nomatch hresult.symm.trans hreport
  · exact h

theorem tally_settleBoth (h : r.Tally) : r.settleBoth.Tally := by
  unfold settleBoth
  split
  · rename_i succeeded validated _ hsucceeded hvalidated
    refine ⟨h.validated, h.ascending, h.agreed, h.seen, ?_⟩
    rintro report ⟨⟩
    exact ⟨hsucceeded, hvalidated⟩
  · exact h

theorem tally_settle (h : r.Tally) : r.settle.Tally :=
  tally_settleBoth (tally_settleServer (tally_settleClient h))

theorem tally_onClient (h : r.Tally)
    (f : ClientRole → QuitSignal Unit → ClientRole × QuitSignal Unit) : (r.onClient f).Tally := by
  unfold onClient
  split
  · exact h
  · rename_i hgoing
    refine ⟨h.validated, h.ascending, ?_, h.seen, h.reported⟩
    intro us hus
    exact absurd (Option.isSome_of_eq_some hus) hgoing

theorem tally_onServer (h : r.Tally) {f : ServerRole → ServerRole}
    (hvalidated : ∀ u ∈ (f r.server).validated, u ∈ r.context.others)
    (hascending : IsAscending Uuid.le (f r.server).validated) : (r.onServer f).Tally := by
  unfold onServer
  split
  · exact h
  · rename_i hgoing
    refine ⟨hvalidated, hascending, h.agreed, ?_, h.reported⟩
    intro us hus
    exact absurd (Option.isSome_of_eq_some hus) hgoing

theorem tally_conclude (h : r.Tally) (uuid : String) : (r.conclude uuid).Tally := by
  unfold conclude
  split
  · exact h
  · rename_i hgoing
    split
    · refine ⟨h.validated, h.ascending, ?_, h.seen, h.reported⟩
      intro us hus
      exact absurd (Option.isSome_of_eq_some hus) hgoing
    · exact tally_fail h _

theorem tally_step (h : r.Tally)
    (hsessions : ∀ s ∈ r.server.sessions, ∀ u, s.2.names? = some u → u ∈ r.context.others)
    (e : Event) : (r.step e).Tally := by
  unfold step
  split
  · exact h
  · refine tally_settle ?_
    cases e with
    | lagged missed => exact h
    | concluded uuid => exact tally_conclude h uuid
    | accepted => exact tally_onServer (f := ServerRole.accept) h h.validated h.ascending
    | served number n =>
      rw [take]
      refine tally_onServer h ?_ ?_
      · exact h.validated
      · exact h.ascending
    | left number =>
      rw [take]
      refine tally_onServer h ?_ ?_
      · rcases ServerRole.validated_conclude r.server number with heq | ⟨s, hs, u, hnames, heq⟩
        · exact heq ▸ h.validated
        · intro other hother
          rw [heq] at hother
          rcases (Ascending.mem_insert Uuid.le u other _).mp hother with rfl | hother
          · exact hsessions s hs other hnames
          · exact h.validated other hother
      · rcases ServerRole.validated_conclude r.server number with heq | ⟨s, hs, u, hnames, heq⟩
        · exact heq ▸ h.ascending
        · exact heq ▸ Uuid.Set.isAscending_insert u h.ascending
    | limitReached =>
      rw [take]
      split
      · exact h
      · exact tally_fail h _
    | heard | streamEnded | dialed | retried =>
      rw [take]
      exact tally_onClient h _

/-- What a round keeps whatever is written to its participant. -/
structure Counts (c : Context) (r : Run) : Prop where
  context : r.context = c
  sound : r.Sound (fun _ a => ∀ u, a.stage = .done (.ok u) → u ∈ c.participants)
    (fun _ s => ∀ u, s.names? = some u → u ∈ c.others) (· ∈ c.participants)
  tally : r.Tally

theorem counts_step (h : r.Counts c) (e : Event) : (r.step e).Counts c := by
  obtain ⟨rfl, hsound, htally⟩ := h
  refine ⟨(continues_step r e).context, ?_, tally_step htally hsound.server.sessions e⟩
  refine sound_step hsound ?_ ?_ (fun uuid a u ha hdone => ha u hdone) ?_ ?_ e
  · intro uuid u hdone
    cases hdone
  · intro number u hnames
    cases hnames
  · intro uuid a n ha
    exact Attempt.participant_of_step ha
  · intro number s n hs
    exact Session.other_of_step hs

theorem counts_steps (h : r.Counts c) (es : List Event) : (r.steps es).Counts c := by
  induction es generalizing r with
  | nil => exact h
  | cons e es ih => exact ih (counts_step h e)

theorem counts_start {config : Config} {known : Roster} {round : Nat}
    (hstart : start c config known round = .ok r) :
    r.Counts c ∧ r.round = round ∧ r.client.succeeded = [] := by
  obtain ⟨hcontext, hround, -⟩ := start_ok hstart
  have hfresh : ∀ (uuid : String) (u : Uuid), Attempt.fresh.stage = .done (.ok u) →
      u ∈ c.participants := by
    intro uuid u hdone
    cases hdone
  have hsound : r.Sound (fun _ a => ∀ u, a.stage = .done (.ok u) → u ∈ c.participants)
      (fun _ s => ∀ u, s.names? = some u → u ∈ c.others) (· ∈ c.participants) :=
    sound_start hstart hfresh
  obtain ⟨code, quit, -, rfl⟩ := start_eq_settle hstart
  refine ⟨⟨hcontext, hsound, tally_settle ⟨?_, .nil, ?_, ?_, ?_⟩⟩, hround, ?_⟩
  · intro u hu
    cases hu
  · intro us hnone
    cases hnone
  · intro us hnone
    cases hnone
  · intro report hnone
    cases hnone
  · rw [succeeded_settle]
    exact ClientRole.succeeded_start known

/-- Whatever is written to a participant by those whom it dials and those who dial it: when its
round has completed, it reports its number, and just the other participants as validated. As having
succeeded it reports those whose answers of success it has read: the other participants too, and
itself if and only if there was such an answer in its own name. -/
theorem report_completed {self : Uuid} {group : List Uuid} {config : Config} {known : Roster}
    {round : Nat} {r₀ : Run}
    (hstart : start (.of self group config.payloadLength) config known round = .ok r₀)
    (es : List Event) {report : Report} (hresult : (r₀.steps es).result = some (.ok report)) :
    let others := (Context.of self group config.payloadLength).others
    let answered := (r₀.answers es).map Answer.participant
    report.round = round ∧ report.validated = others ∧
    (∀ u, u ∈ report.succeeded ↔ u ∈ answered) ∧
    (report.succeeded = others ↔ self ∉ answered) ∧
    (report.succeeded = Uuid.Set.insert self others ↔ self ∈ answered) := by
  intro others answered
  obtain ⟨hcounts, hround, hempty⟩ := counts_start hstart
  have h : (r₀.steps es).Counts (.of self group config.payloadLength) := counts_steps hcounts es
  obtain ⟨hsucceeded, hvalidated⟩ := h.tally.reported report hresult
  obtain ⟨hreported, hothers⟩ := h.tally.agreed _ hsucceeded
  obtain ⟨hcounted, hseen⟩ := h.tally.seen _ hvalidated
  rw [h.context] at hothers hseen
  have hmem : ∀ u, u ∈ report.succeeded ↔ u ∈ answered := by
    intro u
    rw [hreported, succeeded_steps, mem_insertAll, hempty]
    simp [answered]
  have hascending : IsAscending Uuid.le report.succeeded := by
    rw [hreported, succeeded_steps, hempty]
    exact isAscending_insertAll .nil _
  -- an answer that counts is in the name of another participant or in one's own
  have hnamed : ∀ u ∈ report.succeeded, u ∈ others ∨ u = self := by
    intro u hu
    rw [hreported] at hu
    by_cases hself : u = self
    · exact .inr hself
    · exact .inl (Context.mem_others.mpr ⟨h.sound.client.succeeded u hu, hself⟩)
  have hselfOther : self ∉ others := fun hself => (Context.mem_others.mp hself).2 rfl
  obtain ⟨hwithout, hwith⟩ :=
    Uuid.Set.eq_or_eq_insert hascending Context.isAscending_others hothers hnamed hselfOther
  rw [hmem] at hwithout hwith
  refine ⟨?_, ?_, hmem, hwithout, hwith⟩
  · rw [(h.sound.reported report hresult).1, (continues_steps r₀ es).round, hround]
  · refine Uuid.Set.ext (hcounted ▸ h.tally.ascending) Context.isAscending_others fun u => ?_
    refine ⟨fun hu => ?_, hseen u⟩
    have hother := h.tally.validated u (hcounted ▸ hu)
    rw [h.context] at hother
    exact hother

/-- A peer answers in the name of the one who dials it; then the other participant answers and
asks. -/
def misnaming : List Event :=
  let self := Context.of (named 1) [named 2] 3
  let other := Context.of (named 2) [named 1] 3
  [.heard (.tcp ⟨"second", 0⟩ "host" 1), .dialed "second" .connected,
    .dialed "second" (.arrived (self.response .success).encode), .concluded "second",
    .heard (.tcp ⟨"third", 0⟩ "host" 2), .dialed "third" .connected,
    .dialed "third" (.arrived (other.response .success).encode), .concluded "third",
    .accepted, .served 0 (.arrived (other.request 48).encode), .served 0 .hungUp, .left 0]

/-- A participant reports its own name as one that has succeeded. -/
theorem report_completed_misnaming : ∃ r₀ report,
    start (.of (named 1) [named 2] 3) { Config.fast with payloadLength := 3 } [] 0 = .ok r₀ ∧
    (r₀.steps misnaming).result = some (.ok report) ∧ named 1 ∈ report.succeeded ∧
    report.succeeded ≠ (Context.of (named 1) [named 2] 3).others ∧
    report.validated = (Context.of (named 1) [named 2] 3).others := by
  obtain ⟨r₀, hstart, hresult, hanswered⟩ : ∃ r₀,
      start (.of (named 1) [named 2] 3) { Config.fast with payloadLength := 3 } [] 0 = .ok r₀ ∧
      (r₀.steps misnaming).result = some (.ok ⟨0, [named 1, named 2], [named 2]⟩) ∧
      named 1 ∈ (r₀.answers misnaming).map Answer.participant :=
    ⟨_, rfl, by decide +kernel, by decide +kernel⟩
  obtain ⟨-, hvalidated, hmem, hothers, -⟩ :=
    @report_completed _ _ { Config.fast with payloadLength := 3 } _ _ _ hstart misnaming _ hresult
  exact ⟨r₀, _, hstart, hresult, (hmem _).mpr hanswered, fun heq => hothers.mp heq hanswered,
    hvalidated⟩

end Run

end BeaconMesh.Round
