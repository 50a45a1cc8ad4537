import BeaconMesh.Proofs.Round.Exchanges
import BeaconMesh.Proofs.Round.Rounds

/-!
What is left of a round when it has a result, however it has come to it: a raised signal, no timer,
no task that is at work, and what is known of peers, with which the next round begins.
-/

set_option autoImplicit false
set_option relaxedAutoImplicit false

namespace BeaconMesh.Round

namespace Crew

variable {p : Coordinator} {known : Roster} {round : Nat} {r₀ : Run} {es : List Event} {c : Crew}

/-- The participant has answered with success in an attempt of the round, which was begun in it and
has noticed nothing but events of it. -/
def Answered (c : Crew) (r : Run) (es : List Event) (u : Uuid) : Prop :=
  ∃ t ∈ c.dials, ∃ ns, (ns.map (Event.dialed t.state.peer.uuid)).Sublist es ∧
    t.state.attempt = .after r.context r.code r.config.exchangeTimeout ns ∧
    t.state.attempt.result? = some (.ok u) ∧
    t.state.attempt.Exchanged r.context r.code (arrived ns) u

/-- The participant has asked in a session of the round, which was begun in it and has noticed
nothing but events of it, and has seen that it succeeded. -/
def Admitted (c : Crew) (r : Run) (es : List Event) (u : Uuid) : Prop :=
  ∃ t ∈ c.sessions, ∃ ns, (ns.map (Event.served t.state.1)).Sublist es ∧
    t.state.2 = .after r.context r.code r.config.exchangeTimeout ns ∧
    t.state.2.result? = some (.ok (some u)) ∧
    t.state.2.Exchanged r.context r.code (arrived ns) u

theorem Vouched.answered {x : Context} {code : UInt8} {limit : Duration} {r : Run}
    (h : Vouched x code limit es r c) {u : Uuid} (hu : u ∈ r.client.succeeded) :
    c.Answered r es u := by
  obtain ⟨rfl, rfl, rfl, hdials, -, hsucceeded, -⟩ := h
  obtain ⟨d, hd, hdone⟩ := hsucceeded u hu
  obtain ⟨ns, hns, hafter⟩ := hdials d hd
  obtain ⟨t, ht, rfl⟩ := List.mem_map.mp hd
  refine ⟨t, ht, ns, hns, hafter, hdone, ?_⟩
  rw [hafter] at hdone ⊢
  exact Attempt.exchanged_of_result? hdone

theorem Vouched.admitted {x : Context} {code : UInt8} {limit : Duration} {r : Run}
    (h : Vouched x code limit es r c) {u : Uuid} (hu : u ∈ r.server.validated) :
    c.Admitted r es u := by
  obtain ⟨rfl, rfl, rfl, -, hsessions, -, hvalidated⟩ := h
  obtain ⟨s, hs, hdone⟩ := hvalidated u hu
  obtain ⟨ns, hns, hafter⟩ := hsessions s hs
  obtain ⟨t, ht, rfl⟩ := List.mem_map.mp hs
  refine ⟨t, ht, ns, hns, hafter, hdone, ?_⟩
  rw [hafter] at hdone ⊢
  exact Session.exchanged_of_result? hdone

theorem Tended.stopped {r : Run} (h : Tended r c) (hover : r.result.isSome = true) : c.Stopped := by
  obtain ⟨hattempts, hretries, hsessions⟩ := h.ended hover
  exact h.held.stopped (h.released hattempts hretries hsessions)

theorem steps_of_isSome {r : Run} (hover : r.result.isSome = true) (c : Crew) (es : List Event) :
    c.steps r es = c := by
  induction es with
  | nil => rfl
  | cons e es ih => rw [steps, step, if_pos hover, Run.step_of_isSome hover, ih]

/-- Whoever a round reports has made an exchange in it. -/
theorem exchanged_of_report {context : Context} {config : Config}
    (hstart : Run.start context config known round = .ok r₀) (es : List Event) {report : Report}
    (hresult : (r₀.steps es).result = some (.ok report)) :
    (∀ u ∈ report.succeeded,
      ((start context config known round).steps r₀ es).Answered (r₀.steps es) es u) ∧
    ∀ u ∈ report.validated,
      ((start context config known round).steps r₀ es).Admitted (r₀.steps es) es u := by
  obtain ⟨hcounts, -, -⟩ := Run.counts_start hstart
  have htally := (Run.counts_steps hcounts es).tally
  have hvouched := vouched_steps (vouched_start hstart) (tended_start hstart) hcounts es
  obtain ⟨hsucceeded, hvalidated⟩ := htally.reported report hresult
  obtain ⟨hsame, -⟩ := htally.agreed _ hsucceeded
  obtain ⟨hsame', -⟩ := htally.seen _ hvalidated
  exact ⟨fun u hu => hvouched.answered (hsame ▸ hu), fun u hu => hvouched.admitted (hsame' ▸ hu)⟩

theorem start_of_error {context : Context} {config : Config} {fault : Fault}
    (hstart : Run.start context config known round = .error fault) :
    start context config known round = empty := by
  obtain ⟨hround, rfl⟩ := Run.start_error_iff.mp hstart
  have hcode : code? round = none := by
    rw [code?, if_neg (Nat.not_le.mpr hround)]
  rw [start, hcode]

end Crew

/-- What is known of peers when a round begins: as much as at the beginning, or as much as when the
round before had completed. Nothing else comes from there. -/
inductive Carried (p : Coordinator) : Nat → Roster → Prop
  | first : Carried p 0 p.known
  | next {round : Nat} {known : Roster} {r₀ : Run} (h : Carried p round known)
    (hstart : Run.start p.context p.config known round = .ok r₀) (es : List Event)
    {report : Report} (hresult : (r₀.steps es).result = some (.ok report)) :
    Carried p (round + 1) (r₀.steps es).client.known

/-- The report is the result of a round of its own, which began with what was known of peers. -/
def Reported (p : Coordinator) (report : Report) : Prop :=
  ∃ known r₀ es, Carried p report.round known ∧
    Run.start p.context p.config known report.round = .ok r₀ ∧
    (r₀.steps es).result = some (.ok report)

/-- The round that is under way is the next one, and began with what was known of peers. -/
def UnderWay (p : Coordinator) (begun : Nat) (run : Run) : Prop :=
  ∃ round known r₀ es, begun = round + 1 ∧ Carried p round known ∧
    Run.start p.context p.config known round = .ok r₀ ∧ run = r₀.steps es

variable {p : Coordinator}

theorem UnderWay.reported {begun : Nat} {run : Run} (h : UnderWay p begun run) {report : Report}
    (hresult : run.result = some (.ok report)) :
    Reported p report ∧ Carried p begun run.client.known := by
  obtain ⟨round, known, r₀, es, rfl, hcarried, hstart, rfl⟩ := h
  have hcomes : Comes p.context p.config round (.ok report) := .ended hstart es hresult
  obtain ⟨-, rfl⟩ := hcomes.round_report
  exact ⟨⟨known, r₀, es, hcarried, hstart, hresult⟩, .next hcarried hstart es hresult⟩

namespace Drive

variable {d : Drive}

/-- A participant that begins each of its rounds with nothing but what it knows of peers. -/
structure Linked (p : Coordinator) (d : Drive) : Prop where
  context : d.coordinator.context = p.context
  config : d.coordinator.config = p.config
  idle : d.current = none → d.failure = none → Carried p d.begun d.coordinator.known
  current : ∀ run, d.current = some run → UnderWay p d.begun run
  reported : ∀ report ∈ d.reports, Reported p report

theorem linked_fresh (p : Coordinator) (rounds : Nat) : (fresh p rounds).Linked p where
  context := rfl
  config := rfl
  idle := fun _ _ => .first
  current := fun _ hcurrent => nomatch hcurrent
  reported := fun _ hreport => nomatch hreport

theorem linked_begin (h : d.Linked p) (hcurrent : d.current = none) (hfailure : d.failure = none) :
    d.begin.Linked p := by
  have hcarried := h.idle hcurrent hfailure
  unfold begin Coordinator.start
  rw [h.context, h.config]
  cases hstart : Run.start p.context p.config d.coordinator.known d.begun with
  | error fault =>
    refine ⟨h.context, h.config, ?_, ?_, h.reported⟩
    · intro _ hnone
      cases hnone
    · intro run hrun
      exact nomatch hcurrent.symm.trans hrun
  | ok r₀ =>
    refine ⟨h.context, h.config, ?_, ?_, h.reported⟩
    · intro hnone
      cases hnone
    · rintro run ⟨⟩
      exact ⟨d.begun, d.coordinator.known, r₀, [], rfl, hcarried, hstart, rfl⟩

theorem linked_collect (h : d.Linked p) {run : Run} (hrun : d.current = some run) :
    (d.collect run).Linked p := by
  have hunderWay := h.current run hrun
  unfold collect
  split
  · exact h
  · rename_i report hresult
    obtain ⟨hreported, hcarried⟩ := hunderWay.reported hresult
    refine ⟨h.context, h.config, fun _ _ => hcarried, fun _ hnone => (nomatch hnone), ?_⟩
    intro other hother
    rcases List.mem_append.mp hother with hother | hother
    · exact h.reported other hother
    · exact List.mem_singleton.mp hother ▸ hreported
  · exact ⟨h.context, h.config, fun _ hnone => (nomatch hnone), fun _ hnone => (nomatch hnone),
      h.reported⟩

theorem linked_move (h : d.Linked p) (m : Move) : (d.move m).Linked p := by
  cases m with
  | proceed =>
    rw [move, proceed]
    split
    · rename_i run hrun
      exact linked_collect h hrun
    · rename_i hcurrent
      split
      · rename_i hmore
        simp only [Bool.and_eq_true, Option.isNone_iff_eq_none] at hmore
        exact linked_begin h hcurrent hmore.1
      · exact h
  | happen e =>
    refine ⟨h.context, h.config, fun hnone => h.idle (Option.map_eq_none_iff.mp hnone), ?_,
      h.reported⟩
    intro run hrun
    obtain ⟨before, hbefore, rfl⟩ := Option.map_eq_some_iff.mp hrun
    obtain ⟨round, known, r₀, es, hbegun, hcarried, hstart, rfl⟩ := h.current before hbefore
    refine ⟨round, known, r₀, es ++ [e], hbegun, hcarried, hstart, ?_⟩
    rw [Run.steps, Run.steps, List.foldl_append]
    rfl

theorem linked_run (h : d.Linked p) (moves : List Move) : (d.run moves).Linked p := by
  induction moves generalizing d with
  | nil => exact h
  | cons m moves ih => exact ih (linked_move h m)

theorem Linked.returned (h : d.Linked p) : ∀ report ∈ d.returned, Reported p report := by
  intro report hreport
  rcases List.mem_append.mp hreport with hreport | hreport
  · exact h.reported report hreport
  · split at hreport
    · rename_i last hlast
      obtain ⟨run, hrun, hresult⟩ := Option.bind_eq_some_iff.mp hlast
      obtain ⟨hreported, -⟩ := (h.current run hrun).reported hresult
      exact List.mem_singleton.mp hreport ▸ hreported
    · cases hreport

end Drive

/-- A round that does not begin begins no task. Of a round that has begun, the sets of its two
halves hold just what these count as under way; and as long as the round goes on, raising its
signal would stop all attempts by itself, and dropping the sets would stop everything. When it has
a result, of whatever kind and whatever was under way, its signal has been raised and no timer or
callback is registered; every attempt, every wait for a retry and every session that it ever began
has ended or was aborted; and nothing that happens later changes anything. Whoever it reports has
made an exchange with it in a task of its own. The rounds of a participant have nothing in common
but what is known of peers, and this holds of each report. -/
theorem nothing_outlives_round (p : Coordinator) :
    (∀ known round fault, Run.start p.context p.config known round = .error fault →
      Crew.start p.context p.config known round = .empty) ∧
    (∀ known round r₀, Run.start p.context p.config known round = .ok r₀ → ∀ es,
      let r := r₀.steps es
      let c := (Crew.start p.context p.config known round).steps r₀ es
      code? round = some r.code ∧
      c.dials.inSet = r.client.attempts ∧ c.waits.inSet.map Wait.retry = r.client.retries ∧
      c.sessions.inSet = r.server.sessions ∧
      (r.result = none → (c.raise r.quit).dials.Stopped Dial.ended ∧
        c.dropClient.dropServer.Stopped) ∧
      ∀ result, r.result = some result →
        (r.quit.raised = true ∧ r.quit.timers = [] ∧ r.quit.callbacks = []) ∧
        (∀ t ∈ c.dials, t.state.attempt.result?.isSome = true ∨ t.aborted = true) ∧
        (∀ t ∈ c.waits, t.state.outcome.isSome = true ∨ t.aborted = true) ∧
        (∀ t ∈ c.sessions, t.state.2.result?.isSome = true ∨ t.aborted = true) ∧
        (r.client.attempts = [] ∧ r.client.retries = [] ∧ r.server.sessions = []) ∧
        (∀ later, r.steps later = r ∧ c.steps r later = c) ∧
        ∀ report, result = .ok report →
          (∀ u ∈ report.succeeded, c.Answered r es u) ∧ ∀ u ∈ report.validated, c.Admitted r es u) ∧
    ∀ rounds moves,
      let d := (Drive.fresh p rounds).run moves
      (∀ run, d.current = some run → UnderWay p d.begun run) ∧
      ∀ report ∈ d.returned, ∃ known r₀ es, Carried p report.round known ∧
        Run.start p.context p.config known report.round = .ok r₀ ∧
        (r₀.steps es).result = some (.ok report) ∧
        let c := (Crew.start p.context p.config known report.round).steps r₀ es
        (∀ u ∈ report.succeeded, c.Answered (r₀.steps es) es u) ∧
        ∀ u ∈ report.validated, c.Admitted (r₀.steps es) es u := by
  refine ⟨fun _ _ _ => Crew.start_of_error, ?_, ?_⟩
  · intro known round r₀ hstart es r c
    obtain ⟨hcounts, -, -⟩ := Run.counts_start hstart
    have htended : Crew.Tended r c := Crew.tended_steps (Crew.tended_start hstart) hcounts es
    have hsignal : r.quit.raised = r.result.isSome :=
      (Run.decisive_steps (Run.decisive_start hstart).1 es).signal
    have hcode : code? round = some r.code := by
      rw [(Run.continues_steps r₀ es).code]
      exact (Run.start_ok hstart).2.2
    refine ⟨hcode, htended.attempts, htended.retries, htended.sessions, ?_, ?_⟩
    · intro hresult
      have hunraised : r.quit.raised = false := by
        rw [hsignal, hresult]
        rfl
      exact ⟨Crew.stopped_raise htended.handled htended.armed hunraised, htended.held.drop⟩
    · intro result hresult
      have hover : r.result.isSome = true := Option.isSome_of_eq_some hresult
      have hraised : r.quit.raised = true := hsignal.trans hover
      obtain ⟨hdials, hwaits, hsessions⟩ := htended.stopped hover
      refine ⟨⟨hraised, htended.armed.emptied hraised⟩, ?_, ?_, ?_, htended.ended hover,
        fun later => ⟨Run.steps_of_isSome hover later, Crew.steps_of_isSome hover c later⟩, ?_⟩
      · exact fun t ht => Bool.or_eq_true_iff.mp (hdials t ht)
      · exact fun t ht => Bool.or_eq_true_iff.mp (hwaits t ht)
      · exact fun t ht => Bool.or_eq_true_iff.mp (hsessions t ht)
      · rintro report rfl
        exact Crew.exchanged_of_report hstart es hresult
  · intro rounds moves d
    have hlinked : d.Linked p := Drive.linked_run (Drive.linked_fresh p rounds) moves
    refine ⟨hlinked.current, ?_⟩
    intro report hreport
    obtain ⟨known, r₀, es, hcarried, hstart, hresult⟩ := hlinked.returned report hreport
    exact ⟨known, r₀, es, hcarried, hstart, hresult, Crew.exchanged_of_report hstart es hresult⟩

open Run (named)

/-- One peer has refused and will be dialed again, one is being dialed, and somebody has dialed, as
a third peer answers that it is in another group. -/
def wreckage : List Event :=
  let other := Context.of (named 2) [named 1] 3
  [.heard (.tcp ⟨"second", 0⟩ "host" 1), .heard (.tcp ⟨"third", 0⟩ "host" 2),
    .heard (.tcp ⟨"fourth", 0⟩ "host" 3), .dialed "second" (.failed "refused"),
    .concluded "second", .dialed "third" .connected, .accepted, .dialed "fourth" .connected,
    .dialed "fourth" (.arrived (other.response .wrongTestSet).encode), .concluded "fourth"]

/-- The attempt, the wait and the session that were under way are gone; another round of the same
participant completes, and both whom it reports have made an exchange in it. -/
theorem nothing_outlives_round_wreckage :
    let p : Coordinator := ⟨.of (named 1) [named 2] 3, { Config.fast with payloadLength := 3 }, []⟩
    Crew.start p.context p.config [] 10 = .empty ∧
    (∃ r₀, Run.start p.context p.config [] 0 = .ok r₀ ∧
      (let r := r₀.steps (wreckage.take 9)
        let c := (Crew.start p.context p.config [] 0).steps r₀ (wreckage.take 9)
        (∃ t ∈ c.dials, t.stopped Dial.ended = false) ∧
          (c.raise r.quit).dials.Stopped Dial.ended) ∧
      let r := r₀.steps wreckage
      let c := (Crew.start p.context p.config [] 0).steps r₀ wreckage
      r.result = some (.error (.objection (.outcome (named 2) .wrongTestSet))) ∧
      (c.dials.length = 3 ∧ c.waits.length = 1 ∧ c.sessions.length = 1) ∧
      r.quit.raised = true ∧ r.quit.timers = [] ∧
      (∀ t ∈ c.dials, t.state.attempt.result?.isSome = true ∨ t.aborted = true) ∧
      (∀ t ∈ c.waits, t.state.outcome.isSome = true ∨ t.aborted = true) ∧
      ∀ t ∈ c.sessions, t.state.2.result?.isSome = true ∨ t.aborted = true) ∧
    ∃ known r₀ es, Run.start p.context p.config known 0 = .ok r₀ ∧
      let c := (Crew.start p.context p.config known 0).steps r₀ es
      c.Answered (r₀.steps es) es (named 1) ∧ c.Admitted (r₀.steps es) es (named 2) := by
  intro p
  obtain ⟨hinvalid, hround, hdrive⟩ := nothing_outlives_round p
  refine ⟨hinvalid [] 10 (.invalidRound 10) rfl, ?_, ?_⟩
  · obtain ⟨r₀, hstart, hgoing, hworking, hresult, hbegun⟩ : ∃ r₀,
        Run.start p.context p.config [] 0 = .ok r₀ ∧
        (r₀.steps (wreckage.take 9)).result = none ∧
        (∃ t ∈ ((Crew.start p.context p.config [] 0).steps r₀ (wreckage.take 9)).dials,
          t.stopped Dial.ended = false) ∧
        (r₀.steps wreckage).result
          = some (.error (.objection (.outcome (named 2) .wrongTestSet))) ∧
        let c := (Crew.start p.context p.config [] 0).steps r₀ wreckage
        c.dials.length = 3 ∧ c.waits.length = 1 ∧ c.sessions.length = 1 :=
      ⟨_, rfl, by decide +kernel, by decide +kernel, by decide +kernel, by decide +kernel⟩
    obtain ⟨-, -, -, -, hstoppable, -⟩ := hround [] 0 r₀ hstart (wreckage.take 9)
    obtain ⟨-, -, -, -, -, hended⟩ := hround [] 0 r₀ hstart wreckage
    obtain ⟨⟨hraised, htimers, -⟩, hdials, hwaits, hsessions, -⟩ := hended _ hresult
    exact ⟨r₀, hstart, ⟨hworking, (hstoppable hgoing).1⟩, hresult, hbegun, hraised, htimers, hdials,
      hwaits, hsessions⟩
  · have hreturned : ⟨0, [named 1, named 2], [named 2]⟩ ∈
        ((Drive.fresh p 1).run (.proceed :: Run.misnaming.map .happen)).returned := by
      decide +kernel
    obtain ⟨-, hreports⟩ := hdrive 1 (.proceed :: Run.misnaming.map .happen)
    obtain ⟨known, r₀, es, -, hstart, -, hanswered, hadmitted⟩ := hreports _ hreturned
    exact ⟨known, r₀, es, hstart, hanswered _ List.mem_cons_self, hadmitted _ List.mem_cons_self⟩

end BeaconMesh.Round
