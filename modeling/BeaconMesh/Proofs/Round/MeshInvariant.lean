import BeaconMesh.Proofs.Round.Runs
import BeaconMesh.Proofs.Round.Wires

/-!
The invariant of participants that run their rounds at the same time. It says what has been written
on every connection, that both of its ends have read beginnings of that, and that whoever an attempt
or a round names as having succeeded has begun the same round.
-/

set_option autoImplicit false
set_option relaxedAutoImplicit false

namespace BeaconMesh.Round

/-- A participant goes on: it begins no round twice, and in the round under way session numbers
are given out one after another. -/
structure Drive.Advances (d d' : Drive) : Prop where
  begun : d.begun ≤ d'.begun
  current : ∀ run', d'.current = some run' →
    (∃ run, d.current = some run ∧ run'.round = run.round ∧
      run.server.nextSession ≤ run'.server.nextSession) ∨ d.begun ≤ run'.round

theorem Drive.Advances.refl (d : Drive) : d.Advances d :=
  ⟨Nat.le_refl _, fun run' h => Or.inl ⟨run', h, rfl, Nat.le_refl _⟩⟩

theorem Drive.advances_happen (d : Drive) (e : Event) : d.Advances (d.happen e) := by
  refine ⟨Nat.le_refl _, ?_⟩
  intro run' h
  obtain ⟨run, hrun, rfl⟩ := Option.map_eq_some_iff.mp h
  have hcontinues := run.continues_step e
  exact Or.inl ⟨run, hrun, hcontinues.round, hcontinues.nextSession⟩

theorem Drive.advances_proceed (d : Drive) : d.Advances d.proceed := by
  unfold Drive.proceed
  split
  · unfold Drive.collect
    split
    · exact .refl d
    all_goals
      refine ⟨Nat.le_refl _, ?_⟩
      intro run' h
      cases h
  · rename_i hcurrent
    split
    · unfold Drive.begin
      split
      · refine ⟨Nat.le_succ _, ?_⟩
        intro run' h
        rw [hcurrent] at h
        cases h
      · rename_i run hstart
        refine ⟨Nat.le_succ _, ?_⟩
        intro run' h
        obtain rfl : run = run' := Option.some.inj h
        exact Or.inr (Nat.le_of_eq (Run.start_ok hstart).2.1.symm)
    · exact .refl d

namespace Mesh

variable {ι : Type}

def Advances (m m' : Mesh ι) : Prop := ∀ j, (m.node j).Advances (m'.node j)

/-- There is a participant with this name who has begun the round. -/
def Begun (members : ι → Coordinator) (m : Mesh ι) (round : Nat) (u : Uuid) : Prop :=
  ∃ j, (members j).context.self = u ∧ round < (m.node j).begun

/-- What holds of a connection: the end that dialed has written its request, the other end nothing
or an answer, and one of success only if it has begun the round of the request. -/
structure WireSound (members : ι → Coordinator) (m : Mesh ι) (w : Wire ι) : Prop where
  request : ∃ code, code? w.round = some code ∧
    w.request = ((members w.dialer).context.request code).encode
  response : w.response = [] ∨
    ∃ outcome, w.response = ((members w.listener).context.response outcome).encode ∧
      (outcome = .success → w.round < (m.node w.listener).begun)
  read : w.responseRead ≤ w.response.length
  waiting : w.session = none → w.requestRead = 0 ∧ w.response = []
  accepted : ∀ round number, w.session = some (round, number) →
    round < (m.node w.listener).begun ∧ ∀ run, (m.node w.listener).current = some run →
      run.round = round → number < run.server.nextSession

structure AttemptSound (members : ι → Coordinator) (m : Mesh ι) (i : ι) (round : Nat)
    (peer : String) (a : Attempt) : Prop where
  connecting : a.isConnecting = true → a.written = []
  awaits : ∀ (wire : Nat) (w : Wire ι), m.line i peer = some wire → m.wires[wire]? = some w →
    w.round = round → w.AwaitedBy a
  success : ∀ u, a.stage = .done (.ok u) → Begun members m round u

def SessionSound (m : Mesh ι) (i : ι) (round number : Nat) (s : Session) : Prop :=
  ∀ (wire : Nat) (w : Wire ι), m.wires[wire]? = some w → w.listener = i →
    w.session = some (round, number) → w.ReadBy s

structure RunSound (members : ι → Coordinator) (m : Mesh ι) (i : ι) (run : Run) : Prop where
  context : run.context = (members i).context
  code : code? run.round = some run.code
  round : run.round + 1 = (m.node i).begun
  sound : run.Sound (AttemptSound members m i run.round) (SessionSound m i run.round)
    (Begun members m run.round)

/-- What holds of a participant: all its rounds but the last have completed, and when a round has
completed every other participant has begun it. -/
structure NodeSound (members : ι → Coordinator) (m : Mesh ι) (i : ι) : Prop where
  coordinator : (m.node i).coordinator.context = (members i).context
  current : ∀ run, (m.node i).current = some run → RunSound members m i run
  reports : ∀ report ∈ (m.node i).reports,
    ∀ u ∈ (members i).context.others, Begun members m report.round u
  earlier : ∀ round, round + 1 < (m.node i).begun →
    ∃ report ∈ (m.node i).reports, report.round = round
  idle : (m.node i).current = none → (m.node i).failure = none →
    ∀ round, round < (m.node i).begun → ∃ report ∈ (m.node i).reports, report.round = round

structure Sound (members : ι → Coordinator) (m : Mesh ι) : Prop where
  nodes : ∀ i, NodeSound members m i
  wires : ∀ (wire : Nat) (w : Wire ι), m.wires[wire]? = some w → WireSound members m w
  lines : ∀ i peer wire, m.line i peer = some wire →
    ∃ w, m.wires[wire]? = some w ∧ w.dialer = i ∧ w.peer = peer
  sessions : ∀ (wire wire' : Nat) (w w' : Wire ι),
    m.wires[wire]? = some w → m.wires[wire']? = some w' →
    w.listener = w'.listener → w.session = w'.session → w.session ≠ none → wire = wire'

variable {members : ι → Coordinator} {m m' : Mesh ι}

theorem Begun.mono (h : Advances m m') {round : Nat} {u : Uuid} (hu : Begun members m round u) :
    Begun members m' round u := by
  obtain ⟨j, hself, hbegun⟩ := hu
  exact ⟨j, hself, Nat.lt_of_lt_of_le hbegun (h j).begun⟩

theorem WireSound.mono (h : Advances m m') {w : Wire ι} (hw : WireSound members m w) :
    WireSound members m' w := by
  refine ⟨hw.request, ?_, hw.read, hw.waiting, ?_⟩
  · rcases hw.response with hnone | ⟨outcome, hwritten, hbegun⟩
    · exact Or.inl hnone
    · exact Or.inr ⟨outcome, hwritten,
        fun hsuccess => Nat.lt_of_lt_of_le (hbegun hsuccess) (h w.listener).begun⟩
  · intro round number hsession
    obtain ⟨hround, hnumber⟩ := hw.accepted round number hsession
    refine ⟨Nat.lt_of_lt_of_le hround (h w.listener).begun, ?_⟩
    intro run' hrun' hsame
    rcases (h w.listener).current run' hrun' with ⟨run, hrun, hround', hnext⟩ | hnew
    · exact Nat.lt_of_lt_of_le (hnumber run hrun (hround'.symm.trans hsame)) hnext
    · omega

/-- Who has answered with success has begun the round of the request. -/
theorem WireSound.begun_of_success {w : Wire ι} (h : WireSound members m w)
    (hsuccess : w.response = ((members w.listener).context.response .success).encode) :
    w.round < (m.node w.listener).begun := by
  rcases h.response with hnone | ⟨outcome, hwritten, hbegun⟩
  · have hlength := congrArg List.length (hsuccess.symm.trans hnone)
    rw [Message.length_encode, Message.lengthFor, List.length_nil] at hlength
    omega
  · exact hbegun (Message.outcome_eq_of_encode_eq (hwritten.symm.trans hsuccess))

theorem AttemptSound.transfer {i : ι} {round : Nat} {peer : String} {a : Attempt}
    (h : AttemptSound members m i round peer a) (hadvances : Advances m m')
    (hwires : ∀ (wire : Nat) (w' : Wire ι), m'.line i peer = some wire →
      m'.wires[wire]? = some w' → ∃ w, m.line i peer = some wire ∧
        m.wires[wire]? = some w ∧ w.round = w'.round ∧ (w.AwaitedBy a → w'.AwaitedBy a)) :
    AttemptSound members m' i round peer a := by
  refine ⟨h.connecting, ?_, fun u hu => (h.success u hu).mono hadvances⟩
  intro wire w' hline hw' hround
  obtain ⟨w, hline, hw, hsame, hawaits⟩ := hwires wire w' hline hw'
  exact hawaits (h.awaits wire w hline hw (hsame.trans hround))

theorem SessionSound.transfer {i : ι} {round number : Nat} {s : Session}
    (h : SessionSound m i round number s)
    (hwires : ∀ (wire : Nat) (w' : Wire ι), m'.wires[wire]? = some w' → w'.listener = i →
      w'.session = some (round, number) →
      ∃ w, m.wires[wire]? = some w ∧ w.listener = i ∧ w.session = some (round, number) ∧
        (w.ReadBy s → w'.ReadBy s)) : SessionSound m' i round number s := by
  intro wire w' hw' hlistener hsession
  obtain ⟨w, hw, hlistener, hsession, hread⟩ := hwires wire w' hw' hlistener hsession
  exact hread (h wire w hw hlistener hsession)

theorem attemptSound_fresh (i : ι) (round : Nat) (peer : String) :
    AttemptSound members m i round peer .fresh :=
  ⟨fun _ => rfl, fun _ _ _ _ _ _ hstage => (nomatch hstage), fun _ hstage => (nomatch hstage)⟩

theorem NodeSound.transfer {i : ι} (h : NodeSound members m i) (hadvances : Advances m m')
    (hnode : m'.node i = m.node i)
    (hA : ∀ round peer a, AttemptSound members m i round peer a →
      AttemptSound members m' i round peer a)
    (hS : ∀ round number s, SessionSound m i round number s → SessionSound m' i round number s) :
    NodeSound members m' i := by
  refine ⟨?_, ?_, ?_, ?_, ?_⟩
  · rw [hnode]
    exact h.coordinator
  · intro run hrun
    rw [hnode] at hrun
    have hr := h.current run hrun
    refine ⟨hr.context, hr.code, ?_, hr.sound.mono ?_ ?_ ?_⟩
    · rw [hnode]
      exact hr.round
    · exact fun d _ hd => hA _ _ _ hd
    · exact fun s _ hs => hS _ _ _ hs
    · exact fun u hu => hu.mono hadvances
  · rw [hnode]
    exact fun report hreport u hu => (h.reports report hreport u hu).mono hadvances
  · rw [hnode]
    exact h.earlier
  · rw [hnode]
    exact h.idle

theorem NodeSound.happen {i : ι} {run : Run} {e : Round.Event} (h : NodeSound members m i)
    (hadvances : Advances m m') (hcurrent : (m.node i).current = some run)
    (hnode : m'.node i = (m.node i).happen e)
    (hsound : (run.step e).Sound (AttemptSound members m' i run.round)
      (SessionSound m' i run.round) (Begun members m' run.round)) : NodeSound members m' i := by
  have hr := h.current run hcurrent
  have hcontinues := run.continues_step e
  refine ⟨?_, ?_, ?_, ?_, ?_⟩
  · rw [hnode]
    exact h.coordinator
  · intro run' hrun'
    rw [hnode, Drive.happen, hcurrent] at hrun'
    obtain rfl : run.step e = run' := Option.some.inj hrun'
    refine ⟨hcontinues.context.trans hr.context, ?_, ?_, ?_⟩
    · rw [hcontinues.round, hcontinues.code]
      exact hr.code
    · rw [hcontinues.round, hnode]
      exact hr.round
    · rw [hcontinues.round]
      exact hsound
  · rw [hnode]
    exact fun report hreport u hu => (h.reports report hreport u hu).mono hadvances
  · rw [hnode]
    exact h.earlier
  · intro hnone
    rw [hnode, Drive.happen, hcurrent] at hnone
    cases hnone

end Mesh

end BeaconMesh.Round
