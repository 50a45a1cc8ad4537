import BeaconMesh.Proofs.Round.MeshInvariant

/-!
Every event among the participants keeps the invariant, one theorem for each kind of event.
-/

set_option autoImplicit false
set_option relaxedAutoImplicit false

namespace BeaconMesh.Round

theorem Attempt.step_quiet {n : Notice} (hquiet : n.isQuiet = true) (c : Context) (code : UInt8)
    (limit : Duration) (a : Attempt) :
    a.step c code limit n = a ∨ ∃ fault, (a.step c code limit n).stage = .done (.error fault) := by
  rcases a with ⟨_ | received | result, written⟩ <;> rcases n with _ | bytes | _ | cause | _
  all_goals first
    | exact Or.inl rfl
    | exact Or.inr ⟨_, rfl⟩
    | cases hquiet

theorem Session.step_not_arrived {n : Notice} (hnot : ∀ bytes, n ≠ .arrived bytes) (c : Context)
    (code : UInt8) (limit : Duration) (s : Session) :
    (s.step c code limit n).written = s.written ∧
      ∀ received, (s.step c code limit n).stage = .reading received →
        s.stage = .reading received := by
  rcases s with ⟨received | sender | result, written⟩ <;> rcases n with _ | bytes | _ | cause | _
  all_goals first
    | exact absurd rfl (hnot _)
    | exact ⟨rfl, fun _ h => h⟩
    | exact ⟨rfl, fun _ h => nomatch h⟩

namespace Mesh

variable {ι : Type} {members : ι → Coordinator} {m m' : Mesh ι}

theorem AttemptSound.quiet {i : ι} {round : Nat} {peer : String} {a : Attempt} {n : Notice}
    (h : AttemptSound members m i round peer a) (hquiet : n.isQuiet = true) (c : Context)
    (code : UInt8) (limit : Duration) :
    AttemptSound members m i round peer (a.step c code limit n) := by
  rcases Attempt.step_quiet hquiet c code limit a with hsame | ⟨fault, hended⟩
  · rw [hsame]
    exact h
  · refine ⟨?_, ?_, ?_⟩
    · intro hconnecting
      rw [Attempt.isConnecting, hended] at hconnecting
      cases hconnecting
    · intro _ _ _ _ _ received hstage
      rw [hended] at hstage
      cases hstage
    · intro u hstage
      rw [hended] at hstage
      cases hstage

theorem SessionSound.not_arrived {i : ι} {round number : Nat} {s : Session} {n : Notice}
    (h : SessionSound m i round number s) (hnot : ∀ bytes, n ≠ .arrived bytes) (c : Context)
    (code : UInt8) (limit : Duration) :
    SessionSound m i round number (s.step c code limit n) := by
  intro wire w hw hlistener hsession
  obtain ⟨hwritten, hreading⟩ := Session.step_not_arrived hnot c code limit s
  have hread := h wire w hw hlistener hsession
  exact ⟨hwritten.trans hread.written,
    fun received hstage => hread.reading received (hreading received hstage)⟩

private theorem AttemptSound.same_wires {i : ι} {round : Nat} {peer : String} {a : Attempt}
    (h : AttemptSound members m i round peer a) (hadvances : Advances m m')
    (hwires : m'.wires = m.wires) (hline : m'.line = m.line) :
    AttemptSound members m' i round peer a := by
  refine h.transfer hadvances ?_
  intro wire w hl hw
  rw [hline] at hl
  rw [hwires] at hw
  exact ⟨w, hl, hw, rfl, fun hawaits => hawaits⟩

private theorem SessionSound.same_wires {i : ι} {round number : Nat} {s : Session}
    (h : SessionSound m i round number s) (hwires : m'.wires = m.wires) :
    SessionSound m' i round number s := by
  intro wire w hw
  rw [hwires] at hw
  exact h wire w hw

private theorem nodeSound_same_wires {i : ι} (h : NodeSound members m i)
    (hadvances : Advances m m') (hnode : m'.node i = m.node i) (hwires : m'.wires = m.wires)
    (hline : m'.line = m.line) : NodeSound members m' i :=
  h.transfer hadvances hnode (fun _ _ _ ha => ha.same_wires hadvances hwires hline)
    fun _ _ _ hs => hs.same_wires hwires

private theorem sound_same_wires (h : Sound members m) (hadvances : Advances m m')
    (hwires : m'.wires = m.wires) (hline : m'.line = m.line)
    (hnodes : ∀ i, NodeSound members m' i) : Sound members m' := by
  refine ⟨hnodes, ?_, ?_, ?_⟩
  · rw [hwires]
    exact fun wire w hw => (h.wires wire w hw).mono hadvances
  · rw [hwires, hline]
    exact h.lines
  · rw [hwires]
    exact h.sessions

private theorem nodeSound_collect {i : ι} {run : Run} (h : NodeSound members m i)
    (hcurrent : (m.node i).current = some run) (hadvances : Advances m m')
    (hnode : m'.node i = (m.node i).collect run) (hwires : m'.wires = m.wires)
    (hline : m'.line = m.line) : NodeSound members m' i := by
  have hr := h.current run hcurrent
  rw [Drive.collect] at hnode
  rcases hresult : run.result with _ | fault | report
  case none =>
    rw [hresult] at hnode
    exact nodeSound_same_wires h hadvances hnode hwires hline
  case some.error =>
    rw [hresult] at hnode
    refine ⟨?_, ?_, ?_, ?_, ?_⟩ <;> rw [hnode]
    · exact h.coordinator
    · exact fun _ hnone => nomatch hnone
    · exact fun report hreport u hu => (h.reports report hreport u hu).mono hadvances
    · exact h.earlier
    · exact fun _ hnone => nomatch hnone
  case some.ok =>
    rw [hresult] at hnode
    obtain ⟨hround, hbegun⟩ := hr.sound.reported report hresult
    have hkept : ∀ round, (∃ report ∈ (m.node i).reports, report.round = round) →
        ∃ earlier ∈ (m.node i).reports ++ [report], earlier.round = round := by
      rintro round ⟨earlier, hmem, rfl⟩
      exact ⟨earlier, List.mem_append_left _ hmem, rfl⟩
    refine ⟨?_, ?_, ?_, ?_, ?_⟩ <;> rw [hnode]
    · exact h.coordinator
    · exact fun _ hnone => nomatch hnone
    · intro earlier hmem u hu
      rcases List.mem_append.mp hmem with hmem | hmem
      · exact (h.reports earlier hmem u hu).mono hadvances
      · obtain rfl := List.mem_singleton.mp hmem
        rw [hround]
        exact (hbegun u (hr.context ▸ hu)).mono hadvances
    · exact fun round hlt => hkept round (h.earlier round hlt)
    · intro _ _ round hlt
      by_cases hlast : round = run.round
      · exact ⟨report, List.mem_append_right _ (List.mem_singleton_self _), hround.trans hlast.symm⟩
      · refine hkept round (h.earlier round ?_)
        have hcount := hr.round
        change round < (m.node i).begun at hlt
        omega

private theorem nodeSound_begin {i : ι} (h : NodeSound members m i)
    (hcurrent : (m.node i).current = none) (hfailure : (m.node i).failure = none)
    (hadvances : Advances m m') (hnode : m'.node i = (m.node i).begin) :
    NodeSound members m' i := by
  have hall : ∀ round, round + 1 < (m.node i).begun + 1 →
      ∃ report ∈ (m.node i).reports, report.round = round :=
    fun round hlt => h.idle hcurrent hfailure round (Nat.lt_of_succ_lt_succ hlt)
  have hreports : ∀ report ∈ (m.node i).reports, ∀ u ∈ (members i).context.others,
      Begun members m' report.round u :=
    fun report hreport u hu => (h.reports report hreport u hu).mono hadvances
  rw [Drive.begin] at hnode
  rcases hstart : (m.node i).coordinator.start (m.node i).begun with fault | run
  case error =>
    rw [hstart] at hnode
    refine ⟨?_, ?_, ?_, ?_, ?_⟩ <;> rw [hnode]
    · exact h.coordinator
    · intro run hrun
      change (m.node i).current = some run at hrun
      rw [hcurrent] at hrun
      cases hrun
    · exact hreports
    · exact hall
    · exact fun _ hnone => nomatch hnone
  case ok =>
    rw [hstart] at hnode
    obtain ⟨hcontext, hround, hcode⟩ := Run.start_ok hstart
    refine ⟨?_, ?_, ?_, ?_, ?_⟩
    · rw [hnode]
      exact h.coordinator
    · intro run' hrun'
      rw [hnode] at hrun'
      obtain rfl : run = run' := Option.some.inj hrun'
      refine ⟨hcontext.trans h.coordinator, hround.symm ▸ hcode, ?_, ?_⟩
      · rw [hnode, hround]
      · exact Run.sound_start hstart (attemptSound_fresh i run.round)
    · rw [hnode]
      exact hreports
    · rw [hnode]
      exact hall
    · rw [hnode]
      exact fun hnone => nomatch hnone

variable [DecidableEq ι]

@[simp] theorem node_change_self (m : Mesh ι) (i : ι) (d : Drive) : (m.change i d).node i = d :=
  if_pos rfl

theorem node_change_of_ne (m : Mesh ι) {i j : ι} (h : j ≠ i) (d : Drive) :
    (m.change i d).node j = m.node j :=
  if_neg h

theorem advances_change {m m' : Mesh ι} {i : ι} {d : Drive} (hnode : m'.node = (m.change i d).node)
    (hd : (m.node i).Advances d) : Advances m m' := by
  intro j
  rw [hnode]
  by_cases hj : j = i
  · subst hj
    rw [node_change_self]
    exact hd
  · rw [node_change_of_ne m hj]
    exact .refl _

theorem sound_proceed (h : Sound members m) (i : ι) :
    Sound members (m.change i (m.node i).proceed) := by
  have hadvances : Advances m (m.change i (m.node i).proceed) :=
    advances_change rfl (m.node i).advances_proceed
  refine sound_same_wires h hadvances rfl rfl ?_
  intro j
  by_cases hj : j = i
  · subst hj
    have hnode := node_change_self m j (m.node j).proceed
    rcases hcurrent : (m.node j).current with _ | run
    · by_cases hgoes : ((m.node j).failure.isNone && decide ((m.node j).begun < (m.node j).rounds))
          = true
      · have hfailure : (m.node j).failure = none := by
          simp only [Bool.and_eq_true, Option.isNone_iff_eq_none] at hgoes
          exact hgoes.1
        have hproceed : (m.node j).proceed = (m.node j).begin := by
          rw [Drive.proceed, hcurrent]
          exact if_pos hgoes
        exact nodeSound_begin (h.nodes j) hcurrent hfailure hadvances (hnode.trans hproceed)
      · have hproceed : (m.node j).proceed = m.node j := by
          rw [Drive.proceed, hcurrent]
          exact if_neg hgoes
        exact nodeSound_same_wires (h.nodes j) hadvances (hnode.trans hproceed) rfl rfl
    · have hproceed : (m.node j).proceed = (m.node j).collect run := by
        rw [Drive.proceed, hcurrent]
      exact nodeSound_collect (h.nodes j) hcurrent hadvances (hnode.trans hproceed) rfl rfl
  · exact nodeSound_same_wires (h.nodes j) hadvances (node_change_of_ne m hj _) rfl rfl

private theorem happen_of_none {d : Drive} (h : d.current = none) (e : Round.Event) :
    d.happen e = d := by
  rcases d with ⟨coordinator, rounds, begun, current, reports, failure⟩
  obtain rfl : current = none := h
  rfl

theorem sound_happen (h : Sound members m) (i : ι) {e : Round.Event} (he : e.isLocal = true) :
    Sound members (m.happen i e) := by
  have hadvances : Advances m (m.happen i e) := advances_change rfl ((m.node i).advances_happen e)
  refine sound_same_wires h hadvances rfl rfl ?_
  intro j
  by_cases hj : j = i
  · subst hj
    have hnode : (m.happen j e).node j = (m.node j).happen e := node_change_self m j _
    rcases hcurrent : (m.node j).current with _ | run
    · rw [happen_of_none hcurrent] at hnode
      exact nodeSound_same_wires (h.nodes j) hadvances hnode rfl rfl
    · have hr := (h.nodes j).current run hcurrent
      have hstep := Run.sound_step_local hr.sound (attemptSound_fresh j run.round)
        (fun _ _ u ha hstage => ha.success u hstage)
        (fun _ _ _ hquiet ha => ha.quiet hquiet run.context run.code run.config.exchangeTimeout)
        (fun _ _ _ hnot hs => hs.not_arrived hnot run.context run.code run.config.exchangeTimeout)
        he
      refine (h.nodes j).happen hadvances hcurrent hnode (hstep.mono ?_ ?_ ?_)
      · exact fun _ _ ha => ha.same_wires hadvances rfl rfl
      · exact fun _ _ hs => hs.same_wires rfl
      · exact fun u hu => hu.mono hadvances
  · exact nodeSound_same_wires (h.nodes j) hadvances (node_change_of_ne m hj _) rfl rfl

end Mesh

end BeaconMesh.Round
