import BeaconMesh.Proofs.Round.Connections

/-!
The rounds of a group are a barrier: nobody completes a round that another participant has not
begun.
-/

set_option autoImplicit false
set_option relaxedAutoImplicit false

namespace BeaconMesh.Round

theorem Context.self_mem_of (self : Uuid) (group : List Uuid) (payloadLength : Nat) :
    self ∈ (Context.of self group payloadLength).participants :=
  (Ascending.mem_insert Uuid.le self self _).mpr (Or.inl rfl)

namespace Mesh

variable {ι : Type}

theorem sound_fresh (members : ι → Coordinator) (rounds : ι → Nat) :
    Sound members (fresh members rounds) := by
  refine ⟨?_, ?_, ?_, ?_⟩
  · intro i
    refine ⟨rfl, fun run hrun => (nomatch hrun), fun report hreport => (nomatch hreport), ?_, ?_⟩
    · exact fun round hlt => absurd hlt (Nat.not_lt_zero _)
    · exact fun _ _ round hlt => absurd hlt (Nat.not_lt_zero _)
  · intro wire w hw
    cases hw
  · intro i peer wire hline
    cases hline
  · intro wire wire' w w' hw
    cases hw

variable [DecidableEq ι] {members : ι → Coordinator} {m : Mesh ι}

/-- Every event keeps the invariant. -/
theorem sound_step (h : Sound members m)
    (hpayload : ∀ i j, (members i).context.payload.length = (members j).context.payload.length)
    (event : Mesh.Event ι) : Sound members (m.step event) := by
  cases event with
  | proceed i => exact sound_proceed h i
  | happen i e =>
    show Sound members (if e.isLocal then m.happen i e else m)
    split
    · rename_i he
      exact sound_happen h i he
    · exact h
  | connect i peer j => exact sound_connect h i peer j
  | accept wire => exact sound_accept h wire
  | carryRequest wire count => exact sound_carryRequest h hpayload wire count
  | carryResponse wire count => exact sound_carryResponse h hpayload wire count

theorem sound_run (h : Sound members m)
    (hpayload : ∀ i j, (members i).context.payload.length = (members j).context.payload.length)
    (events : List (Mesh.Event ι)) : Sound members (m.run events) := by
  induction events generalizing m with
  | nil => exact h
  | cons event events ih => exact ih (sound_step h hpayload event)

omit [DecidableEq ι] in
theorem Sound.begun_of_returned (h : Sound members m) {i : ι} {report : Report}
    (hreport : report ∈ (m.node i).returned) {u : Uuid} (hu : u ∈ (members i).context.others) :
    Begun members m report.round u := by
  rcases List.mem_append.mp hreport with hearlier | hlast
  · exact (h.nodes i).reports report hearlier u hu
  · rcases hcurrent : (m.node i).current with _ | run
    · rw [hcurrent] at hlast
      cases hlast
    · rw [hcurrent] at hlast
      have hr := (h.nodes i).current run hcurrent
      rcases hresult : run.result with _ | fault | completed
      · rw [Option.bind_some, hresult] at hlast
        cases hlast
      · rw [Option.bind_some, hresult] at hlast
        cases hlast
      · rw [Option.bind_some, hresult] at hlast
        obtain rfl := List.mem_singleton.mp hlast
        obtain ⟨hround, hbegun⟩ := hr.sound.reported report hresult
        rw [hround]
        exact hbegun u (hr.context ▸ hu)

/-- Participants with different names, the same group and payloads of the same length run their
rounds, and whatever happens happens in any order. When a round has returned with success, every
other member of the group has begun it, so nobody is ahead of another by more than one round. -/
theorem barrier {self : ι → Uuid} {group : ι → List Uuid} {config : ι → Config}
    (hself : Function.Injective self)
    (hgroup : ∀ i j u, u ∈ (Coordinator.fresh (self i) (group i) (config i)).context.participants ↔
      u ∈ (Coordinator.fresh (self j) (group j) (config j)).context.participants)
    (hpayload : ∀ i j, (config i).payloadLength = (config j).payloadLength)
    (rounds : ι → Nat) (events : List (Mesh.Event ι)) :
    let members := fun i => Coordinator.fresh (self i) (group i) (config i)
    let m := (fresh members rounds).run events
    (∀ i, ∀ report ∈ (m.node i).returned, ∀ u ∈ (members i).context.participants, u ≠ self i →
      ∃ j, self j = u ∧ report.round < (m.node j).begun) ∧
    (∀ i j, j ≠ i → ∀ report ∈ (m.node i).returned, report.round < (m.node j).begun) ∧
    ∀ i j, (m.node i).begun ≤ (m.node j).begun + 1 := by
  intro members m
  have hlengths : ∀ i j,
      (members i).context.payload.length = (members j).context.payload.length := by
    intro i j
    show (canonicalPayload (config i).payloadLength).length
      = (canonicalPayload (config j).payloadLength).length
    rw [hpayload i j]
  have hsound : Sound members m := sound_run (sound_fresh members rounds) hlengths events
  have hothers : ∀ i, ∀ report ∈ (m.node i).returned, ∀ u ∈ (members i).context.participants,
      u ≠ self i → ∃ j, self j = u ∧ report.round < (m.node j).begun := by
    intro i report hreport u hu hne
    exact hsound.begun_of_returned hreport (Context.mem_others.mpr ⟨hu, hne⟩)
  have hbegun : ∀ i j, j ≠ i → ∀ report ∈ (m.node i).returned,
      report.round < (m.node j).begun := by
    intro i j hne report hreport
    have hmember : self j ∈ (members i).context.participants :=
      (hgroup i j (self j)).mpr (Context.self_mem_of _ _ _)
    obtain ⟨k, hk, hlt⟩ := hothers i report hreport (self j) hmember fun h => hne (hself h)
    obtain rfl := hself hk
    exact hlt
  refine ⟨hothers, hbegun, ?_⟩
  intro i j
  by_cases hne : j = i
  · subst hne
    exact Nat.le_succ _
  · -- the round before the last one that was begun has returned
    by_contra hahead
    have hsecond : (m.node i).begun - 2 + 1 < (m.node i).begun := by omega
    obtain ⟨report, hreport, hround⟩ := (hsound.nodes i).earlier _ hsecond
    have hlt := hbegun i j hne report (List.mem_append_left _ hreport)
    omega

def pairName (i : Bool) : Uuid := ⟨⟨List.replicate 16 (if i then 2 else 1), by simp⟩⟩

def pairConfig : Config := { Config.fast with payloadLength := 3 }

/-- Two participants who dial each other in a round; the first one goes on to the next round while
the second one has not looked at the end of this. -/
def pairEvents : List (Mesh.Event Bool) :=
  [.proceed false, .happen false (.heard (.tcp ⟨"second", 0⟩ "host" 1)),
    .connect false "second" true,
    .proceed true, .happen true (.heard (.tcp ⟨"first", 0⟩ "host" 2)), .connect true "first" false,
    .accept 0, .carryRequest 0 5, .accept 1, .carryRequest 1 20, .carryRequest 0 15,
    .carryResponse 0 20, .carryResponse 1 7, .carryResponse 1 13,
    .happen false (.concluded "second"), .happen true (.concluded "first"),
    .happen false (.served 0 .hungUp), .happen true (.served 0 .hungUp),
    .happen false (.left 0), .happen true (.left 0), .proceed false, .proceed false]

theorem barrier_pair :
    let m := (fresh (fun i => Coordinator.fresh (pairName i) [pairName false, pairName true]
      pairConfig) fun _ => 2).run pairEvents
    (m.node false).returned.map Report.round = [0] ∧ (m.node false).begun = 2 ∧
      (m.node true).begun = 1 ∧
      (∀ i j, j ≠ i → ∀ report ∈ (m.node i).returned, report.round < (m.node j).begun) ∧
      ∀ i j, (m.node i).begun ≤ (m.node j).begun + 1 := by
  have hself : Function.Injective pairName := by
    intro i j
    revert i j
    decide
  have hsame : ∀ i : Bool, (Coordinator.fresh (pairName i) [pairName false, pairName true]
      pairConfig).context.participants = [pairName false, pairName true] := by
    decide
  obtain ⟨_, hbegun, hclose⟩ := @barrier Bool _ pairName (fun _ => [pairName false, pairName true])
    (fun _ => pairConfig) hself (fun i j u => by rw [hsame i, hsame j]) (fun _ _ => rfl)
    (fun _ => 2) pairEvents
  exact ⟨by decide +kernel, by decide +kernel, by decide +kernel, hbegun, hclose⟩

end Mesh

end BeaconMesh.Round
