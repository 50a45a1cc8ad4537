import BeaconMesh.Proofs.Round.Endings
import BeaconMesh.Round.Coordinator

/-!
What a participant comes to that runs its rounds one after another: the reports of them all, in
order, or what ended the first that failed.
-/

set_option autoImplicit false
set_option relaxedAutoImplicit false

namespace BeaconMesh.Round

/-- What a round can come to. -/
inductive Decided (config : Config) (round : Nat) : Except Fault Report → Prop
  | completed {report : Report} (hcode : round ≤ highest) (hround : report.round = round) :
    Decided config round (.ok report)
  | invalid (hround : highest < round) : Decided config round (.error (.invalidRound round))
  | fatal {fault : Fault} (hfatal : fault.isFatal = true) : Decided config round (.error fault)
  | late {limit : Duration} (hlimit : config.roundTimeout = some limit) :
    Decided config round (.error (.timeout limit))

/-- What a round comes to, with something known of peers at its beginning: it cannot begin, or all
this happens to it. -/
inductive Comes (c : Context) (config : Config) (round : Nat) : Except Fault Report → Prop
  | refused {known : Roster} {fault : Fault}
    (hstart : Run.start c config known round = .error fault) : Comes c config round (.error fault)
  | ended {known : Roster} {r₀ : Run} (hstart : Run.start c config known round = .ok r₀)
    (es : List Event) {result : Except Fault Report}
    (hresult : (r₀.steps es).result = some result) : Comes c config round result

variable {c : Context} {config : Config} {known : Roster} {round : Nat}
  {result : Except Fault Report}

theorem Run.Ending.decided {r : Run} {e : Event} (h : r.Ending e result)
    (hcode : r.round ≤ highest) : Decided r.config r.round result := by
  cases h with
  | completed hround => exact .completed hcode hround
  | refused _ _ _ _ hfatal => exact .fatal hfatal
  | deserted => exact .fatal rfl
  | late _ hlimit => exact .late hlimit

/-- A result that a round comes to was there at its beginning, or has come about by an event. -/
theorem Run.ended {r₀ : Run} (hstart : Run.start c config known round = .ok r₀) {es : List Event}
    (hresult : (r₀.steps es).result = some result) :
    Decided config round result ∧ ((∃ report, result = .ok report) ∨
      ∃ pre e post, es = pre ++ e :: post ∧ (r₀.steps pre).result = none ∧
        (r₀.steps pre).Ending e result) := by
  obtain ⟨hdecisive, hconfig, hround, -, hatOnce⟩ := Run.decisive_start hstart
  have hcode : round ≤ highest := by
    by_contra hhigh
    have hrefused : Run.start c config known round = .error (.invalidRound round) :=
      Run.start_error_iff.mpr ⟨Nat.lt_of_not_le hhigh, rfl⟩
    exact nomatch hrefused.symm.trans hstart
  cases hbeginning : r₀.result with
  | none =>
    obtain ⟨pre, e, post, hes, hrunning, hending⟩ := Run.ending_steps hdecisive hbeginning hresult
    have hcontinues := Run.continues_steps r₀ pre
    have hdecided := hending.decided (hcontinues.round.trans hround ▸ hcode)
    rw [hcontinues.config, hconfig, hcontinues.round, hround] at hdecided
    exact ⟨hdecided, .inr ⟨pre, e, post, hes, hrunning, hending⟩⟩
  | some result' =>
    have hover : r₀.result.isSome = true := by rw [hbeginning]; rfl
    rw [Run.steps_of_isSome hover, hbeginning] at hresult
    cases hresult
    obtain ⟨report, rfl, hreport⟩ := hatOnce _ hbeginning
    exact ⟨.completed hcode hreport, .inl ⟨report, rfl⟩⟩

theorem Comes.decided (h : Comes c config round result) : Decided config round result := by
  cases h with
  | refused hstart =>
    obtain ⟨hround, rfl⟩ := Run.start_error_iff.mp hstart
    exact .invalid hround
  | ended hstart es hresult => exact (Run.ended hstart hresult).1

theorem Comes.round_report {report : Report} (h : Comes c config round (.ok report)) :
    round ≤ highest ∧ report.round = round := by
  cases h.decided with
  | completed hcode hround => exact ⟨hcode, hround⟩

namespace Drive

variable {d : Drive} {rounds : Nat}

/-- A participant on its way: all rounds before the one under way have been reported in order, and
a failure is what ended the round that is next to be reported. -/
structure InOrder (c : Context) (config : Config) (rounds : Nat) (d : Drive) : Prop where
  sameContext : d.coordinator.context = c
  sameConfig : d.coordinator.config = config
  sameRounds : d.rounds = rounds
  bounded : d.begun ≤ rounds
  numbered : d.reports.map Report.round = List.range d.reports.length
  reported : ∀ report ∈ d.reports, Comes c config report.round (.ok report)
  current : ∀ run, d.current = some run → d.failure = none ∧ d.begun = d.reports.length + 1 ∧
    ∃ known r₀ es, Run.start c config known d.reports.length = .ok r₀ ∧ run = r₀.steps es
  failed : ∀ fault, d.failure = some fault → d.begun = d.reports.length + 1 ∧
    Comes c config d.reports.length (.error fault)
  idle : d.current = none → d.failure = none → d.begun = d.reports.length

theorem InOrder.length_le (h : d.InOrder c config rounds) : d.reports.length ≤ highest + 1 := by
  by_contra hmany
  have hlast : d.reports.length - 1 ∈ d.reports.map Report.round := by
    rw [h.numbered]
    exact List.mem_range.mpr (by omega)
  obtain ⟨report, hreport, hround⟩ := List.mem_map.mp hlast
  obtain ⟨hcode, -⟩ := (h.reported report hreport).round_report
  omega

end Drive

open Run (named)

end BeaconMesh.Round
