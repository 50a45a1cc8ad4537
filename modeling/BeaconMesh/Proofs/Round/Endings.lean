import BeaconMesh.Proofs.Round.Dialing

/-!
How a round comes to its result. Of all that goes wrong with attempts and sessions only a fatal
answer ends it; besides, it ends when it has completed, when nobody is left from whom an answer
could come, and when its time is over.
-/

set_option autoImplicit false
set_option relaxedAutoImplicit false

namespace BeaconMesh

namespace QuitSignal

variable {callback : Type} {s : QuitSignal callback}

theorem raised_raise (s : QuitSignal callback) : s.raise.2.raised = true := by
  unfold raise
  split
  · assumption
  · rfl

theorem outcome_of_unraised (h : s.raised = false) : s.outcome = .elapsed := by
  rw [outcome, if_neg (by simp [h])]

end QuitSignal

namespace Round

/-- Whatever is fatal about an attempt, it is an answer that was read. -/
def Attempt.FatalByAnswer (c : Context) (a : Attempt) : Prop :=
  ∀ fault, a.stage = .done (.error fault) → fault.isFatal = true →
    ∃ response objection, c.interpret response = .error objection ∧ fault = .objection objection

theorem Attempt.fatalByAnswer_step {c : Context} {code : UInt8} {limit : Duration} {a : Attempt}
    {n : Notice} (h : a.FatalByAnswer c) : (a.step c code limit n).FatalByAnswer c := by
  intro fault hdone hfatal
  unfold step at hdone
  split at hdone
  · exact h fault hdone hfatal
  · cases hdone
    cases hfatal
  · cases hdone
    cases hfatal
  · cases hdone
  · exact h fault hdone hfatal
  · rename_i received more _
    simp only [receive] at hdone
    split at hdone
    · cases hdone
    · have hverdict := Stage.done.inj hdone
      unfold verdict at hverdict
      split at hverdict
      · cases hverdict
        cases hfatal
      · rename_i response _
        cases hinterpret : c.interpret response with
        | error objection =>
          rw [hinterpret] at hverdict
          cases hverdict
          exact ⟨response, objection, hinterpret, rfl⟩
        | ok sender =>
          rw [hinterpret] at hverdict
          cases hverdict
  · cases hdone
    cases hfatal
  · exact h fault hdone hfatal

namespace ClientRole

variable {r : ClientRole} {quit : QuitSignal Unit} {uuid : String} {fault : Fault}

theorem conclude_error_iff (hunraised : quit.raised = false) :
    r.conclude quit uuid = .error fault ↔
      r.result? uuid = some (.error fault) ∧ fault.isFatal = true := by
  unfold conclude
  rcases r.result? uuid with _ | fault' | participant
  · simp
  · simp only [Option.some.injEq, Except.error.injEq]
    by_cases hfatal : fault'.isFatal = true
    · rw [if_pos hfatal]
      constructor
      · rintro ⟨⟩
        exact ⟨rfl, hfatal⟩
      · rintro ⟨rfl, -⟩
        rfl
    · rw [if_neg hfatal, QuitSignal.register?, if_neg (by simp [hunraised])]
      constructor
      · rintro ⟨⟩
      · rintro ⟨rfl, hfatal'⟩
        exact absurd hfatal' hfatal
  · simp

theorem verdict?_error {others : Uuid.Set} (h : r.verdict? others = some (.error fault)) :
    fault = .streamClosed ∧ r.streamOpen = false ∧ r.attempts = [] ∧ r.retries = [] := by
  unfold verdict? at h
  split at h
  · cases h
  · split at h
    · rename_i hdeserted
      cases h
      simp only [Bool.and_eq_true, Bool.not_eq_true', List.isEmpty_iff] at hdeserted
      exact ⟨rfl, hdeserted.1.1, hdeserted.1.2, hdeserted.2⟩
    · cases h

theorem streamOpen_dial (r : ClientRole) (peer : PeerAvailability) :
    (r.dial peer).streamOpen = r.streamOpen := by
  rcases dial_cases r peer with ⟨heq, -⟩ | ⟨-, -, heq⟩
  · rw [heq]
  · rw [heq]

theorem streamOpen_start (known : Roster) : (start known).streamOpen = true := by
  have hfold : ∀ (peers : Roster) (r : ClientRole),
      (peers.foldl dial r).streamOpen = r.streamOpen := by
    intro peers
    induction peers with
    | nil => exact fun r => rfl
    | cons peer peers ih => exact fun r => (ih (r.dial peer)).trans (streamOpen_dial r peer)
  exact hfold known _

theorem streamOpen_retry (r : ClientRole) (quit : QuitSignal Unit) (timer : Nat) :
    (r.retry quit timer).1.streamOpen = r.streamOpen := by
  unfold retry
  split
  · rfl
  · rename_i dialed _
    cases hlast : r.known.last? dialed with
    | none => simp [hlast]
    | some peer => simp [hlast, streamOpen_dial]

end ClientRole

namespace Run

variable {r : Run} {c : Context}

/-- How a round comes to a result by an event. -/
inductive Ending (r : Run) (e : Event) : Except Fault Report → Prop
  | completed {report : Report} (hround : report.round = r.round) : Ending r e (.ok report)
  | refused {uuid : String} (he : e = .concluded uuid) (hdialing : r.isDialing = true)
    {response : Message} {objection : Objection}
    (hread : r.context.interpret response = .error objection)
    (hanswer : r.client.result? uuid = some (.error (.objection objection)))
    (hfatal : objection.isFatal = true) : Ending r e (.error (.objection objection))
  | deserted (hdialing : r.isDialing = true)
    (hstream : r.client.streamOpen = false ∨ e = .streamEnded)
    (hattempts : (r.take e).client.attempts = []) (hretries : (r.take e).client.retries = []) :
    Ending r e (.error .streamClosed)
  | late (he : e = .limitReached) {limit : Duration} (hlimit : r.config.roundTimeout = some limit) :
    Ending r e (.error (.timeout limit))

/-- The signal has been raised if and only if the round has a result. -/
def Signalled (r : Run) : Prop := r.quit.raised = r.result.isSome

theorem signalled_finish (r : Run) (result : Except Fault Report) : (r.finish result).Signalled :=
  QuitSignal.raised_raise r.quit

theorem signalled_settleClient (h : r.Signalled) : r.settleClient.Signalled := by
  unfold settleClient
  split
  · -- timers are dropped one after another, none of which raises the signal
    have hdrops : ∀ (retries : List (Nat × String)) (quit : QuitSignal Unit),
        (retries.foldl (fun quit t => quit.deregister t.1) quit).raised = quit.raised := by
      intro retries
      induction retries with
      | nil => exact fun quit => rfl
      | cons t retries ih => exact fun quit => ih (quit.deregister t.1)
    exact (hdrops _ _).trans h
  · exact signalled_finish r _
  · exact h

theorem signalled_settleServer (h : r.Signalled) : r.settleServer.Signalled := by
  unfold settleServer
  split
  · exact h
  · exact h

theorem signalled_settleBoth (h : r.Signalled) : r.settleBoth.Signalled := by
  unfold settleBoth
  split
  · exact signalled_finish r _
  · exact h

theorem signalled_settle (h : r.Signalled) : r.settle.Signalled :=
  signalled_settleBoth (signalled_settleServer (signalled_settleClient h))

theorem signalled_onClient (h : r.Signalled)
    {f : ClientRole → QuitSignal Unit → ClientRole × QuitSignal Unit}
    (hf : (f r.client r.quit).2.raised = r.quit.raised) : (r.onClient f).Signalled := by
  unfold onClient
  split
  · exact h
  · exact hf.trans h

theorem signalled_onServer (h : r.Signalled) (f : ServerRole → ServerRole) :
    (r.onServer f).Signalled := by
  unfold onServer
  split
  · exact h
  · exact h

theorem signalled_conclude (h : r.Signalled) (uuid : String) : (r.conclude uuid).Signalled := by
  unfold conclude
  split
  · exact h
  · split
    · rename_i client quit hconclude
      rcases ClientRole.conclude_cases hconclude with ⟨-, -, rfl⟩ | ⟨-, -, rfl, -⟩ |
        ⟨-, -, -, hunraised, rfl, -⟩
      · exact h
      · exact h
      · exact h
    · exact signalled_finish r _

theorem signalled_step (h : r.Signalled) (e : Event) : (r.step e).Signalled := by
  unfold step
  split
  · exact h
  · refine signalled_settle ?_
    cases e with
    | heard | streamEnded | dialed =>
      rw [take]
      exact signalled_onClient h rfl
    | lagged => exact h
    | concluded uuid => exact signalled_conclude h uuid
    | retried timer =>
      rw [take]
      refine signalled_onClient h ?_
      unfold ClientRole.retry
      split
      · rfl
      · rfl
    | accepted | served | left =>
      rw [take]
      exact signalled_onServer h _
    | limitReached =>
      rw [take]
      split
      · exact h
      · exact signalled_finish r _

theorem settle_of_isSome (h : r.result.isSome = true) : r.settle = r := by
  obtain ⟨result, hresult⟩ := Option.isSome_iff_exists.mp h
  have hclient : r.settleClient = r := by
    unfold settleClient
    split
    · rename_i hnone _ _
      exact nomatch hresult.symm.trans hnone
    · rename_i hnone _ _
      exact nomatch hresult.symm.trans hnone
    · rfl
  have hserver : r.settleServer = r := by
    unfold settleServer
    split
    · rename_i hnone _ _
      exact nomatch hresult.symm.trans hnone
    · rfl
  have hboth : r.settleBoth = r := by
    unfold settleBoth
    split
    · rename_i hnone _ _
      exact nomatch hresult.symm.trans hnone
    · rfl
  rw [settle, hclient, hserver, hboth]

theorem settle_result (hrunning : r.result = none) {result : Except Fault Report}
    (hresult : r.settle.result = some result) :
    (∃ report, result = .ok report ∧ report.round = r.round) ∨
    result = .error .streamClosed ∧ r.succeeded = none ∧ r.client.streamOpen = false ∧
      r.client.attempts = [] ∧ r.client.retries = [] := by
  have hserver : ∀ r : Run, r.settleServer.result = r.result ∧ r.settleServer.round = r.round := by
    intro r
    unfold settleServer
    split
    · exact ⟨rfl, rfl⟩
    · exact ⟨rfl, rfl⟩
  have hboth : ∀ r : Run, r.settleBoth.result = some result → r.result = some result ∨
      ∃ report, result = .ok report ∧ report.round = r.round := by
    intro r hresult
    unfold settleBoth at hresult
    split at hresult
    · cases hresult
      exact .inr ⟨_, rfl, rfl⟩
    · exact .inl hresult
  rcases hboth _ hresult with hresult | ⟨report, rfl, hround⟩
  · rw [(hserver _).1] at hresult
    unfold settleClient at hresult
    split at hresult
    · exact nomatch hrunning.symm.trans hresult
    · rename_i fault hsucceeded hverdict
      cases hresult
      obtain ⟨rfl, hstream, hattempts, hretries⟩ := ClientRole.verdict?_error hverdict
      exact .inr ⟨rfl, hsucceeded, hstream, hattempts, hretries⟩
    · exact nomatch hrunning.symm.trans hresult
  · refine .inl ⟨report, rfl, hround.trans ((hserver _).2.trans ?_)⟩
    unfold settleClient
    split
    · rfl
    · rfl
    · rfl

theorem take_result (hrunning : r.result = none) (hsignal : r.Signalled) (e : Event) :
    (r.take e).result = none ∨
    (∃ uuid fault, e = .concluded uuid ∧ r.isDialing = true ∧
      r.client.result? uuid = some (.error fault) ∧ fault.isFatal = true ∧
      (r.take e).result = some (.error fault)) ∨
    ∃ limit, e = .limitReached ∧ r.config.roundTimeout = some limit ∧
      (r.take e).result = some (.error (.timeout limit)) := by
  have hunraised : r.quit.raised = false := by
    rw [hsignal, hrunning]
    rfl
  have hclient : ∀ f, (r.onClient f).result = none := by
    intro f
    unfold onClient
    split
    · exact hrunning
    · exact hrunning
  have hserver : ∀ f, (r.onServer f).result = none := by
    intro f
    unfold onServer
    split
    · exact hrunning
    · exact hrunning
  cases e with
  | heard | streamEnded | dialed | retried => exact .inl (hclient _)
  | lagged => exact .inl hrunning
  | accepted | served | left => exact .inl (hserver _)
  | concluded uuid =>
    rw [take, conclude]
    split
    · exact .inl hrunning
    · rename_i hgoing
      split
      · exact .inl hrunning
      · rename_i fault hconclude
        obtain ⟨hanswer, hfatal⟩ := (ClientRole.conclude_error_iff hunraised).mp hconclude
        have hdialing : r.isDialing = true := isDialing_iff.mpr ⟨hrunning, by simpa using hgoing⟩
        exact .inr (.inl ⟨uuid, fault, rfl, hdialing, hanswer, hfatal, rfl⟩)
  | limitReached =>
    rw [take]
    split
    · exact .inl hrunning
    · rename_i limit hlimit
      refine .inr (.inr ⟨limit, rfl, hlimit, ?_⟩)
      rw [QuitSignal.outcome_of_unraised hunraised]
      rfl

theorem streamOpen_take (r : Run) (e : Event) :
    (r.take e).client.streamOpen = r.client.streamOpen ∨ e = .streamEnded := by
  have hclient : ∀ f, (f r.client r.quit).1.streamOpen = r.client.streamOpen →
      (r.onClient f).client.streamOpen = r.client.streamOpen := by
    intro f hf
    unfold onClient
    split
    · rfl
    · exact hf
  have hserver : ∀ f, (r.onServer f).client = r.client := by
    intro f
    unfold onServer
    split
    · rfl
    · rfl
  cases e with
  | heard peer =>
    rw [take]
    exact .inl (hclient _ (ClientRole.streamOpen_dial r.client peer))
  | dialed uuid n =>
    rw [take]
    exact .inl (hclient _ rfl)
  | retried timer =>
    rw [take]
    exact .inl (hclient _ (ClientRole.streamOpen_retry r.client r.quit timer))
  | lagged => exact .inl rfl
  | streamEnded => exact .inr rfl
  | accepted | served | left =>
    rw [take, hserver]
    exact .inl rfl
  | concluded uuid =>
    refine .inl ?_
    rw [take, conclude]
    split
    · rfl
    · split
      · rename_i client quit hconclude
        rcases ClientRole.conclude_cases hconclude with ⟨-, rfl, -⟩ | ⟨-, -, -, rfl⟩ |
          ⟨-, -, -, -, -, rfl⟩
        · rfl
        · rfl
        · rfl
      · rfl
  | limitReached =>
    rw [take]
    split
    · exact .inl rfl
    · exact .inl rfl

/-- What a round keeps, from which it is seen how it ends. -/
structure Decisive (c : Context) (r : Run) : Prop where
  context : r.context = c
  signal : r.Signalled
  sound : r.Sound (fun _ a => a.FatalByAnswer c) (fun _ _ => True) fun _ => True

theorem decisive_step (h : r.Decisive c) (e : Event) : (r.step e).Decisive c := by
  obtain ⟨rfl, hsignal, hsound⟩ := h
  refine ⟨(continues_step r e).context, signalled_step hsignal e, ?_⟩
  refine sound_step hsound ?_ (fun _ => trivial) (fun _ _ _ _ _ => trivial) ?_
    (fun _ _ _ _ => trivial) e
  · intro uuid fault hdone
    cases hdone
  · intro uuid a n ha
    exact Attempt.fatalByAnswer_step ha

/-- However a round comes to its result, it is in one of these ways. -/
theorem ending_step (h : r.Decisive c) (hrunning : r.result = none) {e : Event}
    {result : Except Fault Report} (hresult : (r.step e).result = some result) :
    r.Ending e result := by
  rw [step, hrunning, if_neg (by simp)] at hresult
  rcases take_result hrunning h.signal e with htaken |
    ⟨uuid, fault, rfl, hdialing, hanswer, hfatal, htaken⟩ | ⟨limit, rfl, hlimit, htaken⟩
  · rcases settle_result htaken hresult with ⟨report, rfl, hround⟩ |
      ⟨rfl, hsucceeded, hstream, hattempts, hretries⟩
    · exact .completed (hround.trans (continues_take r e).round)
    · rw [succeeded_take] at hsucceeded
      refine .deserted (isDialing_iff.mpr ⟨hrunning, hsucceeded⟩) ?_ hattempts hretries
      exact (streamOpen_take r e).imp (fun hsame => hsame.symm.trans hstream) id
  · rw [settle_of_isSome (by rw [htaken]; rfl), htaken] at hresult
    cases hresult
    obtain ⟨d, hd, -, hend⟩ := ClientRole.mem_of_result? hanswer
    obtain ⟨response, objection, hread, rfl⟩ :=
      h.sound.client.attempts d hd fault (Attempt.stage_of_result? hend) hfatal
    exact .refused rfl hdialing (h.context ▸ hread) hanswer hfatal
  · rw [settle_of_isSome (by rw [htaken]; rfl), htaken] at hresult
    cases hresult
    exact .late rfl hlimit

theorem ending_steps (h : r.Decisive c) (hrunning : r.result = none) {es : List Event}
    {result : Except Fault Report} (hresult : (r.steps es).result = some result) :
    ∃ pre e post, es = pre ++ e :: post ∧ (r.steps pre).result = none ∧
      (r.steps pre).Ending e result := by
  induction es generalizing r with
  | nil => exact nomatch hrunning.symm.trans hresult
  | cons e es ih =>
    cases hnext : (r.step e).result with
    | none =>
      obtain ⟨pre, e', post, rfl, hgoing, hending⟩ := ih (decisive_step h e) hnext hresult
      exact ⟨e :: pre, e', post, rfl, hgoing, hending⟩
    | some result' =>
      have hover : (r.step e).result.isSome = true := by rw [hnext]; rfl
      have hsame : (r.step e).steps es = r.step e := steps_of_isSome hover es
      rw [show r.steps (e :: es) = (r.step e).steps es from rfl, hsame] at hresult
      exact ⟨[], e, es, rfl, hrunning, ending_step h hrunning hresult⟩

theorem decisive_steps (h : r.Decisive c) (es : List Event) : (r.steps es).Decisive c := by
  induction es generalizing r with
  | nil => exact h
  | cons e es ih => exact ih (decisive_step h e)

theorem streamOpen_settle (r : Run) : r.settle.client.streamOpen = r.client.streamOpen := by
  have hclient : r.settleClient.client.streamOpen = r.client.streamOpen := by
    unfold settleClient
    split
    · rfl
    · rfl
    · rfl
  have hserver : ∀ r : Run, r.settleServer.client.streamOpen = r.client.streamOpen := by
    intro r
    unfold settleServer
    split
    · rfl
    · rfl
  have hboth : ∀ r : Run, r.settleBoth.client.streamOpen = r.client.streamOpen := by
    intro r
    unfold settleBoth
    split
    · rfl
    · rfl
  rw [settle, hboth, hserver, hclient]

theorem decisive_start {config : Config} {known : Roster} {round : Nat}
    (hstart : start c config known round = .ok r) :
    r.Decisive c ∧ r.config = config ∧ r.round = round ∧ r.client.streamOpen = true ∧
      ∀ result, r.result = some result → ∃ report, result = .ok report ∧ report.round = round := by
  obtain ⟨hcontext, hround, -⟩ := start_ok hstart
  have hsound : r.Sound (fun _ a => a.FatalByAnswer c) (fun _ _ => True) fun _ => True := by
    refine sound_start hstart ?_
    intro uuid fault hdone
    cases hdone
  obtain ⟨code, quit, hunraised, rfl⟩ := start_eq_settle hstart
  have hstream : (settle ⟨c, config, round, code, quit, .start known, .start, none, none,
      none⟩).client.streamOpen = true :=
    (streamOpen_settle _).trans (ClientRole.streamOpen_start known)
  refine ⟨⟨hcontext, signalled_settle hunraised, hsound⟩, (continues_settle _).config, hround,
    hstream, ?_⟩
  intro result hresult
  rcases settle_result rfl hresult with ⟨report, rfl, hsame⟩ | ⟨-, -, hclosed, -⟩
  · exact ⟨report, rfl, hsame⟩
  · exact nomatch (ClientRole.streamOpen_start known).symm.trans hclosed

theorem registerLimit_fresh (config : Config) :
    ∃ quit, registerLimit .fresh config = .ok quit ∧ quit.raised = false := by
  unfold registerLimit
  split
  · exact ⟨_, rfl, rfl⟩
  · exact ⟨_, rfl, rfl⟩

theorem start_error_iff {config : Config} {known : Roster} {round : Nat} {fault : Fault} :
    start c config known round = .error fault ↔
      highest < round ∧ fault = .invalidRound round := by
  obtain ⟨quit, hregister, hunraised⟩ := registerLimit_fresh config
  unfold start code?
  by_cases hround : round ≤ highest
  · simp only [if_pos hround, hregister, QuitSignal.onRaise?, hunraised, Bool.false_eq_true,
      if_false]
    constructor
    · rintro ⟨⟩
    · rintro ⟨hhigh, -⟩
      omega
  · simp only [if_neg hround, Except.error.injEq]
    constructor
    · rintro rfl
      exact ⟨by omega, rfl⟩
    · rintro ⟨-, rfl⟩
      rfl

end Run

end Round

end BeaconMesh
