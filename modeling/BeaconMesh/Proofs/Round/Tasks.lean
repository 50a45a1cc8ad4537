import BeaconMesh.Proofs.Round.Completion
import BeaconMesh.Proofs.Round.Counting
import BeaconMesh.Proofs.Round.Endings
import BeaconMesh.Round.Tasks

/-!
What a round's events make of its tasks: the sets hold just what the two halves of the round count,
whatever is at work is in its set, and the callback of the signal has a handle for every attempt
that is.
-/

set_option autoImplicit false
set_option relaxedAutoImplicit false

namespace BeaconMesh

namespace QuitSignal

variable {callback : Type} {s : QuitSignal callback}

/-- A signal with one callback, as long as it has not been raised. -/
structure Armed (c : callback) (s : QuitSignal callback) : Prop where
  callbacks : s.raised = false → s.callbacks = [c]
  emptied : s.raised = true → s.timers = [] ∧ s.callbacks = []

variable {c : callback}

theorem Armed.raise (h : s.Armed c) : s.raise.2.Armed c := by
  unfold QuitSignal.raise
  split
  · exact h
  · exact ⟨fun hunraised => (nomatch hunraised), fun _ => ⟨rfl, rfl⟩⟩

theorem Armed.deregister (h : s.Armed c) (timer : Nat) : (s.deregister timer).Armed c := by
  refine ⟨h.callbacks, fun hraised => ?_⟩
  obtain ⟨htimers, hcallbacks⟩ := h.emptied hraised
  refine ⟨?_, hcallbacks⟩
  rw [QuitSignal.deregister, htimers]
  rfl

theorem Armed.register (h : s.Armed c) (hunraised : s.raised = false) (next : Nat)
    (timers : List Nat) : Armed c { s with nextTimer := next, timers := timers } := by
  refine ⟨h.callbacks, fun hraised => ?_⟩
  cases hunraised.symm.trans hraised

end QuitSignal

namespace Round

namespace Tasks

variable {σ : Type} {ended : σ → Bool} {ts : Tasks σ}

def Stopped (ended : σ → Bool) (ts : Tasks σ) : Prop := ∀ t ∈ ts, t.stopped ended = true

def Held (ended : σ → Bool) (ts : Tasks σ) : Prop :=
  ∀ t ∈ ts, t.stopped ended = true ∨ t.held = true

def Handled (ended : σ → Bool) (ts : Tasks σ) : Prop :=
  ∀ t ∈ ts, t.stopped ended = true ∨ t.tracked = true

theorem stopped_abort (ended : σ → Bool) (t : Task σ) : (t.abort ended).stopped ended = true := by
  cases hover : ended t.state <;> simp [Task.abort, Task.stopped, hover]

@[simp] theorem inSet_spawn (ts : Tasks σ) (s : σ) : (ts.spawn s).inSet = ts.inSet ++ [s] := by
  simp [inSet, spawn]

private theorem inSet_map (ts : Tasks σ) {g : Task σ → Task σ} (hheld : ∀ t, (g t).held = t.held)
    (hstate : ∀ t, (g t).state = t.state) : inSet (ts.map g) = ts.inSet := by
  induction ts with
  | nil => rfl
  | cons t ts ih =>
    rw [inSet, inSet, List.map_cons, List.filter_cons, List.filter_cons, hheld]
    split
    · rw [List.map_cons, List.map_cons, hstate]
      exact congrArg (t.state :: ·) ih
    · exact ih

@[simp] theorem inSet_track (ts : Tasks σ) (s : σ) :
    (ts.track ended s).inSet = ts.inSet ++ [s] := by
  have hpruned : inSet (ts.map fun t => { t with tracked := t.tracked && !ended t.state })
      = ts.inSet := inSet_map ts (fun _ => rfl) fun _ => rfl
  rw [track, inSet, List.filter_append, List.map_append, ← inSet, hpruned]
  rfl

@[simp] theorem inSet_abortTracked (ts : Tasks σ) :
    (ts.abortTracked ended).inSet = ts.inSet := by
  refine inSet_map ts ?_ ?_
  · intro t
    split <;> rfl
  · intro t
    split <;> rfl

@[simp] theorem inSet_drop (ts : Tasks σ) : (ts.drop ended).inSet = [] := by
  rw [inSet, List.map_eq_nil_iff, List.filter_eq_nil_iff]
  intro t ht
  obtain ⟨before, _, rfl⟩ := List.mem_map.mp ht
  split
  · exact Bool.false_ne_true
  · assumption

@[simp] theorem inSet_notice (ts : Tasks σ) (f : σ → σ) :
    (ts.notice f).inSet = ts.inSet.map f := by
  induction ts with
  | nil => rfl
  | cons t ts ih =>
    rw [inSet, inSet, notice, List.map_cons, List.filter_cons, List.filter_cons]
    cases hheld : t.held with
    | false =>
      simp only [hheld, Bool.false_eq_true, if_false]
      exact ih
    | true =>
      simp only [if_true, List.map_cons]
      exact congrArg (f t.state :: ·) ih

@[simp] theorem inSet_join (ts : Tasks σ) (p : σ → Bool) :
    (ts.join ended p).inSet = ts.inSet.filter fun s => !(ended s && p s) := by
  induction ts with
  | nil => rfl
  | cons t ts ih =>
    have hrest : inSet (Tasks.join ended ts p) = _ := ih
    rw [inSet, inSet, join, List.map_cons, List.filter_cons, List.filter_cons]
    cases hheld : t.held with
    | false =>
      simp only [hheld, Bool.false_and, Bool.false_eq_true, if_false]
      exact hrest
    | true =>
      cases hjoined : ended t.state && p t.state with
      | false =>
        simp only [hheld, Bool.true_and, hjoined, Bool.false_eq_true, if_false, if_true,
          List.map_cons, List.filter_cons, Bool.not_false]
        exact congrArg (t.state :: ·) hrest
      | true =>
        simp only [Bool.true_and, hjoined, if_true, Bool.false_eq_true, if_false, List.map_cons,
          List.filter_cons, Bool.not_true]
        exact hrest

theorem Stopped.held (h : ts.Stopped ended) : ts.Held ended := fun t ht => .inl (h t ht)

theorem Stopped.handled (h : ts.Stopped ended) : ts.Handled ended := fun t ht => .inl (h t ht)

theorem Held.stopped (h : ts.Held ended) (hempty : ts.inSet = []) : ts.Stopped ended := by
  intro t ht
  rw [inSet, List.map_eq_nil_iff, List.filter_eq_nil_iff] at hempty
  exact (h t ht).resolve_right (hempty t ht)

theorem Held.spawn (h : ts.Held ended) (s : σ) : (ts.spawn s).Held ended := by
  intro t ht
  rcases List.mem_append.mp ht with ht | ht
  · exact h t ht
  · obtain rfl := List.mem_singleton.mp ht
    exact .inr rfl

theorem Held.track (h : ts.Held ended) (s : σ) : (ts.track ended s).Held ended := by
  intro t ht
  rcases List.mem_append.mp ht with ht | ht
  · obtain ⟨before, hbefore, rfl⟩ := List.mem_map.mp ht
    exact h before hbefore
  · obtain rfl := List.mem_singleton.mp ht
    exact .inr rfl

theorem Handled.track (h : ts.Handled ended) (s : σ) : (ts.track ended s).Handled ended := by
  intro t ht
  rcases List.mem_append.mp ht with ht | ht
  · obtain ⟨before, hbefore, rfl⟩ := List.mem_map.mp ht
    rcases h before hbefore with hstopped | htracked
    · exact .inl hstopped
    · cases hover : ended before.state with
      | false => exact .inr (by simp [htracked])
      | true => exact .inl (by simp [Task.stopped, hover])
  · obtain rfl := List.mem_singleton.mp ht
    exact .inr rfl

private theorem stopped_notice {f : σ → σ} (hf : ∀ s, ended s = true → ended (f s) = true)
    {t : Task σ} (h : t.stopped ended = true) :
    (if t.held then { t with state := f t.state } else t).stopped ended = true := by
  split
  · rcases Bool.or_eq_true_iff.mp h with hover | haborted
    · exact Bool.or_eq_true_iff.mpr (.inl (hf t.state hover))
    · exact Bool.or_eq_true_iff.mpr (.inr haborted)
  · exact h

theorem Held.notice {f : σ → σ} (h : ts.Held ended)
    (hf : ∀ s, ended s = true → ended (f s) = true) : (ts.notice f).Held ended := by
  intro t ht
  obtain ⟨before, hbefore, rfl⟩ := List.mem_map.mp ht
  rcases h before hbefore with hstopped | hheld
  · exact .inl (stopped_notice hf hstopped)
  · exact .inr (by rw [if_pos hheld]; exact hheld)

theorem Handled.notice {f : σ → σ} (h : ts.Handled ended)
    (hf : ∀ s, ended s = true → ended (f s) = true) : (ts.notice f).Handled ended := by
  intro t ht
  obtain ⟨before, hbefore, rfl⟩ := List.mem_map.mp ht
  rcases h before hbefore with hstopped | htracked
  · exact .inl (stopped_notice hf hstopped)
  · refine .inr ?_
    split <;> exact htracked

theorem Held.join (h : ts.Held ended) (p : σ → Bool) : (ts.join ended p).Held ended := by
  intro t ht
  obtain ⟨before, hbefore, rfl⟩ := List.mem_map.mp ht
  split
  · rename_i hjoined
    simp only [Bool.and_eq_true] at hjoined
    exact .inl (Bool.or_eq_true_iff.mpr (.inl hjoined.1.2))
  · exact h before hbefore

theorem Handled.join (h : ts.Handled ended) (p : σ → Bool) : (ts.join ended p).Handled ended := by
  intro t ht
  obtain ⟨before, hbefore, rfl⟩ := List.mem_map.mp ht
  split <;> exact h before hbefore

theorem Held.drop (h : ts.Held ended) : (ts.drop ended).Stopped ended := by
  intro t ht
  obtain ⟨before, hbefore, rfl⟩ := List.mem_map.mp ht
  split
  · exact stopped_abort ended before
  · rename_i hreleased
    exact (h before hbefore).resolve_right hreleased

theorem Handled.abortTracked (h : ts.Handled ended) : (ts.abortTracked ended).Stopped ended := by
  intro t ht
  obtain ⟨before, hbefore, rfl⟩ := List.mem_map.mp ht
  split
  · exact stopped_abort ended before
  · rename_i huntracked
    exact (h before hbefore).resolve_right huntracked

theorem Held.abortTracked (h : ts.Held ended) : (ts.abortTracked ended).Held ended := by
  intro t ht
  obtain ⟨before, hbefore, rfl⟩ := List.mem_map.mp ht
  split
  · exact .inl (stopped_abort ended before)
  · exact h before hbefore

theorem Stopped.abortTracked (h : ts.Stopped ended) : (ts.abortTracked ended).Stopped ended :=
  h.handled.abortTracked

end Tasks

theorem Dial.step_of_ended {d : Dial} (h : d.ended = true) (x : Context) (code : UInt8)
    (limit : Duration) (n : Notice) : { d with attempt := d.attempt.step x code limit n } = d := by
  rw [Attempt.step_of_isSome h]

theorem Session.step_of_isSome {s : Session} (h : s.result?.isSome = true) (x : Context)
    (code : UInt8) (limit : Duration) (n : Notice) : s.step x code limit n = s := by
  rcases s with ⟨received | sender | result, written⟩
  case done => rfl
  all_goals cases h

namespace Crew

variable {r : Run} {c : Crew}

structure Held (c : Crew) : Prop where
  dials : c.dials.Held Dial.ended
  waits : c.waits.Held Wait.ended
  sessions : c.sessions.Held Served.ended

structure Stopped (c : Crew) : Prop where
  dials : c.dials.Stopped Dial.ended
  waits : c.waits.Stopped Wait.ended
  sessions : c.sessions.Stopped Served.ended

structure Released (c : Crew) : Prop where
  dials : c.dials.inSet = []
  waits : c.waits.inSet = []
  sessions : c.sessions.inSet = []

/-- The tasks of a round: what it counts as under way is in the sets, and what is at work is. A half
that is over has left nothing in its sets. -/
structure Tended (r : Run) (c : Crew) : Prop where
  attempts : c.dials.inSet = r.client.attempts
  retries : c.waits.inSet.map Wait.retry = r.client.retries
  sessions : c.sessions.inSet = r.server.sessions
  held : c.Held
  handled : c.dials.Handled Dial.ended
  armed : r.quit.Armed ()
  dialed : r.succeeded.isSome = true → r.client.attempts = [] ∧ r.client.retries = []
  served : r.validated.isSome = true → r.server.sessions = []
  ended : r.result.isSome = true →
    r.client.attempts = [] ∧ r.client.retries = [] ∧ r.server.sessions = []

/-- Callbacks that are run one after another keep what each of them keeps. -/
theorem raise_induction {P : Crew → Prop} (h : P c) (quit : QuitSignal Unit)
    (hcallback : ∀ c, P c → P { c with dials := c.dials.abortTracked Dial.ended }) :
    P (c.raise quit) := by
  have hfold : ∀ (callbacks : List Unit) (c : Crew), P c → P (callbacks.foldl
      (fun c _ => { c with dials := c.dials.abortTracked Dial.ended }) c) := by
    intro callbacks
    induction callbacks with
    | nil => exact fun c h => h
    | cons _ callbacks ih => exact fun c h => ih _ (hcallback c h)
  exact hfold _ c h

theorem Held.raise (h : c.Held) (quit : QuitSignal Unit) : (c.raise quit).Held :=
  raise_induction h quit fun _ h => ⟨h.dials.abortTracked, h.waits, h.sessions⟩

theorem Stopped.raise (h : c.Stopped) (quit : QuitSignal Unit) : (c.raise quit).Stopped :=
  raise_induction h quit fun _ h => ⟨h.dials.abortTracked, h.waits, h.sessions⟩

theorem Released.raise (h : c.Released) (quit : QuitSignal Unit) : (c.raise quit).Released :=
  raise_induction h quit fun _ h =>
    ⟨(Tasks.inSet_abortTracked _).trans h.dials, h.waits, h.sessions⟩

/-- Raising the signal stops all attempts, whether or not their set is dropped. -/
theorem stopped_raise {quit : QuitSignal Unit} (hhandled : c.dials.Handled Dial.ended)
    (harmed : quit.Armed ()) (hunraised : quit.raised = false) :
    (c.raise quit).dials.Stopped Dial.ended := by
  have hcallbacks : quit.raise.1 = [()] := by
    rw [QuitSignal.raise, hunraised, if_neg Bool.false_ne_true]
    exact harmed.callbacks hunraised
  rw [raise, hcallbacks]
  exact hhandled.abortTracked

theorem Held.stopped (h : c.Held) (hreleased : c.Released) : c.Stopped :=
  ⟨h.dials.stopped hreleased.dials, h.waits.stopped hreleased.waits,
    h.sessions.stopped hreleased.sessions⟩

theorem Held.drop (h : c.Held) : (c.dropClient.dropServer).Stopped :=
  ⟨h.dials.drop, h.waits.drop, h.sessions.drop⟩

theorem released_drop (c : Crew) : (c.dropClient.dropServer).Released :=
  ⟨Tasks.inSet_drop _, Tasks.inSet_drop _, Tasks.inSet_drop _⟩

theorem tended_finish (harmed : r.quit.Armed ()) (hstopped : c.Stopped) (hreleased : c.Released)
    (result : Except Fault Report) : Tended (r.finish result) c where
  attempts := hreleased.dials
  retries := by rw [hreleased.waits]; rfl
  sessions := hreleased.sessions
  held := ⟨hstopped.dials.held, hstopped.waits.held, hstopped.sessions.held⟩
  handled := hstopped.dials.handled
  armed := harmed.raise
  dialed := fun _ => ⟨rfl, rfl⟩
  served := fun _ => rfl
  ended := fun _ => ⟨rfl, rfl, rfl⟩

theorem tended_fail (h : Tended r c) (result : Except Fault Report) :
    Tended (r.finish result) (c.fail r.quit) :=
  tended_finish h.armed (h.held.drop.raise r.quit) ((released_drop c).raise r.quit) result

theorem tended_settleClient (h : Tended r c) : Tended r.settleClient (c.settleClient r) := by
  unfold Run.settleClient settleClient
  cases hresult : r.result with
  | some result => exact h
  | none =>
    cases hsucceeded : r.succeeded with
    | some us => exact h
    | none =>
      rcases hverdict : r.client.verdict? r.context.others with _ | fault | us
      · exact h
      · exact tended_fail h _
      · have hdrops : ∀ (retries : List (Nat × String)) (quit : QuitSignal Unit),
            quit.Armed () →
            (retries.foldl (fun quit t => quit.deregister t.1) quit).Armed () := by
          intro retries
          induction retries with
          | nil => exact fun quit h => h
          | cons t retries ih => exact fun quit h => ih _ (h.deregister t.1)
        exact {
          attempts := Tasks.inSet_drop _
          retries := congrArg (List.map Wait.retry) (Tasks.inSet_drop _)
          sessions := h.sessions
          held := ⟨h.held.dials.drop.held, h.held.waits.drop.held, h.held.sessions⟩
          handled := h.held.dials.drop.handled
          armed := hdrops _ _ h.armed
          dialed := fun _ => ⟨rfl, rfl⟩
          served := h.served
          ended := fun hover => nomatch hover }

theorem tended_settleServer (h : Tended r c) : Tended r.settleServer (c.settleServer r) := by
  unfold Run.settleServer settleServer
  cases hresult : r.result with
  | some result => exact h
  | none =>
    cases hvalidated : r.validated with
    | some us => exact h
    | none =>
      cases hverdict : r.server.verdict? r.context.others with
      | none => exact h
      | some us =>
        exact {
          attempts := h.attempts
          retries := h.retries
          sessions := Tasks.inSet_drop _
          held := ⟨h.held.dials, h.held.waits, h.held.sessions.drop.held⟩
          handled := h.handled
          armed := h.armed
          dialed := h.dialed
          served := fun _ => rfl
          ended := fun hover => nomatch hover }

theorem Tended.released (h : Tended r c) (hattempts : r.client.attempts = [])
    (hretries : r.client.retries = []) (hsessions : r.server.sessions = []) : c.Released :=
  ⟨h.attempts.trans hattempts, List.map_eq_nil_iff.mp (h.retries.trans hretries),
    h.sessions.trans hsessions⟩

theorem tended_settleBoth (h : Tended r c) : Tended r.settleBoth (c.settleBoth r) := by
  unfold Run.settleBoth settleBoth
  cases hresult : r.result with
  | some result => exact h
  | none =>
    cases hsucceeded : r.succeeded with
    | none => exact h
    | some succeeded =>
      cases hvalidated : r.validated with
      | none => exact h
      | some validated =>
        obtain ⟨hattempts, hretries⟩ := h.dialed (Option.isSome_of_eq_some hsucceeded)
        have hsessions := h.served (Option.isSome_of_eq_some hvalidated)
        have hreleased := h.released hattempts hretries hsessions
        exact tended_finish h.armed ((h.held.stopped hreleased).raise r.quit)
          (hreleased.raise r.quit) _

theorem tended_settle (h : Tended r c) : Tended r.settle (c.settle r) :=
  tended_settleBoth (tended_settleServer (tended_settleClient h))

theorem Tended.onClient (h : Tended r c) (hlive : r.isDialing = true) {client : ClientRole}
    {quit : QuitSignal Unit} {dials : Tasks Dial} {waits : Tasks Wait}
    (hattempts : dials.inSet = client.attempts)
    (hretries : waits.inSet.map Wait.retry = client.retries) (hdials : dials.Held Dial.ended)
    (hhandled : dials.Handled Dial.ended) (hwaits : waits.Held Wait.ended)
    (harmed : quit.Armed ()) :
    Tended { r with client := client, quit := quit } { c with dials := dials, waits := waits } := by
  obtain ⟨hresult, hsucceeded⟩ := Run.isDialing_iff.mp hlive
  refine ⟨hattempts, hretries, h.sessions, ⟨hdials, hwaits, h.held.sessions⟩, hhandled, harmed, ?_,
    h.served, ?_⟩
  · intro hover
    exact nomatch (hsucceeded ▸ hover : (none : Option Uuid.Set).isSome = true)
  · intro hover
    exact nomatch (hresult ▸ hover : (none : Option (Except Fault Report)).isSome = true)

theorem tended_dial (h : Tended r c) (hlive : r.isDialing = true) (peer : PeerAvailability) :
    Tended { r with client := r.client.dial peer } (c.dial r.client peer) := by
  unfold ClientRole.dial dial
  split
  · refine h.onClient hlive ?_ h.retries (h.held.dials.track _) (h.handled.track _) h.held.waits
      h.armed
    rw [Tasks.inSet_track, h.attempts]
  · exact h

theorem tended_dialAll (h : Tended r c) (hlive : r.isDialing = true) (peers : Roster) :
    Tended { r with client := peers.foldl ClientRole.dial r.client }
      (dialAll r.client c peers) := by
  induction peers generalizing r c with
  | nil => exact h
  | cons peer peers ih => exact ih (tended_dial h hlive peer) hlive

theorem ended_of_result? {client : ClientRole} {uuid : String} {result : Except Fault Uuid}
    (hresult : client.result? uuid = some result)
    (hdistinct : (client.attempts.map fun d => d.peer.uuid).Nodup) {d : Dial}
    (hd : d ∈ client.attempts) (huuid : d.peer.uuid = uuid) : d.ended = true := by
  obtain ⟨d', hd', huuid', hdone⟩ := ClientRole.mem_of_result? hresult
  obtain rfl := List.inj_on_of_nodup_map hdistinct hd hd' (huuid.trans huuid'.symm)
  exact Option.isSome_of_eq_some hdone

theorem tended_conclude (h : Tended r c) (hlive : r.isDialing = true)
    (hdistinct : (r.client.attempts.map fun d => d.peer.uuid).Nodup) (uuid : String) :
    Tended (r.conclude uuid) (c.conclude r uuid) := by
  obtain ⟨-, hsucceeded⟩ := Run.isDialing_iff.mp hlive
  rw [Run.conclude, if_neg (by simp [hsucceeded]), conclude, ClientRole.conclude]
  cases hresult : r.client.result? uuid with
  | none => exact h
  | some result =>
    have hheld : Held { c with dials := c.dials.join Dial.ended fun d => d.peer.uuid == uuid } :=
      ⟨h.held.dials.join fun d => d.peer.uuid == uuid, h.held.waits, h.held.sessions⟩
    -- nobody is dialed twice at a time, so that only this attempt leaves the set
    have hjoined : (c.dials.join Dial.ended fun d => d.peer.uuid == uuid).inSet
        = r.client.attempts.filter fun d => d.peer.uuid != uuid := by
      rw [Tasks.inSet_join, h.attempts]
      refine List.filter_congr fun d hd => ?_
      cases hsame : d.peer.uuid == uuid with
      | false => simp [bne, hsame]
      | true =>
        have hover := ended_of_result? hresult hdistinct hd (by simpa using hsame)
        simp [bne, hsame, hover]
    cases result with
    | ok participant =>
      exact h.onClient hlive hjoined h.retries hheld.dials (h.handled.join _) h.held.waits h.armed
    | error fault =>
      cases hfatal : fault.isFatal with
      | true =>
        -- here the signal is raised first, while the sets are still there
        simp only [hfatal, if_true]
        exact tended_finish h.armed (hheld.raise r.quit).drop (released_drop _) _
      | false =>
        simp only [hfatal, Bool.false_eq_true, if_false]
        cases hregister : r.quit.register? with
        | none =>
          exact tended_finish h.armed (hheld.drop.raise r.quit) ((released_drop _).raise r.quit) _
        | some registered =>
          unfold QuitSignal.register? at hregister
          split at hregister
          · cases hregister
          · rename_i hunraised
            cases hregister
            refine h.onClient hlive hjoined ?_ hheld.dials
              (h.handled.join fun d => d.peer.uuid == uuid) (h.held.waits.spawn _)
              (h.armed.register (by simpa using hunraised) _ _)
            rw [Tasks.inSet_spawn, List.map_append, h.retries]
            rfl

private theorem map_retry_join (ws : List Wait) (timer : Nat) :
    ((ws.map (Wait.elapse timer)).filter fun w => !(w.ended && w.timer == timer)).map Wait.retry
      = (ws.map Wait.retry).filter fun t => t.1 != timer := by
  induction ws with
  | nil => rfl
  | cons w ws ih =>
    simp only [List.map_cons, List.filter_cons]
    by_cases hthis : w.timer = timer
    · simpa [hthis, Wait.elapse, Wait.ended, Wait.retry] using ih
    · simpa [hthis, Wait.elapse, Wait.ended, Wait.retry] using ih

theorem tended_retry (h : Tended r c) (hlive : r.isDialing = true) (timer : Nat) :
    Tended { r with client := (r.client.retry r.quit timer).1
                    quit := (r.client.retry r.quit timer).2 } (c.retry r.client timer) := by
  rw [ClientRole.retry, retry]
  cases hfind : r.client.retries.find? fun t => t.1 == timer with
  | none => exact h
  | some entry =>
    obtain ⟨number, uuid⟩ := entry
    have helapses : ∀ w : Wait, w.ended = true → (w.elapse timer).ended = true := by
      intro w hover
      unfold Wait.elapse
      split
      · rfl
      · exact hover
    have hwaited : Tended
        { r with
          client := { r.client with retries := r.client.retries.filter fun t => t.1 != timer }
          quit := r.quit.deregister timer }
        { c with waits :=
            (c.waits.notice (Wait.elapse timer)).join Wait.ended fun w => w.timer == timer } := by
      refine h.onClient hlive h.attempts ?_ h.held.dials h.handled
        ((h.held.waits.notice helapses).join _) (h.armed.deregister timer)
      rw [Tasks.inSet_join, Tasks.inSet_notice, map_retry_join, h.retries]
    cases hlast : r.client.known.last? uuid with
    | none =>
      simp only [hlast]
      exact hwaited
    | some peer =>
      simp only [hlast]
      exact tended_dial hwaited hlive peer

theorem Tended.onServer (h : Tended r c) (hgoing : r.validated = none) (hresult : r.result = none)
    {server : ServerRole} {sessions : Tasks Served} (hsessions : sessions.inSet = server.sessions)
    (hheld : sessions.Held Served.ended) :
    Tended { r with server := server } { c with sessions := sessions } := by
  refine ⟨h.attempts, h.retries, hsessions, ⟨h.held.dials, h.held.waits, hheld⟩, h.handled,
    h.armed, h.dialed, ?_, ?_⟩
  · intro hover
    exact nomatch (hgoing ▸ hover : (none : Option Uuid.Set).isSome = true)
  · intro hover
    exact nomatch (hresult ▸ hover : (none : Option (Except Fault Report)).isSome = true)

theorem sessions_conclude {server : ServerRole} (hdistinct : (server.sessions.map Prod.fst).Nodup)
    (number : Nat) : (server.conclude number).sessions
      = server.sessions.filter fun s => !(Served.ended s && s.1 == number) := by
  have hsame : ∀ s ∈ server.sessions, s.1 = number →
      Served.ended s = (server.result? number).isSome := by
    intro s hs hnumber
    have hfind : server.sessions.find? (fun s => s.1 == number) = some s := by
      cases hfound : server.sessions.find? fun s => s.1 == number with
      | none => exact absurd hnumber (by simpa using List.find?_eq_none.mp hfound s hs)
      | some s' =>
        have hnumber' : s'.1 = number := by simpa using List.find?_some hfound
        rw [List.inj_on_of_nodup_map hdistinct hs (List.mem_of_find?_eq_some hfound)
          (hnumber.trans hnumber'.symm)]
    rw [ServerRole.result?, hfind]
    rfl
  unfold ServerRole.conclude
  cases hresult : server.result? number with
  | none =>
    refine (List.filter_eq_self.mpr fun s hs => ?_).symm
    by_cases hnumber : s.1 = number
    · simp [hsame s hs hnumber, hresult]
    · simp [hnumber]
  | some result =>
    have htaken : (server.sessions.filter fun s => s.1 != number)
        = server.sessions.filter fun s => !(Served.ended s && s.1 == number) := by
      refine List.filter_congr fun s hs => ?_
      by_cases hnumber : s.1 = number
      · simp [hsame s hs hnumber, hresult, hnumber]
      · simp [bne, beq_eq_false_iff_ne.mpr hnumber]
    simp only
    split <;> exact htaken

theorem tended_take {x : Context} (h : Tended r c) (hcounts : r.Counts x)
    (hresult : r.result = none) (e : Event) : Tended (r.take e) (c.take r e) := by
  have hlive : ¬ r.succeeded.isSome = true → r.isDialing = true := fun hgoing =>
    Run.isDialing_iff.mpr ⟨hresult, by simpa using hgoing⟩
  have hserving : ¬ r.validated.isSome = true → r.validated = none := fun hgoing => by
    simpa using hgoing
  cases e with
  | lagged missed => exact h
  | heard peer =>
    simp only [Run.take, Run.onClient, take]
    split
    · exact h
    · rename_i hgoing
      have hdialed := tended_dial h (hlive hgoing) peer
      exact ⟨hdialed.attempts, hdialed.retries, hdialed.sessions, hdialed.held, hdialed.handled,
        hdialed.armed, hdialed.dialed, hdialed.served, hdialed.ended⟩
  | streamEnded =>
    simp only [Run.take, Run.onClient, take]
    split
    · exact h
    · exact ⟨h.attempts, h.retries, h.sessions, h.held, h.handled, h.armed, h.dialed, h.served,
        h.ended⟩
  | dialed uuid n =>
    simp only [Run.take, Run.onClient, take]
    split
    · exact h
    · rename_i hgoing
      have hkeeps : ∀ d : Dial, d.ended = true → Dial.ended (if d.peer.uuid = uuid then
          { d with attempt := d.attempt.step r.context r.code r.config.exchangeTimeout n }
          else d) = true := by
        intro d hover
        split
        · rw [Dial.step_of_ended hover]
          exact hover
        · exact hover
      refine h.onClient (hlive hgoing) ?_ h.retries (h.held.dials.notice hkeeps)
        (h.handled.notice hkeeps) h.held.waits h.armed
      rw [Tasks.inSet_notice, h.attempts]
      rfl
  | concluded uuid =>
    simp only [Run.take, take]
    split
    · rename_i hover
      rw [Run.conclude, if_pos hover]
      exact h
    · rename_i hgoing
      exact tended_conclude h (hlive hgoing) hcounts.sound.client.distinct uuid
  | retried timer =>
    simp only [Run.take, Run.onClient, take]
    split
    · exact h
    · rename_i hgoing
      exact tended_retry h (hlive hgoing) timer
  | accepted =>
    simp only [Run.take, Run.onServer, take]
    split
    · exact h
    · rename_i hgoing
      refine h.onServer (hserving hgoing) hresult ?_ (h.held.sessions.spawn _)
      rw [Tasks.inSet_spawn, h.sessions]
      rfl
  | served number n =>
    simp only [Run.take, Run.onServer, take]
    split
    · exact h
    · rename_i hgoing
      have hkeeps : ∀ s : Served, Served.ended s = true → Served.ended (if s.1 = number then
          (s.1, s.2.step r.context r.code r.config.exchangeTimeout n) else s) = true := by
        intro s hover
        split
        · rw [Session.step_of_isSome hover]
          exact hover
        · exact hover
      refine h.onServer (hserving hgoing) hresult ?_ (h.held.sessions.notice hkeeps)
      rw [Tasks.inSet_notice, h.sessions]
      rfl
  | left number =>
    simp only [Run.take, Run.onServer, take]
    split
    · exact h
    · rename_i hgoing
      refine h.onServer (hserving hgoing) hresult ?_ (h.held.sessions.join _)
      rw [Tasks.inSet_join, h.sessions, sessions_conclude hcounts.sound.server.distinct]
  | limitReached =>
    simp only [Run.take, take]
    cases r.config.roundTimeout with
    | none => exact h
    | some limit => exact tended_fail h _

theorem tended_step {x : Context} (h : Tended r c) (hcounts : r.Counts x) (e : Event) :
    Tended (r.step e) (c.step r e) := by
  unfold Run.step step
  split
  · exact h
  · rename_i hgoing
    exact tended_settle (tended_take h hcounts (by simpa using hgoing) e)

theorem tended_steps {x : Context} (h : Tended r c) (hcounts : r.Counts x) (es : List Event) :
    Tended (r.steps es) (c.steps r es) := by
  induction es generalizing r c with
  | nil => exact h
  | cons e es ih => exact ih (tended_step h hcounts e) (Run.counts_step hcounts e)

theorem start_eq {context : Context} {config : Config} {known : Roster} {round : Nat}
    (hstart : Run.start context config known round = .ok r) : ∃ code quit,
      quit.raised = false ∧ quit.Armed () ∧
      r = (Run.opening context config known round code quit).settle ∧
      start context config known round
        = (dialAll ⟨known, [], [], [], [], true⟩ empty known).settle
            (Run.opening context config known round code quit) := by
  unfold Run.start at hstart
  split at hstart
  · cases hstart
  · rename_i code hcode
    obtain ⟨limited, hlimited, hunraised, hcallbacks⟩ : ∃ limited : QuitSignal Unit,
        Run.registerLimit .fresh config = .ok limited ∧ limited.raised = false ∧
        limited.callbacks = [] := by
      unfold Run.registerLimit
      split
      · exact ⟨_, rfl, rfl, rfl⟩
      · exact ⟨_, rfl, rfl, rfl⟩
    have hregister : limited.onRaise? () = some { limited with callbacks := [()] } := by
      rw [QuitSignal.onRaise?, hunraised, hcallbacks]
      rfl
    simp only [hlimited, hregister] at hstart
    cases hstart
    refine ⟨code, { limited with callbacks := [()] }, hunraised, ⟨fun _ => rfl, ?_⟩, rfl, ?_⟩
    · intro hraised
      cases hunraised.symm.trans hraised
    · simp only [start, hcode, hlimited, hregister]

theorem tended_start {context : Context} {config : Config} {known : Roster} {round : Nat}
    (hstart : Run.start context config known round = .ok r) :
    Tended r (start context config known round) := by
  obtain ⟨code, quit, -, harmed, rfl, hcrew⟩ := start_eq hstart
  rw [hcrew]
  have hbare : Tended { Run.opening context config known round code quit with
      client := ⟨known, [], [], [], [], true⟩ } empty := by
    refine ⟨rfl, rfl, rfl, ⟨?_, ?_, ?_⟩, ?_, harmed, fun _ => ⟨rfl, rfl⟩, fun _ => rfl,
      fun _ => ⟨rfl, rfl, rfl⟩⟩
    all_goals
      intro _ hnone
      cases hnone
  exact tended_settle (tended_dialAll hbare rfl known)

end Crew

end Round

end BeaconMesh
