import BeaconMesh.Proofs.Round.Roles
import BeaconMesh.Round.Mesh

/-!
What every event of a round keeps, of whatever kind it is, and what a round that has completed says
about the other participants.
-/

set_option autoImplicit false
set_option relaxedAutoImplicit false

namespace BeaconMesh.Round

/-- A notice that neither makes a connection nor brings bytes. -/
def Notice.isQuiet : Notice → Bool
  | .connected => false
  | .arrived _ => false
  | _ => true

namespace Run

/-- Every attempt is as `A` says and every session as `S`; if the half that dials has come to its
end or the round has completed, every other participant is as `P` says. -/
structure Sound (A : String → Attempt → Prop) (S : Nat → Session → Prop) (P : Uuid → Prop)
    (r : Run) : Prop where
  client : r.client.Sound A P
  server : r.server.Sound S
  agreed : ∀ us, r.succeeded = some us → ∀ u ∈ r.context.others, P u
  reported : ∀ report, r.result = some (.ok report) →
    report.round = r.round ∧ ∀ u ∈ r.context.others, P u

/-- A round goes on: it stays the same round of the same participant, and session numbers are given
out one after another. -/
structure Continues (r r' : Run) : Prop where
  context : r'.context = r.context
  config : r'.config = r.config
  round : r'.round = r.round
  code : r'.code = r.code
  nextSession : r.server.nextSession ≤ r'.server.nextSession

variable {A A' : String → Attempt → Prop} {S S' : Nat → Session → Prop} {P P' : Uuid → Prop}
  {r r' : Run}

theorem Sound.mono (h : r.Sound A S P)
    (hA : ∀ d ∈ r.client.attempts, A d.peer.uuid d.attempt → A' d.peer.uuid d.attempt)
    (hS : ∀ s ∈ r.server.sessions, S s.1 s.2 → S' s.1 s.2) (hP : ∀ u, P u → P' u) :
    r.Sound A' S' P' :=
  ⟨h.client.mono hA hP, h.server.mono hS, fun us hus u hu => hP u (h.agreed us hus u hu),
    fun report hreport => ⟨(h.reported report hreport).1,
      fun u hu => hP u ((h.reported report hreport).2 u hu)⟩⟩

theorem sound_fail (h : r.Sound A S P) (fault : Fault) : (r.finish (.error fault)).Sound A S P :=
  ⟨ClientRole.sound_clear h.client, ServerRole.sound_clear, h.agreed,
    fun _ hreport => nomatch hreport⟩

theorem sound_settleClient (h : r.Sound A S P) : r.settleClient.Sound A S P := by
  unfold settleClient
  split
  · rename_i us _ _ hverdict
    obtain ⟨rfl, hothers⟩ := ClientRole.verdict?_ok hverdict
    refine ⟨ClientRole.sound_clear h.client, h.server, ?_, h.reported⟩
    intro _ _ u hu
    exact h.client.succeeded u (hothers u hu)
  · exact sound_fail h _
  · exact h

theorem sound_settleServer (h : r.Sound A S P) : r.settleServer.Sound A S P := by
  unfold settleServer
  split
  · exact ⟨h.client, ServerRole.sound_clear, h.agreed, h.reported⟩
  · exact h

theorem sound_settleBoth (h : r.Sound A S P) : r.settleBoth.Sound A S P := by
  unfold settleBoth
  split
  · rename_i us _ _ hsucceeded _
    refine ⟨ClientRole.sound_clear h.client, ServerRole.sound_clear, h.agreed, ?_⟩
    intro report hreport
    obtain rfl := Except.ok.inj (Option.some.inj hreport)
    exact ⟨rfl, h.agreed us hsucceeded⟩
  · exact h

theorem sound_settle (h : r.Sound A S P) : r.settle.Sound A S P :=
  sound_settleBoth (sound_settleServer (sound_settleClient h))

theorem onClient_of_none {f : ClientRole → QuitSignal Unit → ClientRole × QuitSignal Unit}
    (h : r.succeeded = none) :
    r.onClient f = { r with client := (f r.client r.quit).1, quit := (f r.client r.quit).2 } := by
  rw [onClient, h, if_neg (by simp)]

theorem onServer_of_none {f : ServerRole → ServerRole} (h : r.validated = none) :
    r.onServer f = { r with server := f r.server } := by
  rw [onServer, h, if_neg (by simp)]

theorem sound_onClient (h : r.Sound A S P)
    {f : ClientRole → QuitSignal Unit → ClientRole × QuitSignal Unit}
    (hf : (f r.client r.quit).1.Sound A P) : (r.onClient f).Sound A S P := by
  unfold onClient
  split
  · exact h
  · exact ⟨hf, h.server, h.agreed, h.reported⟩

theorem sound_onServer (h : r.Sound A S P) {f : ServerRole → ServerRole}
    (hf : (f r.server).Sound S) : (r.onServer f).Sound A S P := by
  unfold onServer
  split
  · exact h
  · exact ⟨h.client, hf, h.agreed, h.reported⟩

theorem sound_conclude (h : r.Sound A S P)
    (hsuccess : ∀ uuid a u, A uuid a → a.stage = .done (.ok u) → P u) (uuid : String) :
    (r.conclude uuid).Sound A S P := by
  unfold conclude
  split
  · exact h
  · split
    · rename_i client quit hconclude
      exact ⟨ClientRole.sound_conclude h.client hsuccess hconclude, h.server, h.agreed, h.reported⟩
    · exact sound_fail h _

theorem sound_start {context : Context} {config : Config} {known : Roster} {round : Nat}
    (hstart : start context config known round = .ok r) (hfresh : ∀ uuid, A uuid .fresh) :
    r.Sound A S P := by
  unfold start at hstart
  split at hstart
  · cases hstart
  · split at hstart
    · cases hstart
    · split at hstart
      · cases hstart
      · cases hstart
        refine sound_settle ⟨ClientRole.sound_start hfresh known, ServerRole.sound_start, ?_, ?_⟩
        all_goals
          intro _ hnone
          cases hnone

theorem sound_step_local (h : r.Sound A S P) (hfresh : ∀ uuid, A uuid .fresh)
    (hsuccess : ∀ uuid a u, A uuid a → a.stage = .done (.ok u) → P u)
    (hA : ∀ uuid a n, n.isQuiet = true → A uuid a →
      A uuid (a.step r.context r.code r.config.exchangeTimeout n))
    (hS : ∀ number s n, (∀ bytes, n ≠ .arrived bytes) → S number s →
      S number (s.step r.context r.code r.config.exchangeTimeout n))
    {e : Event} (he : e.isLocal = true) : (r.step e).Sound A S P := by
  unfold step
  split
  · exact h
  · refine sound_settle ?_
    cases e with
    | heard peer =>
      rw [take]
      refine sound_onClient h ?_
      exact ClientRole.sound_hear h.client hfresh peer
    | lagged missed => exact h
    | streamEnded =>
      rw [take]
      refine sound_onClient h ?_
      exact ⟨h.client.attempts, h.client.distinct, h.client.resolving, h.client.succeeded⟩
    | dialed uuid n =>
      have hquiet : n.isQuiet = true := by
        cases n <;> first | rfl | cases he
      rw [take]
      refine sound_onClient h ?_
      have hthis : ∀ d ∈ r.client.attempts, d.peer.uuid = uuid → A uuid d.attempt →
          A uuid (d.attempt.step r.context r.code r.config.exchangeTimeout n) :=
        fun d _ _ ha => hA uuid d.attempt n hquiet ha
      exact ClientRole.sound_notice (f := fun a => a.step _ _ _ n) h.client hthis
        fun _ _ _ ha => ha
    | concluded uuid => exact sound_conclude h hsuccess uuid
    | retried timer =>
      rw [take]
      refine sound_onClient h ?_
      exact ClientRole.sound_retry h.client hfresh
    | accepted => cases he
    | served number n =>
      have hnotArrived : ∀ bytes, n ≠ .arrived bytes := by
        rintro bytes rfl
        cases he
      rw [take]
      refine sound_onServer h ?_
      have hthis : ∀ s ∈ r.server.sessions, s.1 = number → S number s.2 →
          S number (s.2.step r.context r.code r.config.exchangeTimeout n) :=
        fun s _ _ hs => hS number s.2 n hnotArrived hs
      exact ServerRole.sound_notice (f := fun s => s.step _ _ _ n) h.server hthis
        fun _ _ _ hs => hs
    | left number =>
      rw [take]
      refine sound_onServer h ?_
      exact ServerRole.sound_conclude h.server number
    | limitReached =>
      unfold take
      simp only
      split
      · exact h
      · exact sound_fail h _

theorem attempt?_eq_some {peer : String} {a : Attempt} (h : r.attempt? peer = some a) :
    r.result = none ∧ r.succeeded = none ∧
      ∃ d ∈ r.client.attempts, d.peer.uuid = peer ∧ d.attempt = a := by
  unfold attempt? at h
  split at h
  · cases h
  · rename_i hlive
    obtain ⟨hresult, hsucceeded⟩ : r.result = none ∧ r.succeeded = none := by
      simpa [Bool.or_eq_true, not_or] using hlive
    obtain ⟨d, hfind, rfl⟩ := Option.map_eq_some_iff.mp h
    exact ⟨hresult, hsucceeded, d, List.mem_of_find?_eq_some hfind,
      by simpa using List.find?_some hfind, rfl⟩

theorem accepts_eq_true (h : r.accepts = true) : r.result = none ∧ r.validated = none := by
  simpa [accepts, Bool.or_eq_false_iff] using h

theorem session?_eq_some {number : Nat} {s : Session} (h : r.session? number = some s) :
    r.accepts = true ∧ (number, s) ∈ r.server.sessions := by
  unfold session? at h
  split at h
  · rename_i haccepts
    obtain ⟨⟨number', s'⟩, hfind, rfl⟩ := Option.map_eq_some_iff.mp h
    obtain rfl : number' = number := by simpa using List.find?_some hfind
    exact ⟨haccepts, List.mem_of_find?_eq_some hfind⟩
  · cases h

theorem sound_step_dialed {peer : String} {a : Attempt} {n : Notice}
    (A' : String → Attempt → Prop) (h : r.Sound A S P) (ha : r.attempt? peer = some a)
    (hthis : A peer a → A' peer (a.step r.context r.code r.config.exchangeTimeout n))
    (hothers : ∀ d ∈ r.client.attempts, d.peer.uuid ≠ peer → A d.peer.uuid d.attempt →
      A' d.peer.uuid d.attempt) : (r.step (.dialed peer n)).Sound A' S P := by
  obtain ⟨hresult, hsucceeded, d, hd, hpeer, rfl⟩ := attempt?_eq_some ha
  unfold step
  rw [hresult, if_neg (by simp)]
  refine sound_settle ?_
  rw [take, onClient_of_none hsucceeded]
  -- there is only one attempt to reach the peer
  have hthis' : ∀ d' ∈ r.client.attempts, d'.peer.uuid = peer → A peer d'.attempt →
      A' peer (d'.attempt.step r.context r.code r.config.exchangeTimeout n) := by
    intro d' hd' hpeer'
    obtain rfl := h.client.eq_of_uuid hd hd' (hpeer.trans hpeer'.symm)
    exact hthis
  exact ⟨ClientRole.sound_notice (f := fun a => a.step _ _ _ n) h.client hthis' hothers, h.server,
    h.agreed, h.reported⟩

theorem sound_step_accepted (h : r.Sound A S P) (haccepts : r.accepts = true)
    (hfresh : S r.server.nextSession .fresh) : (r.step .accepted).Sound A S P := by
  obtain ⟨hresult, _⟩ := accepts_eq_true haccepts
  unfold step
  rw [hresult, if_neg (by simp)]
  refine sound_settle (sound_onServer h ?_)
  exact ServerRole.sound_accept h.server hfresh

theorem sound_step_served {number : Nat} {s : Session} {n : Notice}
    (S' : Nat → Session → Prop) (h : r.Sound A S P) (hs : r.session? number = some s)
    (hthis : S number s → S' number (s.step r.context r.code r.config.exchangeTimeout n))
    (hothers : ∀ s ∈ r.server.sessions, s.1 ≠ number → S s.1 s.2 → S' s.1 s.2) :
    (r.step (.served number n)).Sound A S' P := by
  obtain ⟨haccepts, hmem⟩ := session?_eq_some hs
  obtain ⟨hresult, hvalidated⟩ := accepts_eq_true haccepts
  unfold step
  rw [hresult, if_neg (by simp)]
  refine sound_settle ?_
  rw [take, onServer_of_none hvalidated]
  -- there is only one session with the number
  have hthis' : ∀ s' ∈ r.server.sessions, s'.1 = number → S number s'.2 →
      S' number (s'.2.step r.context r.code r.config.exchangeTimeout n) := by
    intro s' hs' hnumber
    obtain rfl := h.server.eq_of_number hmem hs' hnumber.symm
    exact hthis
  exact ⟨h.client, ServerRole.sound_notice (f := fun s => s.step _ _ _ n) h.server hthis' hothers,
    h.agreed, h.reported⟩

/-- What every event keeps, those of connections included, when it is kept by every notice. -/
theorem sound_step (h : r.Sound A S P) (hfresh : ∀ uuid, A uuid .fresh)
    (hsession : ∀ number, S number .fresh)
    (hsuccess : ∀ uuid a u, A uuid a → a.stage = .done (.ok u) → P u)
    (hA : ∀ uuid a n, A uuid a → A uuid (a.step r.context r.code r.config.exchangeTimeout n))
    (hS : ∀ number s n, S number s →
      S number (s.step r.context r.code r.config.exchangeTimeout n))
    (e : Event) : (r.step e).Sound A S P := by
  by_cases he : e.isLocal = true
  · exact sound_step_local h hfresh hsuccess (fun uuid a n _ => hA uuid a n)
      (fun number s n _ => hS number s n) he
  · unfold step
    split
    · exact h
    · refine sound_settle ?_
      cases e with
      | dialed uuid n =>
        rw [take]
        refine sound_onClient h ?_
        exact ClientRole.sound_notice (f := fun a => a.step _ _ _ n) h.client
          (fun d _ _ ha => hA uuid d.attempt n ha) fun _ _ _ ha => ha
      | accepted =>
        rw [take]
        refine sound_onServer h ?_
        exact ServerRole.sound_accept h.server (hsession _)
      | served number n =>
        rw [take]
        refine sound_onServer h ?_
        exact ServerRole.sound_notice (f := fun s => s.step _ _ _ n) h.server
          (fun s _ _ hs => hS number s.2 n hs) fun _ _ _ hs => hs
      | _ => exact absurd rfl he

theorem Continues.refl (r : Run) : Continues r r := ⟨rfl, rfl, rfl, rfl, Nat.le_refl _⟩

theorem Continues.trans {r'' : Run} (h : Continues r r') (h' : Continues r' r'') :
    Continues r r'' :=
  ⟨h'.context.trans h.context, h'.config.trans h.config, h'.round.trans h.round,
    h'.code.trans h.code, Nat.le_trans h.nextSession h'.nextSession⟩

private theorem continues_finish (r : Run) (result : Except Fault Report) :
    Continues r (r.finish result) := ⟨rfl, rfl, rfl, rfl, Nat.le_refl _⟩

private theorem continues_settleClient (r : Run) : Continues r r.settleClient := by
  unfold settleClient
  split
  · exact ⟨rfl, rfl, rfl, rfl, Nat.le_refl _⟩
  · exact continues_finish r _
  · exact .refl r

private theorem continues_settleServer (r : Run) : Continues r r.settleServer := by
  unfold settleServer
  split
  · exact ⟨rfl, rfl, rfl, rfl, Nat.le_refl _⟩
  · exact .refl r

private theorem continues_settleBoth (r : Run) : Continues r r.settleBoth := by
  unfold settleBoth
  split
  · exact continues_finish r _
  · exact .refl r

theorem continues_settle (r : Run) : Continues r r.settle :=
  ((continues_settleClient r).trans (continues_settleServer _)).trans (continues_settleBoth _)

private theorem continues_onClient (r : Run)
    (f : ClientRole → QuitSignal Unit → ClientRole × QuitSignal Unit) :
    Continues r (r.onClient f) := by
  unfold onClient
  split
  · exact .refl r
  · exact ⟨rfl, rfl, rfl, rfl, Nat.le_refl _⟩

private theorem continues_onServer (r : Run) {f : ServerRole → ServerRole}
    (hf : r.server.nextSession ≤ (f r.server).nextSession) : Continues r (r.onServer f) := by
  unfold onServer
  split
  · exact .refl r
  · exact ⟨rfl, rfl, rfl, rfl, hf⟩

private theorem continues_conclude (r : Run) (uuid : String) : Continues r (r.conclude uuid) := by
  unfold conclude
  split
  · exact .refl r
  · split
    · exact ⟨rfl, rfl, rfl, rfl, Nat.le_refl _⟩
    · exact continues_finish r _

theorem continues_take (r : Run) (e : Event) : Continues r (r.take e) := by
  cases e with
  | heard peer => rw [take]; exact continues_onClient r _
  | lagged missed => exact .refl r
  | streamEnded => rw [take]; exact continues_onClient r _
  | dialed uuid n => rw [take]; exact continues_onClient r _
  | concluded uuid => exact continues_conclude r uuid
  | retried timer => rw [take]; exact continues_onClient r _
  | accepted =>
    rw [take]
    refine continues_onServer r ?_
    exact Nat.le_succ _
  | served number n =>
    rw [take]
    refine continues_onServer r ?_
    exact Nat.le_refl _
  | left number =>
    rw [take]
    refine continues_onServer r ?_
    unfold ServerRole.conclude
    split
    · exact Nat.le_refl _
    · simp only
      split <;> exact Nat.le_refl _
  | limitReached =>
    rw [take]
    split
    · exact .refl r
    · exact continues_finish r _

theorem continues_step (r : Run) (e : Event) : Continues r (r.step e) := by
  unfold step
  split
  · exact .refl r
  · exact (continues_take r e).trans (continues_settle _)

theorem continues_steps (r : Run) (es : List Event) : Continues r (r.steps es) := by
  induction es generalizing r with
  | nil => exact .refl r
  | cons e es ih => exact (continues_step r e).trans (ih (r.step e))

theorem nextSession_lt_step_accepted (haccepts : r.accepts = true) :
    r.server.nextSession < (r.step .accepted).server.nextSession := by
  obtain ⟨hresult, hvalidated⟩ := accepts_eq_true haccepts
  have htaken : (r.take .accepted).server.nextSession = r.server.nextSession + 1 := by
    rw [take, onServer_of_none hvalidated]
    rfl
  have hsettled := (continues_settle (r.take .accepted)).nextSession
  rw [step, hresult, if_neg (by simp)]
  omega

theorem start_ok {context : Context} {config : Config} {known : Roster} {round : Nat}
    (hstart : start context config known round = .ok r) :
    r.context = context ∧ r.round = round ∧ code? round = some r.code := by
  unfold start at hstart
  split at hstart
  · cases hstart
  · rename_i code hcode
    split at hstart
    · cases hstart
    · split at hstart
      · cases hstart
      · rename_i quit _
        cases hstart
        have h := continues_settle
          ⟨context, config, round, code, quit, .start known, .start, none, none, none⟩
        exact ⟨h.context, h.round, hcode.trans (congrArg some h.code.symm)⟩

end Run

end BeaconMesh.Round
