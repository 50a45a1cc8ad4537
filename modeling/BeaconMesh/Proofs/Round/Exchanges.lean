import BeaconMesh.Proofs.Round.Tasks

/-!
Where the names come from that a round puts among those who have succeeded and those who were
validated: from its own tasks, which began with nothing and have seen nothing but events of the
round.
-/

set_option autoImplicit false
set_option relaxedAutoImplicit false

namespace BeaconMesh.Round

def Notice.bytes : Notice → Bytes
  | .arrived bytes => bytes
  | _ => []

def arrived (ns : List Notice) : Bytes := ns.flatMap Notice.bytes

private theorem foldl_arrived {σ : Type} {reads : Bytes → σ → Prop} {step : σ → Notice → σ}
    (hstep : ∀ seen s n, reads seen s → reads (seen ++ n.bytes) (step s n)) (ns : List Notice)
    {seen : Bytes} {s : σ} (h : reads seen s) : reads (seen ++ arrived ns) (ns.foldl step s) := by
  induction ns generalizing seen s with
  | nil => exact (List.append_nil seen).symm ▸ h
  | cons n ns ih =>
    rw [arrived, List.flatMap_cons, ← List.append_assoc]
    exact ih (hstep seen s n h)

/-- It began anew and has noticed nothing but what these events told it. -/
def Traced {σ : Type} (event : Notice → Event) (step : σ → Notice → σ) (fresh : σ)
    (past : List Event) (s : σ) : Prop :=
  ∃ ns : List Notice, (ns.map event).Sublist past ∧ s = ns.foldl step fresh

section Traced

variable {σ : Type} {event : Notice → Event} {step : σ → Notice → σ} {fresh s : σ}
  {past : List Event}

theorem traced_fresh (event : Notice → Event) (step : σ → Notice → σ) (fresh : σ)
    (past : List Event) : Traced event step fresh past fresh :=
  ⟨[], List.nil_sublist past, rfl⟩

theorem Traced.append (h : Traced event step fresh past s) (later : List Event) :
    Traced event step fresh (past ++ later) s := by
  obtain ⟨ns, hns, hs⟩ := h
  exact ⟨ns, hns.trans (List.sublist_append_left past later), hs⟩

theorem Traced.notice (h : Traced event step fresh past s) (n : Notice) :
    Traced event step fresh (past ++ [event n]) (step s n) := by
  obtain ⟨ns, hns, rfl⟩ := h
  refine ⟨ns ++ [n], ?_, ?_⟩
  · rw [List.map_append]
    exact hns.append (.refl _)
  · rw [List.foldl_append]
    rfl

end Traced

variable {x : Context} {code : UInt8} {limit : Duration} {u : Uuid} {seen : Bytes}

namespace Attempt

/-- The request for the round was written, and an answer of success in this name was read. -/
def Exchanged (x : Context) (code : UInt8) (seen : Bytes) (u : Uuid) (a : Attempt) : Prop :=
  a.written = (x.request code).encode ∧ ∃ bytes, bytes <:+: seen ∧ verdict x bytes = .ok u

def Reads (x : Context) (code : UInt8) (seen : Bytes) (a : Attempt) : Prop :=
  match a.stage with
  | .connecting => a.written = []
  | .awaiting received => a.written = (x.request code).encode ∧ received <:+ seen
  | .done (.ok u) => a.Exchanged x code seen u
  | .done (.error _) => True

theorem Exchanged.append {a : Attempt} (h : a.Exchanged x code seen u) (more : Bytes) :
    a.Exchanged x code (seen ++ more) u := by
  obtain ⟨hwritten, bytes, hbytes, hverdict⟩ := h
  exact ⟨hwritten, bytes, hbytes.trans (List.prefix_append seen more).isInfix, hverdict⟩

theorem reads_step {a : Attempt} (h : a.Reads x code seen) (n : Notice) :
    (a.step x code limit n).Reads x code (seen ++ n.bytes) := by
  obtain ⟨_ | received | (fault | u), written⟩ := a
  case connecting =>
    obtain rfl : written = [] := h
    cases n with
    | connected => exact ⟨rfl, List.nil_suffix⟩
    | arrived | hungUp => exact rfl
    | failed | tooLate => trivial
  case awaiting =>
    obtain ⟨rfl, before, rfl⟩ := h
    cases n with
    | connected => exact ⟨rfl, before, by simp [Notice.bytes]⟩
    | hungUp | failed | tooLate => trivial
    | arrived more =>
      have hread : (received ++ more) <:+ before ++ received ++ more := ⟨before, by simp⟩
      show Reads x code _ ⟨receive x received more, _⟩
      simp only [receive]
      split
      · exact ⟨rfl, hread⟩
      · cases hverdict : verdict x ((received ++ more).take x.messageLength) with
        | error => trivial
        | ok u =>
          refine ⟨rfl, (received ++ more).take x.messageLength, ?_, hverdict⟩
          exact (List.take_prefix _ _).isInfix.trans hread.isInfix
  case done.error => trivial
  case done.ok => exact Exchanged.append h _

def after (x : Context) (code : UInt8) (limit : Duration) (ns : List Notice) : Attempt :=
  ns.foldl (step x code limit) .fresh

theorem reads_after (ns : List Notice) : (after x code limit ns).Reads x code (arrived ns) := by
  have hkeeps : ∀ seen a n, Reads x code seen a →
      Reads x code (seen ++ n.bytes) (step x code limit a n) := fun _ _ n h => reads_step h n
  have hfresh : Reads x code [] fresh := rfl
  exact foldl_arrived hkeeps ns hfresh

/-- An attempt that has succeeded has made an exchange in the round. -/
theorem exchanged_of_result? {ns : List Notice}
    (h : (after x code limit ns).result? = some (.ok u)) :
    (after x code limit ns).Exchanged x code (arrived ns) u := by
  have hreads : (after x code limit ns).Reads x code (arrived ns) := reads_after ns
  rwa [Reads, stage_of_result? h] at hreads

end Attempt

namespace Session

/-- A request for the round in this name was read, and success was written. -/
def Exchanged (x : Context) (code : UInt8) (seen : Bytes) (u : Uuid) (s : Session) : Prop :=
  s.written = (x.response .success).encode ∧ ∃ bytes request, bytes <+: seen ∧
    Message.decode? x.payload.length bytes = some request ∧ request.sender = u ∧
    request.code = code ∧ x.judge request code = .success

def Reads (x : Context) (code : UInt8) (seen : Bytes) (s : Session) : Prop :=
  match s.stage with
  | .reading received => s.written = [] ∧ received = seen
  | .lingering u => s.Exchanged x code seen u
  | .done (.ok (some u)) => s.Exchanged x code seen u
  | .done _ => True

theorem Exchanged.append {s : Session} (h : s.Exchanged x code seen u) (more : Bytes) :
    s.Exchanged x code (seen ++ more) u := by
  obtain ⟨hwritten, bytes, request, hbytes, hrequest⟩ := h
  exact ⟨hwritten, bytes, request, hbytes.trans (List.prefix_append seen more), hrequest⟩

theorem reads_answer {bytes : Bytes} (hbytes : bytes <+: seen) (stage : Stage) :
    (answer x code ⟨stage, []⟩ bytes).Reads x code seen := by
  unfold answer
  split
  · trivial
  · rename_i request hread
    by_cases hsuccess : x.judge request code = .success
    · simp only [hsuccess, if_true]
      exact ⟨rfl, bytes, request, hbytes, hread, rfl, Context.code_of_judge_success hsuccess,
        hsuccess⟩
    · simp only [if_neg hsuccess]
      trivial

theorem reads_step {s : Session} (h : s.Reads x code seen) (n : Notice) :
    (s.step x code limit n).Reads x code (seen ++ n.bytes) := by
  obtain ⟨received | sender | (fault | _ | u), written⟩ := s
  case reading =>
    obtain ⟨rfl, rfl⟩ := h
    cases n with
    | connected => exact ⟨rfl, (List.append_nil _).symm⟩
    | hungUp | failed | tooLate => trivial
    | arrived more =>
      show Reads x code _ (receive x code _ received more)
      simp only [receive]
      split
      · exact ⟨rfl, rfl⟩
      · exact reads_answer (List.take_prefix _ _) _
  case lingering =>
    cases n with
    | connected | arrived => exact Exchanged.append h _
    | hungUp => exact Exchanged.append h _
    | failed | tooLate => trivial
  case done.ok.some => exact Exchanged.append h _
  all_goals trivial

def after (x : Context) (code : UInt8) (limit : Duration) (ns : List Notice) : Session :=
  ns.foldl (step x code limit) .fresh

theorem reads_after (ns : List Notice) : (after x code limit ns).Reads x code (arrived ns) := by
  have hkeeps : ∀ seen s n, Reads x code seen s →
      Reads x code (seen ++ n.bytes) (step x code limit s n) := fun _ _ n h => reads_step h n
  have hfresh : Reads x code [] fresh := ⟨rfl, rfl⟩
  exact foldl_arrived hkeeps ns hfresh

theorem stage_of_result? {s : Session} {result : Except Fault (Option Uuid)}
    (h : s.result? = some result) : s.stage = .done result := by
  unfold result? at h
  split at h
  · rename_i hdone
    rw [hdone, Option.some.inj h]
  · cases h

/-- A session that counts somebody has made an exchange in the round. -/
theorem exchanged_of_result? {ns : List Notice}
    (h : (after x code limit ns).result? = some (.ok (some u))) :
    (after x code limit ns).Exchanged x code (arrived ns) u := by
  have hreads : (after x code limit ns).Reads x code (arrived ns) := reads_after ns
  rwa [Reads, stage_of_result? h] at hreads

end Session

namespace Tasks

variable {σ : Type} {ended : σ → Bool} {ts : Tasks σ}

private theorem states_map (ts : Tasks σ) {g : Task σ → Task σ}
    (hstate : ∀ t, (g t).state = t.state) : states (ts.map g) = ts.states := by
  rw [states, List.map_map]
  exact List.map_congr_left fun t _ => hstate t

@[simp] theorem states_spawn (ts : Tasks σ) (s : σ) : (ts.spawn s).states = ts.states ++ [s] := by
  simp [states, spawn]

@[simp] theorem states_track (ts : Tasks σ) (s : σ) :
    (ts.track ended s).states = ts.states ++ [s] := by
  simp [states, track]

@[simp] theorem states_join (ts : Tasks σ) (p : σ → Bool) :
    (ts.join ended p).states = ts.states := by
  refine states_map ts fun t => ?_
  split <;> rfl

@[simp] theorem states_drop (ts : Tasks σ) : (ts.drop ended).states = ts.states := by
  refine states_map ts fun t => ?_
  split <;> rfl

@[simp] theorem states_abortTracked (ts : Tasks σ) :
    (ts.abortTracked ended).states = ts.states := by
  refine states_map ts fun t => ?_
  split <;> rfl

theorem mem_states_notice {f : σ → σ} {s : σ} (h : s ∈ (ts.notice f).states) :
    s ∈ ts.states ∨ ∃ before ∈ ts.states, s = f before := by
  obtain ⟨t', ht', rfl⟩ := List.mem_map.mp h
  obtain ⟨t, ht, rfl⟩ := List.mem_map.mp ht'
  split
  · exact .inr ⟨t.state, List.mem_map_of_mem ht, rfl⟩
  · exact .inl (List.mem_map_of_mem ht)

theorem mem_states_notice_of_eq {f : σ → σ} {s : σ} (h : s ∈ ts.states) (hsame : f s = s) :
    s ∈ (ts.notice f).states := by
  obtain ⟨t, ht, rfl⟩ := List.mem_map.mp h
  refine List.mem_map.mpr ⟨_, List.mem_map_of_mem ht, ?_⟩
  split
  · exact hsame
  · rfl

theorem mem_states_of_mem_inSet {s : σ} (h : s ∈ ts.inSet) : s ∈ ts.states := by
  obtain ⟨t, ht, rfl⟩ := List.mem_map.mp h
  exact List.mem_map_of_mem (List.mem_filter.mp ht).1

end Tasks

namespace Crew

variable {r : Run} {c c' c'' : Crew} {e : Event}

/-- The attempts and sessions have come no further, and there are no others. -/
structure Same (c c' : Crew) : Prop where
  dials : c'.dials.states = c.dials.states
  sessions : c'.sessions.states = c.sessions.states

theorem Same.refl (c : Crew) : Same c c := ⟨rfl, rfl⟩

theorem Same.trans (h : Same c c') (h' : Same c' c'') : Same c c'' :=
  ⟨h'.dials.trans h.dials, h'.sessions.trans h.sessions⟩

theorem same_raise (c : Crew) (quit : QuitSignal Unit) : Same c (c.raise quit) :=
  raise_induction (.refl c) quit fun _ h => h.trans ⟨Tasks.states_abortTracked _, rfl⟩

theorem same_dropClient (c : Crew) : Same c c.dropClient := ⟨Tasks.states_drop _, rfl⟩

theorem same_dropServer (c : Crew) : Same c c.dropServer := ⟨rfl, Tasks.states_drop _⟩

theorem same_fail (c : Crew) (quit : QuitSignal Unit) : Same c (c.fail quit) :=
  ((same_dropClient c).trans (same_dropServer _)).trans (same_raise _ quit)

theorem same_settle (c : Crew) (r : Run) : Same c (c.settle r) := by
  have hclient : Same c (c.settleClient r) := by
    unfold settleClient
    split
    · exact same_dropClient c
    · exact same_fail c _
    · exact .refl c
  have hserver : ∀ (c : Crew) (r : Run), Same c (c.settleServer r) := by
    intro c r
    unfold settleServer
    split
    · exact same_dropServer c
    · exact .refl c
  have hboth : ∀ (c : Crew) (r : Run), Same c (c.settleBoth r) := by
    intro c r
    unfold settleBoth
    split
    · exact same_raise c _
    · exact .refl c
  exact (hclient.trans (hserver _ _)).trans (hboth _ _)

/-- What an event of the round makes of its attempts and sessions: some begin, one notices
something that is meant for it, and what has ended stays as it is. -/
structure Moves (r : Run) (e : Event) (c c' : Crew) : Prop where
  dials : ∀ d' ∈ c'.dials.states, d' ∈ c.dials.states ∨ d'.attempt = .fresh ∨
    ∃ d ∈ c.dials.states, ∃ n, e = .dialed d.peer.uuid n ∧ d' = { d with
      attempt := d.attempt.step r.context r.code r.config.exchangeTimeout n }
  sessions : ∀ s' ∈ c'.sessions.states, s' ∈ c.sessions.states ∨ s'.2 = .fresh ∨
    ∃ s ∈ c.sessions.states, ∃ n, e = .served s.1 n ∧
      s' = (s.1, s.2.step r.context r.code r.config.exchangeTimeout n)
  dialsLast : ∀ d ∈ c.dials.states, d.ended = true → d ∈ c'.dials.states
  sessionsLast : ∀ s ∈ c.sessions.states, Served.ended s = true → s ∈ c'.sessions.states

theorem Same.moves (h : Same c c') (r : Run) (e : Event) : Moves r e c c' where
  dials := fun _ hd => .inl (h.dials ▸ hd)
  sessions := fun _ hs => .inl (h.sessions ▸ hs)
  dialsLast := fun _ hd _ => h.dials ▸ hd
  sessionsLast := fun _ hs _ => h.sessions ▸ hs

theorem Moves.settle (h : Moves r e c c') (r' : Run) : Moves r e c (c'.settle r') := by
  obtain ⟨hdials, hsessions⟩ := same_settle c' r'
  exact ⟨hdials ▸ h.dials, hsessions ▸ h.sessions, hdials ▸ h.dialsLast,
    hsessions ▸ h.sessionsLast⟩

theorem moves_dials {ts : Tasks Dial} (hmoves : ∀ d' ∈ ts.states, d' ∈ c.dials.states ∨
      d'.attempt = .fresh ∨ ∃ d ∈ c.dials.states, ∃ n, e = .dialed d.peer.uuid n ∧ d' = { d with
        attempt := d.attempt.step r.context r.code r.config.exchangeTimeout n })
    (hlast : ∀ d ∈ c.dials.states, d.ended = true → d ∈ ts.states) :
    Moves r e c { c with dials := ts } :=
  ⟨hmoves, fun _ hs => .inl hs, hlast, fun _ hs _ => hs⟩

theorem moves_sessions {ts : Tasks Served} (hmoves : ∀ s' ∈ ts.states, s' ∈ c.sessions.states ∨
      s'.2 = .fresh ∨ ∃ s ∈ c.sessions.states, ∃ n, e = .served s.1 n ∧
        s' = (s.1, s.2.step r.context r.code r.config.exchangeTimeout n))
    (hlast : ∀ s ∈ c.sessions.states, Served.ended s = true → s ∈ ts.states) :
    Moves r e c { c with sessions := ts } :=
  ⟨fun _ hd => .inl hd, hmoves, fun _ hd _ => hd, hlast⟩

theorem mem_states_dial {client : ClientRole} {peer : PeerAvailability} {d : Dial}
    (h : d ∈ (c.dial client peer).dials.states) : d ∈ c.dials.states ∨ d.attempt = .fresh := by
  unfold dial at h
  split at h
  · rw [Tasks.states_track] at h
    rcases List.mem_append.mp h with h | h
    · exact .inl h
    · exact .inr (List.mem_singleton.mp h ▸ rfl)
  · exact .inl h

theorem moves_dial (r : Run) (e : Event) (c : Crew) (client : ClientRole)
    (peer : PeerAvailability) : Moves r e c (c.dial client peer) where
  dials := fun d hd => (mem_states_dial hd).imp_right .inl
  sessions := by
    unfold dial
    split <;> exact fun _ hs => .inl hs
  dialsLast := by
    unfold dial
    split
    · intro d hd _
      rw [Tasks.states_track]
      exact List.mem_append_left _ hd
    · exact fun _ hd _ => hd
  sessionsLast := by
    unfold dial
    split <;> exact fun _ hs _ => hs

theorem fresh_dialAll {client : ClientRole} {peers : Roster} {d : Dial}
    (h : d ∈ (dialAll client c peers).dials.states) :
    d ∈ c.dials.states ∨ d.attempt = .fresh := by
  induction peers generalizing client c with
  | nil => exact .inl h
  | cons peer peers ih => exact (ih h).elim mem_states_dial .inr

theorem sessions_dialAll (client : ClientRole) (c : Crew) (peers : Roster) :
    (dialAll client c peers).sessions = c.sessions := by
  induction peers generalizing client c with
  | nil => rfl
  | cons peer peers ih =>
    rw [dialAll, ih, dial]
    split <;> rfl

theorem same_conclude (c : Crew) (r : Run) (uuid : String) : Same c (c.conclude r uuid) := by
  have hjoin : Same c { c with dials := c.dials.join Dial.ended fun d => d.peer.uuid == uuid } :=
    ⟨Tasks.states_join c.dials fun d => d.peer.uuid == uuid, rfl⟩
  unfold conclude
  split
  · exact .refl c
  · simp only
    split
    · exact hjoin
    · split
      · exact ((hjoin.trans (same_raise _ _)).trans (same_dropClient _)).trans (same_dropServer _)
      · split
        · exact hjoin.trans (same_fail _ _)
        · exact hjoin.trans ⟨rfl, rfl⟩

theorem moves_retry (r : Run) (e : Event) (c : Crew) (timer : Nat) :
    Moves r e c (c.retry r.client timer) := by
  have hwaits : ∀ waits, Same c { c with waits := waits } := fun _ => ⟨rfl, rfl⟩
  unfold retry
  split
  · exact (Same.refl c).moves r e
  · simp only
    split
    · exact (hwaits _).moves r e
    · rename_i peer _
      obtain ⟨hdials, hsessions, hdialsLast, hsessionsLast⟩ := moves_dial r e
        { c with
          waits := (c.waits.notice (Wait.elapse timer)).join Wait.ended fun w => w.timer == timer }
        r.client peer
      exact ⟨hdials, hsessions, hdialsLast, hsessionsLast⟩

theorem moves_take (r : Run) (e : Event) (c : Crew) : Moves r e c (c.take r e) := by
  cases e with
  | lagged | streamEnded => exact (Same.refl c).moves r _
  | heard peer =>
    rw [take]
    split
    · exact (Same.refl c).moves r _
    · exact moves_dial r _ c r.client peer
  | dialed uuid n =>
    rw [take]
    split
    · exact (Same.refl c).moves r _
    · refine moves_dials ?_ ?_
      · intro d hd
        rcases Tasks.mem_states_notice hd with hd | ⟨before, hbefore, rfl⟩
        · exact .inl hd
        · split
          · rename_i huuid
            exact .inr (.inr ⟨before, hbefore, n, by rw [huuid], rfl⟩)
          · exact .inl hbefore
      · intro d hd hover
        refine Tasks.mem_states_notice_of_eq hd ?_
        split
        · exact Dial.step_of_ended hover _ _ _ _
        · rfl
  | concluded uuid =>
    rw [take]
    split
    · exact (Same.refl c).moves r _
    · exact (same_conclude c r uuid).moves r _
  | retried timer =>
    rw [take]
    split
    · exact (Same.refl c).moves r _
    · exact moves_retry r _ c timer
  | accepted =>
    rw [take]
    split
    · exact (Same.refl c).moves r _
    · refine moves_sessions ?_ ?_
      · intro s hs
        rw [Tasks.states_spawn] at hs
        rcases List.mem_append.mp hs with hs | hs
        · exact .inl hs
        · exact .inr (.inl (List.mem_singleton.mp hs ▸ rfl))
      · intro s hs _
        rw [Tasks.states_spawn]
        exact List.mem_append_left _ hs
  | served number n =>
    rw [take]
    split
    · exact (Same.refl c).moves r _
    · refine moves_sessions ?_ ?_
      · intro s hs
        rcases Tasks.mem_states_notice hs with hs | ⟨before, hbefore, rfl⟩
        · exact .inl hs
        · split
          · rename_i hnumber
            exact .inr (.inr ⟨before, hbefore, n, by rw [hnumber], rfl⟩)
          · exact .inl hbefore
      · intro s hs hover
        refine Tasks.mem_states_notice_of_eq hs ?_
        split
        · rw [Session.step_of_isSome hover]
        · rfl
  | left number =>
    have hjoin : Same c
        { c with sessions := c.sessions.join Served.ended fun s => s.1 == number } :=
      ⟨rfl, Tasks.states_join c.sessions fun s => s.1 == number⟩
    rw [take]
    split
    · exact (Same.refl c).moves r _
    · exact hjoin.moves r _
  | limitReached =>
    rw [take]
    split
    · exact (Same.refl c).moves r _
    · exact (same_fail c r.quit).moves r _

theorem moves_step (r : Run) (e : Event) (c : Crew) : Moves r e c (c.step r e) := by
  unfold step
  split
  · exact (Same.refl c).moves r e
  · exact (moves_take r e c).settle _

end Crew

theorem ServerRole.mem_validated_conclude {server : ServerRole} {number : Nat}
    (h : u ∈ (server.conclude number).validated) :
    u ∈ server.validated ∨ ∃ s ∈ server.sessions, s.2.result? = some (.ok (some u)) := by
  unfold conclude at h
  cases hresult : server.result? number with
  | none =>
    rw [hresult] at h
    exact .inl h
  | some result =>
    simp only [hresult] at h
    split at h
    · rename_i participant
      rcases (Ascending.mem_insert Uuid.le participant u _).mp h with rfl | h
      · obtain ⟨s, hfind, hdone⟩ := Option.bind_eq_some_iff.mp hresult
        exact .inr ⟨s, List.mem_of_find?_eq_some hfind, hdone⟩
      · exact .inl h
    · exact .inl h

namespace Run

variable {r : Run}

theorem validated_settle (r : Run) : r.settle.server.validated = r.server.validated := by
  have hclient : r.settleClient.server.validated = r.server.validated := by
    unfold settleClient
    split <;> rfl
  have hserver : ∀ r : Run, r.settleServer.server.validated = r.server.validated := by
    intro r
    unfold settleServer
    split <;> rfl
  have hboth : ∀ r : Run, r.settleBoth.server.validated = r.server.validated := by
    intro r
    unfold settleBoth
    split <;> rfl
  rw [settle, hboth, hserver, hclient]

theorem mem_validated_step {e : Event} (h : u ∈ (r.step e).server.validated) :
    u ∈ r.server.validated ∨ ∃ s ∈ r.server.sessions, s.2.result? = some (.ok (some u)) := by
  have hclient : ∀ f, (r.onClient f).server = r.server := by
    intro f
    unfold onClient
    split <;> rfl
  unfold step at h
  split at h
  · exact .inl h
  · rw [validated_settle] at h
    cases e with
    | lagged => exact .inl h
    | heard | streamEnded | dialed | retried =>
      rw [take, hclient] at h
      exact .inl h
    | concluded uuid =>
      rw [take, conclude] at h
      split at h
      · exact .inl h
      · split at h
        · exact .inl h
        · exact .inl h
    | accepted | served =>
      rw [take, onServer] at h
      split at h
      · exact .inl h
      · exact .inl h
    | left number =>
      rw [take, onServer] at h
      split at h
      · exact .inl h
      · exact ServerRole.mem_validated_conclude h
    | limitReached =>
      rw [take] at h
      split at h
      · exact .inl h
      · exact .inl h

theorem mem_succeeded_step {e : Event} (h : u ∈ (r.step e).client.succeeded) :
    u ∈ r.client.succeeded ∨ ∃ d ∈ r.client.attempts, d.attempt.result? = some (.ok u) := by
  rw [succeeded_step, mem_insertAll] at h
  rcases h with h | h
  · exact .inl h
  · obtain ⟨answer, hanswer, rfl⟩ := Option.map_eq_some_iff.mp (Option.mem_toList.mp h)
    unfold answer? at hanswer
    split at hanswer
    · split at hanswer
      · obtain ⟨v, hsuccess, rfl⟩ := Option.map_eq_some_iff.mp hanswer
        obtain ⟨result, hresult, hok⟩ := Option.bind_eq_some_iff.mp hsuccess
        obtain ⟨d, hd, -, hdone⟩ := ClientRole.mem_of_result? hresult
        cases result with
        | error fault => cases hok
        | ok w =>
          cases hok
          exact .inr ⟨d, hd, hdone⟩
      · cases hanswer
    · cases hanswer

end Run

namespace Crew

/-- For everybody who counts there is an attempt or a session of the round, which has noticed
nothing but events of the round. -/
structure Vouched (x : Context) (code : UInt8) (limit : Duration) (past : List Event) (r : Run)
    (c : Crew) : Prop where
  sameContext : r.context = x
  sameCode : r.code = code
  sameLimit : r.config.exchangeTimeout = limit
  dials : ∀ d ∈ c.dials.states,
    Traced (.dialed d.peer.uuid) (Attempt.step x code limit) .fresh past d.attempt
  sessions : ∀ s ∈ c.sessions.states,
    Traced (.served s.1) (Session.step x code limit) .fresh past s.2
  succeeded : ∀ u ∈ r.client.succeeded, ∃ d ∈ c.dials.states, d.attempt.result? = some (.ok u)
  validated : ∀ u ∈ r.server.validated,
    ∃ s ∈ c.sessions.states, s.2.result? = some (.ok (some u))

variable {past : List Event} {r : Run} {c : Crew}

theorem vouched_step (h : Vouched x code limit past r c) (htended : Tended r c) (e : Event) :
    Vouched x code limit (past ++ [e]) (r.step e) (c.step r e) := by
  obtain ⟨rfl, rfl, rfl, hdials, hsessions, hsucceeded, hvalidated⟩ := h
  have hcontinues := Run.continues_step r e
  have hmoves := moves_step r e c
  refine ⟨hcontinues.context, hcontinues.code, by rw [hcontinues.config], ?_, ?_, ?_, ?_⟩
  · intro d hd
    rcases hmoves.dials d hd with hd | hfresh | ⟨before, hbefore, n, rfl, rfl⟩
    · exact (hdials d hd).append [e]
    · rw [hfresh]
      exact traced_fresh _ _ _ _
    · exact (hdials before hbefore).notice n
  · intro s hs
    rcases hmoves.sessions s hs with hs | hfresh | ⟨before, hbefore, n, rfl, rfl⟩
    · exact (hsessions s hs).append [e]
    · rw [hfresh]
      exact traced_fresh _ _ _ _
    · exact (hsessions before hbefore).notice n
  -- an attempt that has ended stays as it is, so that it goes on to vouch for its participant
  · intro u hu
    rcases Run.mem_succeeded_step hu with hu | ⟨d, hd, hdone⟩
    · obtain ⟨d, hd, hdone⟩ := hsucceeded u hu
      exact ⟨d, hmoves.dialsLast d hd (Option.isSome_of_eq_some hdone), hdone⟩
    · have hmem := Tasks.mem_states_of_mem_inSet (htended.attempts ▸ hd)
      exact ⟨d, hmoves.dialsLast d hmem (Option.isSome_of_eq_some hdone), hdone⟩
  · intro u hu
    rcases Run.mem_validated_step hu with hu | ⟨s, hs, hdone⟩
    · obtain ⟨s, hs, hdone⟩ := hvalidated u hu
      exact ⟨s, hmoves.sessionsLast s hs (Option.isSome_of_eq_some hdone), hdone⟩
    · have hmem := Tasks.mem_states_of_mem_inSet (htended.sessions ▸ hs)
      exact ⟨s, hmoves.sessionsLast s hmem (Option.isSome_of_eq_some hdone), hdone⟩

theorem vouched_steps (h : Vouched x code limit past r c) (htended : Tended r c)
    (hcounts : r.Counts x) (es : List Event) :
    Vouched x code limit (past ++ es) (r.steps es) (c.steps r es) := by
  induction es generalizing past r c with
  | nil => exact (List.append_nil past).symm ▸ h
  | cons e es ih =>
    have hrest := ih (vouched_step h htended e) (tended_step htended hcounts e)
      (Run.counts_step hcounts e)
    rwa [List.append_assoc] at hrest

theorem vouched_start {config : Config} {known : Roster} {round : Nat}
    (hstart : Run.start x config known round = .ok r) :
    Vouched x r.code config.exchangeTimeout [] r (start x config known round) := by
  obtain ⟨hcounts, -, hsucceeded⟩ := Run.counts_start hstart
  obtain ⟨code, quit, -, -, rfl, hcrew⟩ := start_eq hstart
  have hsame := same_settle (dialAll ⟨known, [], [], [], [], true⟩ empty known)
    (Run.opening x config known round code quit)
  rw [← hcrew] at hsame
  refine ⟨hcounts.context, rfl, by rw [(Run.continues_settle _).config]; rfl, ?_, ?_, ?_, ?_⟩
  · intro d hd
    rw [hsame.dials] at hd
    rcases fresh_dialAll hd with hd | hfresh
    · cases hd
    · rw [hfresh]
      exact traced_fresh _ _ _ _
  · intro s hs
    rw [hsame.sessions, sessions_dialAll] at hs
    cases hs
  · intro u hu
    rw [hsucceeded] at hu
    cases hu
  · intro u hu
    rw [Run.validated_settle] at hu
    cases hu

end Crew

end BeaconMesh.Round
