import BeaconMesh.Proofs.Round.Rewiring

/-!
The events that connections have a part in keep the invariant: making and accepting a connection,
and carrying bytes to either end.
-/

set_option autoImplicit false
set_option relaxedAutoImplicit false

namespace BeaconMesh.Round.Mesh

variable {ι : Type} {members : ι → Coordinator} {m m' : Mesh ι} {i : ι} {run : Run}

private theorem attemptSound_connected {peer : String} {w : Wire ι} {round : Nat} {a : Attempt}
    (hextended : Extended m m' i peer w) (hunanswered : w.response = [])
    (hconnecting : a.isConnecting = true) (c : Context) (code : UInt8) (limit : Duration) :
    AttemptSound members m' i round peer (a.step c code limit .connected) := by
  rw [Attempt.step_connected hconnecting]
  refine ⟨fun hnot => (nomatch hnot), ?_, fun _ hnot => (nomatch hnot)⟩
  intro wire x hline hx _ received hreceived
  rw [hextended.newLine] at hline
  obtain rfl := Option.some.inj hline
  obtain rfl := Option.some.inj (hextended.new.symm.trans hx)
  obtain rfl := Attempt.Stage.awaiting.inj hreceived
  rw [hunanswered, List.take_nil]

private theorem session_ne_next (h : Sound members m) (hcurrent : (m.node i).current = some run)
    {k : Nat} {x : Wire ι} (hx : m.wires[k]? = some x) (hlistener : x.listener = i) :
    x.session ≠ some (run.round, run.server.nextSession) := by
  intro hnext
  obtain ⟨_, hissued⟩ := (h.wires k x hx).accepted _ _ hnext
  rw [hlistener] at hissued
  exact Nat.lt_irrefl _ (hissued run hcurrent rfl)

private theorem attemptSound_arrived {wire : Nat} {w : Wire ι} {a : Attempt} {count : Nat}
    (h : Sound members m)
    (hpayload : ∀ i j, (members i).context.payload.length = (members j).context.payload.length)
    (hadvances : Advances m m') (hrewired : Rewired m m' wire w (w.afterResponse count))
    (hline : m.line w.dialer w.peer = some wire)
    (ha : AttemptSound members m w.dialer w.round w.peer a) (j : ι) (code : UInt8)
    (limit : Duration) :
    AttemptSound members m' w.dialer w.round w.peer
      (a.step (members j).context code limit (.arrived (w.nextResponse count))) := by
  have hwire := h.wires wire w hrewired.old
  have hresponse : w.response = [] ∨ ∃ outcome,
      w.response = ((members w.listener).context.response outcome).encode :=
    hwire.response.imp id fun ⟨outcome, hwritten, _⟩ => ⟨outcome, hwritten⟩
  obtain ⟨hawaits, hsuccess⟩ := Wire.awaitedBy_arrived (ha.awaits wire w hline hrewired.old rfl)
    (hpayload j w.listener) hresponse code limit count
  refine ⟨?_, ?_, ?_⟩
  · intro hconnecting
    have hsame := Attempt.isConnecting_arrived hconnecting
    rw [hsame] at hconnecting ⊢
    exact ha.connecting hconnecting
  · intro k x hk hx _
    rw [hrewired.line, hline] at hk
    obtain rfl := Option.some.inj hk
    obtain rfl := Option.some.inj (hrewired.new.symm.trans hx)
    exact hawaits
  · intro u hstage
    rcases hsuccess u hstage with hbefore | ⟨hself, hwritten⟩
    · exact (ha.success u hbefore).mono hadvances
    · exact Begun.mono hadvances ⟨w.listener, hself.symm, hwire.begun_of_success hwritten⟩

variable [DecidableEq ι]

private theorem advances_of_happen {e : Round.Event} (hnode : m'.node = (m.happen i e).node) :
    Advances m m' :=
  advances_change hnode ((m.node i).advances_happen e)

private theorem nodeSound_of_happen {e : Round.Event} (h : Sound members m)
    (hcurrent : (m.node i).current = some run) (hnode : m'.node = (m.happen i e).node)
    (hrun : (run.step e).Sound (AttemptSound members m' i run.round)
      (SessionSound m' i run.round) (Begun members m' run.round))
    (hA : ∀ k round peer a, k ≠ i → AttemptSound members m k round peer a →
      AttemptSound members m' k round peer a)
    (hS : ∀ k round number s, k ≠ i → SessionSound m k round number s →
      SessionSound m' k round number s) (k : ι) : NodeSound members m' k := by
  have hadvances := advances_of_happen hnode
  by_cases hk : k = i
  · subst hk
    refine (h.nodes k).happen hadvances hcurrent ?_ hrun
    rw [hnode]
    exact node_change_self m k _
  · refine (h.nodes k).transfer hadvances ?_ (fun round peer a => hA k round peer a hk)
      fun round number s => hS k round number s hk
    rw [hnode]
    exact node_change_of_ne m hk _

theorem sound_connect (h : Sound members m) (i : ι) (peer : String) (j : ι) :
    Sound members (m.connect i peer j) := by
  rcases connect_cases m i peer j with
    hsame | ⟨run, a, hcurrent, hattempt, hconnecting, hnode, hext⟩
  · rw [hsame]
    exact h
  · have hadvances := advances_of_happen hnode
    have hr := (h.nodes i).current run hcurrent
    obtain ⟨_, _, dial, hdial, hpeer, hdialAttempt⟩ := Run.attempt?_eq_some hattempt
    have hwritten : a.written = [] := by
      rw [← hdialAttempt] at hconnecting ⊢
      exact (hr.sound.client.attempts dial hdial).connecting hconnecting
    have hdialed := Run.sound_step_dialed
      (AttemptSound members (m.connect i peer j) i run.round) hr.sound hattempt
      (fun _ => attemptSound_connected hext rfl hconnecting run.context run.code
        run.config.exchangeTimeout)
      fun d _ hne hd => hext.attempt h hadvances (fun hsame => hne hsame.2) hd
    refine hext.sound h hadvances (nodeSound_of_happen h hcurrent hnode ?_ ?_ ?_) ?_
    · exact hdialed.mono (fun _ _ ha => ha) (fun _ _ hs => hext.session hs)
        fun u hu => hu.mono hadvances
    · exact fun k _ _ _ hk ha => hext.attempt h hadvances (fun hsame => hk hsame.1) ha
    · exact fun _ _ _ _ _ hs => hext.session hs
    · refine ⟨⟨run.code, hr.code, ?_⟩, Or.inl rfl, Nat.le_refl _, fun _ => ⟨rfl, rfl⟩, ?_⟩
      · rw [Attempt.step_connected hconnecting, hwritten, hr.context]
        rfl
      · intro round number hnone
        cases hnone

theorem sound_accept (h : Sound members m) (wire : Nat) : Sound members (m.accept wire) := by
  rcases accept_cases m wire with hsame | ⟨w, run, hwaiting, hcurrent, haccepts, hnode, hrewired⟩
  · rw [hsame]
    exact h
  · have hadvances := advances_of_happen hnode
    have hr := (h.nodes w.listener).current run hcurrent
    have hwire := h.wires wire w hrewired.old
    obtain ⟨hunread, hunanswered⟩ := hwire.waiting hwaiting
    have hA : ∀ k round peer a, AttemptSound members m k round peer a →
        AttemptSound members (m.accept wire) k round peer a :=
      fun k round peer a ha => hrewired.attempt hadvances ha fun _ hawaits => hawaits
    have hS : ∀ s ∈ run.server.sessions, SessionSound m w.listener run.round s.1 s.2 →
        SessionSound (m.accept wire) w.listener run.round s.1 s.2 := by
      intro s hs hsound
      refine hrewired.session hsound ?_
      intro _ hits
      have hlt := hr.sound.server.issued s hs
      have heq : run.server.nextSession = s.1 := congrArg Prod.snd (Option.some.inj hits)
      omega
    have hfresh : SessionSound (m.accept wire) w.listener run.round run.server.nextSession
        .fresh := by
      refine hrewired.session ?_ ?_
      · intro k x hx hlistener hsession
        exact absurd hsession (session_ne_next h hcurrent hx hlistener)
      · intro _ _
        refine ⟨hunanswered.symm, ?_⟩
        intro received hstage
        obtain rfl := Session.Stage.reading.inj hstage
        refine ⟨?_, hunanswered⟩
        show [] = w.request.take w.requestRead
        rw [hunread, List.take_zero]
    have hbefore := hr.sound.mono (fun _ _ ha => hA _ _ _ _ ha) hS fun u hu => hu.mono hadvances
    refine hrewired.sound h hadvances (nodeSound_of_happen h hcurrent hnode ?_ ?_ ?_) ?_ ?_
    · exact Run.sound_step_accepted hbefore haccepts hfresh
    · exact fun k round peer a _ ha => hA k round peer a ha
    · exact fun k _ _ _ hk hs => hrewired.session hs fun hlistener _ => absurd hlistener.symm hk
    · have hmono := hwire.mono hadvances
      refine ⟨hmono.request, hmono.response, hmono.read, fun hnone => (nomatch hnone), ?_⟩
      intro round number hsame
      obtain ⟨rfl, rfl⟩ := Prod.mk.inj (Option.some.inj hsame)
      have hnodeListener : (m.accept wire).node w.listener
          = (m.node w.listener).happen .accepted := by
        rw [hnode]
        exact node_change_self m w.listener _
      constructor
      · refine Nat.lt_of_lt_of_le ?_ (hadvances w.listener).begun
        have hround := hr.round
        omega
      · intro run' hrun' _
        change ((m.accept wire).node w.listener).current = some run' at hrun'
        rw [hnodeListener, Drive.happen, hcurrent] at hrun'
        obtain rfl := Option.some.inj hrun'
        exact Run.nextSession_lt_step_accepted haccepts
    · intro k x _ hx hlistener hsession
      exact absurd hsession (session_ne_next h hcurrent hx hlistener)

theorem sound_carryResponse (h : Sound members m)
    (hpayload : ∀ i j, (members i).context.payload.length = (members j).context.payload.length)
    (wire count : Nat) : Sound members (m.carryResponse wire count) := by
  rcases carryResponse_cases m wire count with
    hsame | ⟨w, run, a, hline, hround, hcurrent, hattempt, hnode, hrewired⟩
  · rw [hsame]
    exact h
  · have hadvances := advances_of_happen hnode
    have hr := (h.nodes w.dialer).current run hcurrent
    have hwire := h.wires wire w hrewired.old
    have hothers : ∀ k round peer a, ¬ (k = w.dialer ∧ peer = w.peer) →
        AttemptSound members m k round peer a →
        AttemptSound members (m.carryResponse wire count) k round peer a := by
      intro k round peer a hother ha
      refine hrewired.attempt hadvances ha ?_
      intro hits
      obtain ⟨x, hx, hdialer, hpeer⟩ := h.lines k peer wire hits
      obtain rfl := Option.some.inj (hx.symm.trans hrewired.old)
      exact absurd ⟨hdialer.symm, hpeer.symm⟩ hother
    have hS : ∀ k round number s, SessionSound m k round number s →
        SessionSound (m.carryResponse wire count) k round number s := by
      intro k round number s hs
      refine hrewired.session hs ?_
      intro hlistener hsession
      have hread := hs wire w hrewired.old hlistener hsession
      exact ⟨hread.written, hread.reading⟩
    have hdialed := Run.sound_step_dialed
      (AttemptSound members (m.carryResponse wire count) w.dialer run.round) hr.sound hattempt
      (fun ha => by
        rw [hr.context, ← hround] at *
        exact attemptSound_arrived h hpayload hadvances hrewired hline ha w.dialer run.code
          run.config.exchangeTimeout)
      fun d _ hne hd => hothers _ _ _ _ (fun hsame => hne hsame.2) hd
    refine hrewired.sound h hadvances (nodeSound_of_happen h hcurrent hnode ?_ ?_ ?_) ?_ ?_
    · exact hdialed.mono (fun _ _ ha => ha) (fun _ _ hs => hS _ _ _ _ hs)
        fun u hu => hu.mono hadvances
    · exact fun k round peer a hk ha => hothers k round peer a (fun hsame => hk hsame.1) ha
    · exact fun k round number s _ hs => hS k round number s hs
    · have hmono := hwire.mono hadvances
      exact ⟨hmono.request, hmono.response, Wire.responseRead_afterResponse_le hwire.read count,
        hmono.waiting, hmono.accepted⟩
    · intro k x hk hx hlistener hsession
      by_contra haccepted
      exact hk (h.sessions k wire x w hx hrewired.old hlistener hsession (hsession ▸ haccepted))

theorem sound_carryRequest (h : Sound members m)
    (hpayload : ∀ i j, (members i).context.payload.length = (members j).context.payload.length)
    (wire count : Nat) : Sound members (m.carryRequest wire count) := by
  rcases carryRequest_cases m wire count with
    hsame | ⟨w, run, number, s, haccepted, hcurrent, hsession, hnode, hrewired⟩
  · rw [hsame]
    exact h
  · have hadvances := advances_of_happen hnode
    have hr := (h.nodes w.listener).current run hcurrent
    have hwire := h.wires wire w hrewired.old
    obtain ⟨_, hmem⟩ := Run.session?_eq_some hsession
    have hread : w.ReadBy s :=
      hr.sound.server.sessions (number, s) hmem wire w hrewired.old rfl haccepted
    obtain ⟨code, hcode, hrequest⟩ := hwire.request
    have hlengths : run.context.payload.length
        = (members w.dialer).context.payload.length := by
      rw [hr.context]
      exact hpayload _ _
    obtain ⟨hread', hwritten⟩ := Wire.readBy_arrived hread hlengths hrequest run.code
      run.config.exchangeTimeout count
    have hsole : ∀ k x, k ≠ wire → m.wires[k]? = some x → x.listener = w.listener →
        x.session ≠ some (run.round, number) := by
      intro k x hk hx hlistener hsame
      refine hk (h.sessions k wire x w hx hrewired.old hlistener (hsame.trans haccepted.symm) ?_)
      rw [hsame]
      exact nofun
    have hA : ∀ k round peer a, AttemptSound members m k round peer a →
        AttemptSound members (m.carryRequest wire count) k round peer a := by
      intro k round peer a ha
      refine hrewired.attempt hadvances ha ?_
      intro _ hawaits
      exact hawaits.of_written hwire.read (hwritten.imp id And.left)
    have hS : ∀ k round number' x,
        ¬ (k = w.listener ∧ (round, number') = (run.round, number)) →
        SessionSound m k round number' x →
        SessionSound (m.carryRequest wire count) k round number' x := by
      intro k round number' x hother hx
      refine hrewired.session hx ?_
      intro hlistener hsame
      exact absurd ⟨hlistener.symm, (Option.some.inj (haccepted.symm.trans hsame)).symm⟩ hother
    have hserved := Run.sound_step_served
      (SessionSound (m.carryRequest wire count) w.listener run.round) hr.sound hsession
      (fun _ k x hx hlistener hsame => by
        rcases hrewired.cases hx with ⟨_, rfl⟩ | ⟨hne, hold⟩
        · exact hread'
        · exact absurd hsame (hsole k x hne hold hlistener))
      fun x _ hne hx => hS _ _ _ _ (fun hsame => hne (congrArg Prod.snd hsame.2)) hx
    refine hrewired.sound h hadvances (nodeSound_of_happen h hcurrent hnode ?_ ?_ ?_) ?_ ?_
    · exact hserved.mono (fun _ _ ha => hA _ _ _ _ ha) (fun _ _ hs => hs)
        fun u hu => hu.mono hadvances
    · exact fun k round peer a _ ha => hA k round peer a ha
    · exact fun k round number' x hk hx => hS k round number' x (fun hsame => hk hsame.1) hx
    · have hmono := hwire.mono hadvances
      refine ⟨hmono.request, ?_, ?_, ?_, hmono.accepted⟩
      · rcases hwritten with hsame | ⟨_, outcome, hanswer, hsuccess⟩
        · rw [Wire.afterRequest, hsame]
          exact hmono.response
        · refine Or.inr ⟨outcome, hr.context ▸ hanswer, ?_⟩
          intro hsucceeded
          -- the request was for the round of the session, which is under way
          rw [hsuccess hsucceeded] at hcode
          have hsameRound : w.round = run.round := eq_of_code?_eq hcode hr.code
          refine Nat.lt_of_lt_of_le ?_ (hadvances w.listener).begun
          have hbegun := hr.round
          show w.round < (m.node w.listener).begun
          omega
      · exact Wire.responseRead_le_of_written (w := w) hwire.read (hwritten.imp id And.left)
      · intro hnone
        exact absurd (haccepted.symm.trans hnone) nofun
    · intro k x hk hx hlistener hsame
      exact absurd (hsame.trans haccepted) (hsole k x hk hx hlistener)

end BeaconMesh.Round.Mesh
