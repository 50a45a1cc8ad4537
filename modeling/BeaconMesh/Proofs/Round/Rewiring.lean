import BeaconMesh.Proofs.Round.MeshSteps

/-!
What an event does to the connections: it adds one, changes one, or leaves them as they are. Each
way carries over what holds of attempts, sessions and connections.
-/

set_option autoImplicit false
set_option relaxedAutoImplicit false

namespace BeaconMesh.Round.Mesh

variable {ι : Type} {members : ι → Coordinator} {m m' : Mesh ι}

private theorem getElem?_snoc {wires : List (Wire ι)} {w x : Wire ι} {k : Nat}
    (h : (wires ++ [w])[k]? = some x) :
    wires[k]? = some x ∨ (k = wires.length ∧ x = w) := by
  rcases Nat.lt_trichotomy k wires.length with hlt | heq | hgt
  · rw [List.getElem?_append_left hlt] at h
    exact Or.inl h
  · rw [heq, List.getElem?_concat_length] at h
    exact Or.inr ⟨heq, (Option.some.inj h).symm⟩
  · rw [List.getElem?_eq_none (by rw [List.length_append, List.length_singleton]; omega)] at h
    cases h

private theorem getElem?_of_snoc {wires : List (Wire ι)} (w : Wire ι) {x : Wire ι} {k : Nat}
    (h : wires[k]? = some x) : (wires ++ [w])[k]? = some x := by
  have hlt : k < wires.length := (List.getElem?_eq_some_iff.mp h).1
  rw [List.getElem?_append_left hlt, h]

private theorem getElem?_set {wires : List (Wire ι)} {w x : Wire ι} {wire k : Nat}
    (h : (wires.set wire w)[k]? = some x) :
    (k = wire ∧ x = w) ∨ (k ≠ wire ∧ wires[k]? = some x) := by
  by_cases hk : k = wire
  · subst hk
    rw [List.getElem?_set_self'] at h
    rcases hold : wires[k]? with _ | old
    · rw [hold] at h
      cases h
    · rw [hold] at h
      exact Or.inl ⟨rfl, (Option.some.inj h).symm⟩
  · rw [List.getElem?_set_ne (Ne.symm hk)] at h
    exact Or.inr ⟨hk, h⟩

structure Extended (m m' : Mesh ι) (i : ι) (peer : String) (w : Wire ι) : Prop where
  wires : m'.wires = m.wires ++ [w]
  newLine : m'.line i peer = some m.wires.length
  oldLine : ∀ k other, ¬ (k = i ∧ other = peer) → m'.line k other = m.line k other
  dialer : w.dialer = i
  peer : w.peer = peer
  waiting : w.session = none

namespace Extended

variable {i : ι} {peer : String} {w : Wire ι}

theorem new (h : Extended m m' i peer w) : m'.wires[m.wires.length]? = some w := by
  rw [h.wires, List.getElem?_concat_length]

theorem of_old (h : Extended m m' i peer w) {k : Nat} {x : Wire ι} (hx : m.wires[k]? = some x) :
    m'.wires[k]? = some x := by
  rw [h.wires]
  exact getElem?_of_snoc w hx

theorem cases (h : Extended m m' i peer w) {k : Nat} {x : Wire ι} (hx : m'.wires[k]? = some x) :
    m.wires[k]? = some x ∨ (k = m.wires.length ∧ x = w) := by
  rw [h.wires] at hx
  exact getElem?_snoc hx

theorem attempt (h : Extended m m' i peer w) (hm : Sound members m) (hadvances : Advances m m')
    {k : ι} {round : Nat} {other : String} {a : Attempt} (hother : ¬ (k = i ∧ other = peer))
    (ha : AttemptSound members m k round other a) : AttemptSound members m' k round other a := by
  refine ha.transfer hadvances ?_
  intro wire x hline hx
  rw [h.oldLine k other hother] at hline
  obtain ⟨old, hold, _, _⟩ := hm.lines k other wire hline
  obtain rfl := Option.some.inj ((h.of_old hold).symm.trans hx)
  exact ⟨old, hline, hold, rfl, fun hawaits => hawaits⟩

theorem session (h : Extended m m' i peer w) {k : ι} {round number : Nat} {s : Session}
    (hs : SessionSound m k round number s) : SessionSound m' k round number s := by
  intro wire x hx hlistener hsession
  rcases h.cases hx with hold | ⟨_, rfl⟩
  · exact hs wire x hold hlistener hsession
  · rw [h.waiting] at hsession
    cases hsession

theorem sound (h : Extended m m' i peer w) (hm : Sound members m) (hadvances : Advances m m')
    (hnodes : ∀ k, NodeSound members m' k) (hw : WireSound members m' w) : Sound members m' := by
  refine ⟨hnodes, ?_, ?_, ?_⟩
  · intro k x hx
    rcases h.cases hx with hold | ⟨_, rfl⟩
    · exact (hm.wires k x hold).mono hadvances
    · exact hw
  · intro k other wire hline
    by_cases hsame : k = i ∧ other = peer
    · obtain ⟨rfl, rfl⟩ := hsame
      rw [h.newLine] at hline
      obtain rfl := Option.some.inj hline
      exact ⟨w, h.new, h.dialer, h.peer⟩
    · rw [h.oldLine k other hsame] at hline
      obtain ⟨x, hx, hdialer, hpeer⟩ := hm.lines k other wire hline
      exact ⟨x, h.of_old hx, hdialer, hpeer⟩
  · intro k₁ k₂ x₁ x₂ hx₁ hx₂ hlistener hsame haccepted
    rcases h.cases hx₁ with hold₁ | ⟨_, rfl⟩
    · rcases h.cases hx₂ with hold₂ | ⟨_, rfl⟩
      · exact hm.sessions k₁ k₂ x₁ x₂ hold₁ hold₂ hlistener hsame haccepted
      · exact absurd (hsame.trans h.waiting) haccepted
    · exact absurd h.waiting haccepted

end Extended

structure Rewired (m m' : Mesh ι) (wire : Nat) (w w' : Wire ι) : Prop where
  old : m.wires[wire]? = some w
  wires : m'.wires = m.wires.set wire w'
  line : m'.line = m.line
  dialer : w'.dialer = w.dialer
  peer : w'.peer = w.peer
  round : w'.round = w.round
  listener : w'.listener = w.listener

namespace Rewired

variable {wire : Nat} {w w' : Wire ι}

theorem new (h : Rewired m m' wire w w') : m'.wires[wire]? = some w' := by
  have hlt : wire < m.wires.length := (List.getElem?_eq_some_iff.mp h.old).1
  rw [h.wires, List.getElem?_set_self hlt]

theorem cases (h : Rewired m m' wire w w') {k : Nat} {x : Wire ι} (hx : m'.wires[k]? = some x) :
    (k = wire ∧ x = w') ∨ (k ≠ wire ∧ m.wires[k]? = some x) := by
  rw [h.wires] at hx
  exact getElem?_set hx

theorem attempt (h : Rewired m m' wire w w') (hadvances : Advances m m') {i : ι} {round : Nat}
    {peer : String} {a : Attempt} (ha : AttemptSound members m i round peer a)
    (hawaits : m.line i peer = some wire → w.AwaitedBy a → w'.AwaitedBy a) :
    AttemptSound members m' i round peer a := by
  refine ha.transfer hadvances ?_
  intro k x hline hx
  rw [h.line] at hline
  rcases h.cases hx with ⟨rfl, rfl⟩ | ⟨_, hold⟩
  · exact ⟨w, hline, h.old, h.round.symm, hawaits hline⟩
  · exact ⟨x, hline, hold, rfl, fun hread => hread⟩

theorem session (h : Rewired m m' wire w w') {i : ι} {round number : Nat} {s : Session}
    (hs : SessionSound m i round number s)
    (hread : w'.listener = i → w'.session = some (round, number) → w'.ReadBy s) :
    SessionSound m' i round number s := by
  intro k x hx hlistener hsession
  rcases h.cases hx with ⟨rfl, rfl⟩ | ⟨_, hold⟩
  · exact hread hlistener hsession
  · exact hs k x hold hlistener hsession

theorem sound (h : Rewired m m' wire w w') (hm : Sound members m) (hadvances : Advances m m')
    (hnodes : ∀ i, NodeSound members m' i) (hw : WireSound members m' w')
    (hsession : ∀ k x, k ≠ wire → m.wires[k]? = some x → x.listener = w'.listener →
      x.session = w'.session → w'.session = none) : Sound members m' := by
  refine ⟨hnodes, ?_, ?_, ?_⟩
  · intro k x hx
    rcases h.cases hx with ⟨_, rfl⟩ | ⟨_, hold⟩
    · exact hw
    · exact (hm.wires k x hold).mono hadvances
  · intro i peer k hline
    rw [h.line] at hline
    obtain ⟨x, hx, hdialer, hpeer⟩ := hm.lines i peer k hline
    by_cases hk : k = wire
    · subst hk
      obtain rfl := Option.some.inj (hx.symm.trans h.old)
      exact ⟨w', h.new, h.dialer.trans hdialer, h.peer.trans hpeer⟩
    · refine ⟨x, ?_, hdialer, hpeer⟩
      rw [h.wires, List.getElem?_set_ne (Ne.symm hk), hx]
  · intro k₁ k₂ x₁ x₂ hx₁ hx₂ hlistener hsame haccepted
    rcases h.cases hx₁ with ⟨rfl, rfl⟩ | ⟨hne₁, hold₁⟩
    · rcases h.cases hx₂ with ⟨rfl, rfl⟩ | ⟨hne₂, hold₂⟩
      · rfl
      · exact absurd (hsession k₂ x₂ hne₂ hold₂ hlistener.symm hsame.symm) haccepted
    · rcases h.cases hx₂ with ⟨rfl, rfl⟩ | ⟨_, hold₂⟩
      · exact absurd (hsame.trans (hsession k₁ x₁ hne₁ hold₁ hlistener hsame)) haccepted
      · exact hm.sessions k₁ k₂ x₁ x₂ hold₁ hold₂ hlistener hsame haccepted

end Rewired

variable [DecidableEq ι]

theorem connect_cases (m : Mesh ι) (i : ι) (peer : String) (j : ι) :
    m.connect i peer j = m ∨ ∃ run a, (m.node i).current = some run ∧
      run.attempt? peer = some a ∧ a.isConnecting = true ∧
      (m.connect i peer j).node = (m.happen i (.dialed peer .connected)).node ∧
      Extended m (m.connect i peer j) i peer ⟨i, peer, run.round, j, none,
        (a.step run.context run.code run.config.exchangeTimeout .connected).written, 0, [], 0⟩ := by
  unfold connect
  split
  · exact Or.inl rfl
  · rename_i run hcurrent
    split
    · exact Or.inl rfl
    · rename_i a hattempt
      split
      · rename_i hconnecting
        refine Or.inr ⟨run, a, hcurrent, hattempt, hconnecting, rfl, rfl, ?_, ?_, rfl, rfl, rfl⟩
        · exact if_pos ⟨rfl, rfl⟩
        · exact fun k other hother => if_neg hother
      · exact Or.inl rfl

theorem accept_cases (m : Mesh ι) (wire : Nat) :
    m.accept wire = m ∨ ∃ w run, w.session = none ∧ (m.node w.listener).current = some run ∧
      run.accepts = true ∧ (m.accept wire).node = (m.happen w.listener .accepted).node ∧
      Rewired m (m.accept wire) wire w
        { w with session := some (run.round, run.server.nextSession) } := by
  unfold accept
  split
  · exact Or.inl rfl
  · rename_i w hw
    split
    · rename_i run hwaiting hcurrent
      split
      · rename_i haccepts
        exact Or.inr ⟨w, run, hwaiting, hcurrent, haccepts, rfl, hw, rfl, rfl, rfl, rfl, rfl, rfl⟩
      · exact Or.inl rfl
    · exact Or.inl rfl

theorem carryRequest_cases (m : Mesh ι) (wire count : Nat) :
    m.carryRequest wire count = m ∨ ∃ w run number s, w.session = some (run.round, number) ∧
      (m.node w.listener).current = some run ∧ run.session? number = some s ∧
      (m.carryRequest wire count).node
        = (m.happen w.listener (.served number (.arrived (w.nextRequest count)))).node ∧
      Rewired m (m.carryRequest wire count) wire w
        (w.afterRequest count (s.step run.context run.code run.config.exchangeTimeout
          (.arrived (w.nextRequest count))).written) := by
  unfold carryRequest
  split
  · exact Or.inl rfl
  · rename_i w hw
    split
    · rename_i round number run haccepted hcurrent
      split
      · rename_i hround
        subst hround
        split
        · exact Or.inl rfl
        · rename_i s hsession
          exact Or.inr ⟨w, run, number, s, haccepted, hcurrent, hsession, rfl, hw, rfl, rfl, rfl,
            rfl, rfl, rfl⟩
      · exact Or.inl rfl
    · exact Or.inl rfl

theorem carryResponse_cases (m : Mesh ι) (wire count : Nat) :
    m.carryResponse wire count = m ∨ ∃ w run a, m.line w.dialer w.peer = some wire ∧
      w.round = run.round ∧ (m.node w.dialer).current = some run ∧
      run.attempt? w.peer = some a ∧
      (m.carryResponse wire count).node
        = (m.happen w.dialer (.dialed w.peer (.arrived (w.nextResponse count)))).node ∧
      Rewired m (m.carryResponse wire count) wire w (w.afterResponse count) := by
  unfold carryResponse
  split
  · exact Or.inl rfl
  · rename_i w hw
    split
    · exact Or.inl rfl
    · rename_i run hcurrent
      split
      · rename_i hlive
        obtain ⟨hline, hround, hattempt⟩ := hlive
        obtain ⟨a, ha⟩ := Option.isSome_iff_exists.mp hattempt
        exact Or.inr ⟨w, run, a, hline, hround, hcurrent, ha, rfl, hw, rfl, rfl, rfl, rfl, rfl, rfl⟩
      · exact Or.inl rfl

end BeaconMesh.Round.Mesh
