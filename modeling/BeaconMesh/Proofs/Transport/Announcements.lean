import BeaconMesh.Transport.IpHistory

/-!
What a transport for IP networks announces, and when it serves, whatever calls are made and whenever
its announcer looks. The past alone tells which announcer is at work and how many announcements it
has made; every step keeps that true.
-/

set_option autoImplicit false
set_option relaxedAutoImplicit false

namespace BeaconMesh

open Notification (TransportCall)
open Net (SocketAddress)

section Ticks

variable {a next : Announcer} {interval : Duration} {now k : Nat}

theorem Announcer.lt_dueBy_iff : k < a.dueBy interval now ↔
    0 < interval.nanos ∧ a.begunAt ≤ now ∧ k * interval.nanos ≤ (now - a.begunAt) * 1000000 := by
  rw [Announcer.dueBy]
  split
  · rename_i hnone
    omega
  · rename_i hsome
    obtain ⟨hinterval, hnow⟩ := not_or.mp hsome
    have hpos : 0 < interval.nanos := Nat.pos_of_ne_zero hinterval
    rw [Nat.lt_succ_iff, Nat.le_div_iff_mul_le hpos]
    omega

theorem Announcer.tick?_eq_some_iff :
    a.tick? interval now = some next ↔ a.made < a.dueBy interval now ∧ next = a.next := by
  simp [Announcer.tick?, eq_comm]

end Ticks

namespace IpTransport

/-- Address, resolver and server are there together, or none of them is. -/
def Whole (t : IpTransport) : Prop :=
  (t.localAddress.isSome ↔ t.serving = true) ∧ (t.resolving = true ↔ t.serving = true)

section Calls

variable {t : IpTransport} {binding : Except String SocketAddress} {now : Nat}

theorem whole_call (h : t.Whole) (c : TransportCall) : (t.call binding now c).2.Whole := by
  cases c with
  | start =>
    rw [IpTransport.call, start.eq_def]
    split
    · exact h
    · cases binding with
      | error cause => exact h
      | ok address => exact ⟨by simp, by simp⟩
  | shutdown => exact ⟨by simp [IpTransport.call, stop], by simp [IpTransport.call, stop]⟩
  | listen =>
    rw [IpTransport.call, listen]
    split <;> exact h
  | _ => exact h

theorem configured_call (t : IpTransport) (binding : Except String SocketAddress) (now : Nat)
    (c : TransportCall) :
    (t.call binding now c).2.peers = t.peers ∧ (t.call binding now c).2.interval = t.interval := by
  cases c with
  | start =>
    rw [IpTransport.call, start.eq_def]
    split
    · exact ⟨rfl, rfl⟩
    · cases binding <;> exact ⟨rfl, rfl⟩
  | listen =>
    rw [IpTransport.call, listen]
    split <;> exact ⟨rfl, rfl⟩
  | _ => exact ⟨rfl, rfl⟩

theorem announcer_call (t : IpTransport) (binding : Except String SocketAddress) (now : Nat)
    (c : TransportCall) :
    (t.call binding now c).2.announcer
      = if halts c then none
        else if c = .listen then t.announcer.or (some ⟨now, 0⟩)
        else t.announcer := by
  cases c with
  | start =>
    rw [IpTransport.call, start.eq_def]
    split
    · rfl
    · cases binding <;> rfl
  | listen => cases ha : t.announcer <;> simp [IpTransport.call, listen, halts, ha]
  | _ => rfl

theorem start_refused (h : t.serving = true ∨ ∃ cause, binding = .error cause) :
    ∃ cause, t.start binding = (.error cause, t) := by
  by_cases hserving : t.serving = true
  · exact ⟨alreadyStarted, by rw [start.eq_def, if_pos hserving]⟩
  · obtain hserving' | ⟨cause, rfl⟩ := h
    · exact absurd hserving' hserving
    · exact ⟨cause, by rw [start.eq_def, if_neg hserving]⟩

theorem listen_of_isSome (h : t.announcer.isSome = true) : t.listen now = t := if_pos h

theorem announce_of_due {a : Announcer} (ha : t.announcer = some a)
    (hdue : a.made < a.dueBy t.interval now) :
    t.announce now = (t.announcement a.made ++ ((t.withAnnouncer a.next).announce now).1,
      ((t.withAnnouncer a.next).announce now).2) := by
  have hless : a.dueBy t.interval now - a.made
      = (a.dueBy t.interval now - (a.made + 1)) + 1 := by omega
  have hmax : max a.made (a.dueBy t.interval now)
      = max (a.made + 1) (a.dueBy t.interval now) := by omega
  simp only [announce, ha, hless, hmax, List.range'_succ, List.flatMap_cons]
  rfl

theorem announce_of_not_due (hdue : ∀ a ∈ t.announcer, a.dueBy t.interval now ≤ a.made) :
    t.announce now = ([], t) := by
  cases ha : t.announcer with
  | none => simp only [announce, ha]
  | some a =>
    have hmade := hdue a ha
    simp only [announce, ha, Nat.sub_eq_zero_of_le hmade, Nat.max_eq_left hmade]
    exact Prod.ext rfl (ha ▸ rfl)

end Calls

def named (peers : List SocketAddress) (number : Nat) : List PeerAvailability :=
  peers.map fun p => .ofStaticPeer p (UInt32.ofNat (number % UInt32.size))

theorem announcement_eq_named (t : IpTransport) (number : Nat) :
    t.announcement number = named t.peers number := by
  have hgeneration : UInt32.ofNat (number % UInt32.size) = UInt32.ofNat number := by
    apply UInt32.toNat_inj.mp
    simp
  rw [announcement, named, hgeneration]

section Past

variable {peers : List SocketAddress} {interval : Duration}
  {earlier segment moments : List Moment} {a : Announcer}

/-- The announcer that is at work after these moments: listening starts one if there is none. -/
def running : List Moment → Option Announcer
  | [] => none
  | .returned time c _ :: earlier =>
    if halts c then none
    else if c = .listen then (running earlier).or (some ⟨time, 0⟩)
    else running earlier
  | .announced _ _ :: earlier => (running earlier).map Announcer.next

/-- The announcements among these moments with their times, the first one first. -/
def told : List Moment → List (Nat × List PeerAvailability)
  | [] => []
  | .announced time who :: earlier => told earlier ++ [(time, who)]
  | .returned _ _ _ :: earlier => told earlier

def Moment.listens : Moment → Bool
  | .returned _ .listen _ => true
  | _ => false

def Moment.ends : Moment → Bool
  | .returned _ c _ => halts c
  | _ => false

/-- After every call to listen a call has returned that ends the announcing. -/
def Quiet (moments : List Moment) : Prop :=
  ∀ segment time result earlier, moments = segment ++ .returned time .listen result :: earlier →
    ∃ m ∈ segment, m.ends = true

/-- Listening was asked for at a time when no announcer was at work, and in the moments since then
no call has returned that ends the announcing. -/
def ListeningSince (begun : Nat) (segment moments : List Moment) : Prop :=
  ∃ result earlier, moments = segment ++ .returned begun .listen result :: earlier ∧
    Quiet earlier ∧ ∀ m ∈ segment, m.ends = false

/-- The moment can come after these. -/
def Moment.InPlace (peers : List SocketAddress) (interval : Duration) (earlier : List Moment) :
    Moment → Prop
  | .returned _ c result => c = .start ∨ result = .ok ()
  | .announced time who =>
    ∃ a, running earlier = some a ∧ a.made < a.dueBy interval time ∧ who = named peers a.made

def Orderly (peers : List SocketAddress) (interval : Duration) : List Moment → Prop
  | [] => True
  | m :: earlier => m.InPlace peers interval earlier ∧ Orderly peers interval earlier

theorem Orderly.of_append (h : Orderly peers interval (segment ++ earlier)) :
    Orderly peers interval earlier := by
  induction segment with
  | nil => exact h
  | cons m segment ih => exact ih h.2

theorem isSome_running_append (hearlier : (running earlier).isSome = true)
    (hsegment : ∀ m ∈ segment, m.ends = false) :
    (running (segment ++ earlier)).isSome = true := by
  induction segment with
  | nil => exact hearlier
  | cons m segment ih =>
    obtain ⟨hm, hsegment⟩ := List.forall_mem_cons.mp hsegment
    have hsome := ih hsegment
    cases m with
    | announced time who => simpa [running] using hsome
    | returned time c result =>
      have hc : halts c = false := hm
      simp only [List.cons_append, running, hc, Bool.false_eq_true, if_false]
      split
      · simp
      · exact hsome

theorem Quiet.of_cons {m : Moment} (h : Quiet (m :: moments)) (hm : m.ends = false) :
    Quiet moments := by
  rintro segment time result earlier rfl
  obtain ⟨m', hmem, hends⟩ := h (m :: segment) time result earlier rfl
  obtain rfl | hmem := List.mem_cons.mp hmem
  · simp [hm] at hends
  · exact ⟨m', hmem, hends⟩

theorem running_eq_none_iff : running moments = none ↔ Quiet moments := by
  constructor
  · rintro hnone segment time result earlier rfl
    by_cases hends : ∃ m ∈ segment, m.ends = true
    · exact hends
    · have hsome : (running (.returned time .listen result :: earlier)).isSome = true := by
        simp [running, halts]
      have hkept : (running (segment ++ .returned time .listen result :: earlier)).isSome = true :=
        isSome_running_append hsome (by simpa using hends)
      simp [hnone] at hkept
  · intro hquiet
    induction moments with
    | nil => rfl
    | cons m moments ih =>
      cases m with
      | announced time who => simp [running, ih (hquiet.of_cons rfl)]
      | returned time c result =>
        cases hc : halts c with
        | true => simp [running, hc]
        | false =>
          have hlistens : c ≠ .listen := by
            rintro rfl
            obtain ⟨m, hm, -⟩ := hquiet [] time result moments rfl
            cases hm
          simp [running, hlistens, ih (hquiet.of_cons hc)]

theorem told_append : told (segment ++ earlier) = told earlier ++ told segment := by
  induction segment with
  | nil => simp [told]
  | cons m segment ih => cases m <;> simp [told, ih]

theorem told_eq_nil (hearlier : running earlier = none)
    (h : Orderly peers interval (segment ++ earlier))
    (hsegment : ∀ m ∈ segment, m.listens = false) :
    told segment = [] ∧ running (segment ++ earlier) = none := by
  induction segment with
  | nil => exact ⟨rfl, hearlier⟩
  | cons m segment ih =>
    obtain ⟨hm, hsegment⟩ := List.forall_mem_cons.mp hsegment
    obtain ⟨htold, hrunning⟩ := ih h.2 hsegment
    cases m with
    | announced time who =>
      obtain ⟨a, ha, -⟩ := h.1
      cases hrunning.symm.trans ha
    | returned time c result =>
      have hc : c ≠ .listen := by
        rintro rfl
        cases hm
      exact ⟨htold, by simp [running, hc, hrunning]⟩

theorem quiet_of_ends {m : Moment} (hm : m.ends = true) : Quiet (m :: moments) := by
  intro segment time result earlier heq
  cases segment with
  | nil =>
    obtain ⟨rfl, -⟩ := List.cons.inj heq
    cases hm
  | cons m' segment =>
    obtain ⟨rfl, -⟩ := List.cons.inj heq
    exact ⟨m, List.mem_cons_self, hm⟩

/-- From the start of an announcer on the announcements bear the numbers from 0 on, none before it
is due, however often listening is asked for again. -/
theorem told_of_listeningSince {begun : Nat} (h : Orderly peers interval moments)
    (hsince : ListeningSince begun segment moments) :
    (∀ k time who, (told segment)[k]? = some (time, who) →
      who = named peers k ∧ k < Announcer.dueBy ⟨begun, k⟩ interval time) ∧
    running moments = some ⟨begun, (told segment).length⟩ := by
  obtain ⟨result, earlier, rfl, hquiet, hsegment⟩ := hsince
  have hearlier := running_eq_none_iff.mpr hquiet
  -- Both parts go together: the announcer at work tells the number of the next announcement.
  induction segment with
  | nil => exact ⟨by simp [told], by simp [running, halts, hearlier, told]⟩
  | cons m segment ih =>
    obtain ⟨hm, hsegment⟩ := List.forall_mem_cons.mp hsegment
    obtain ⟨htold, hrunning⟩ := ih h.2 hsegment
    cases m with
    | announced time who =>
      obtain ⟨a, ha, hdue, rfl⟩ := h.1
      obtain rfl := Option.some.inj (hrunning.symm.trans ha)
      refine ⟨?_, by simp [running, hrunning, told, Announcer.next]⟩
      intro k time' who' hk
      rw [told, List.getElem?_append] at hk
      split at hk
      · exact htold k time' who' hk
      · obtain ⟨hindex, hlast⟩ := List.getElem?_eq_some_iff.mp hk
        have hlength : k = (told segment).length := by
          rw [List.length_singleton] at hindex
          omega
        subst hlength
        simp only [Nat.sub_self, List.getElem_singleton, Prod.mk.injEq] at hlast
        exact ⟨hlast.2.symm, hlast.1 ▸ hdue⟩
    | returned time c result =>
      have hc : halts c = false := hm
      exact ⟨htold, by simp [running, hc, hrunning, told]⟩

end Past

section Steps

variable {peers : List SocketAddress} {interval : Duration} {h : History}

namespace History

def announcers (h : History) : List Announcer :=
  h.transport.announcer.toList ++ (h.halt.bind Halt.announcer).toList

def announcer? (h : History) : Option Announcer :=
  h.transport.announcer.or (h.halt.bind Halt.announcer)

/-- What holds of a transport that was asked to announce these peers. -/
structure Sound (peers : List SocketAddress) (interval : Duration) (h : History) : Prop where
  peers_eq : h.transport.peers = peers
  interval_eq : h.transport.interval = interval
  whole : h.transport.Whole
  single : ∀ halt ∈ h.halt, halts halt.call = true ∧ h.transport.announcer = none
  running_eq : running h.moments = h.announcer?
  orderly : Orderly peers interval h.moments

theorem sound_fresh (httpAddress : SocketAddress) :
    (fresh httpAddress peers interval).Sound peers interval where
  peers_eq := rfl
  interval_eq := rfl
  whole := by simp [Whole, fresh, IpTransport.fresh]
  single := by simp [fresh]
  running_eq := rfl
  orderly := trivial

theorem announcer?_of_none (hhalt : h.halt = none) : h.announcer? = h.transport.announcer := by
  rw [announcer?, hhalt, Option.bind_none, Option.or_none]

theorem Sound.length_announcers (hs : h.Sound peers interval) : h.announcers.length ≤ 1 := by
  cases hhalt : h.halt with
  | none => cases ha : h.transport.announcer <;> simp [announcers, hhalt, ha]
  | some halt =>
    have hnone := (hs.single halt hhalt).2
    cases ha : halt.announcer <;> simp [announcers, hhalt, hnone, ha]

theorem Sound.call (hs : h.Sound peers interval) (hhalt : h.halt = none) (c : TransportCall)
    (binding : Except String SocketAddress) : (h.call c binding).Sound peers interval := by
  have hrunning := hs.running_eq.trans (announcer?_of_none hhalt)
  obtain ⟨hpeers, hinterval⟩ := configured_call h.transport binding h.now c
  have hannouncer := announcer_call h.transport binding h.now c
  simp only [History.call]
  split
  · rename_i hc
    rw [if_pos hc] at hannouncer
    refine ⟨hpeers.trans hs.peers_eq, hinterval.trans hs.interval_eq,
      whole_call hs.whole c, ?_, ?_, hs.orderly⟩
    · rintro _ ⟨⟩
      exact ⟨hc, hannouncer⟩
    · rw [hrunning, announcer?, hannouncer, Option.none_or, Option.bind_some]
  · rename_i hc
    refine ⟨hpeers.trans hs.peers_eq, hinterval.trans hs.interval_eq,
      whole_call hs.whole c, ?_, ?_, ?_, hs.orderly⟩
    · simp [note, hhalt]
    · rw [announcer?_of_none (by exact hhalt)]
      simp [note, running, hannouncer, hrunning]
    · cases c <;> simp [Moment.InPlace, IpTransport.call]

theorem step_call_of_returning {c : TransportCall} {binding : Except String SocketAddress}
    (hhalt : h.halt = none) (hc : halts c = false) :
    h.step (.call c binding) = { h with transport := (h.transport.call binding h.now c).2 }.note
      (.returned h.now c (h.transport.call binding h.now c).1) := by
  have hnone : ¬ h.halt.isSome = true := by simp [hhalt]
  have hreturns : ¬ halts c = true := by simp [hc]
  rw [History.step, if_neg hnone]
  exact if_neg hreturns

theorem Sound.announced {a : Announcer} (hs : h.Sound peers interval) (ha : h.announcer? = some a)
    (hdue : a.made < a.dueBy h.transport.interval h.now) :
    running (.announced h.now (h.transport.announcement a.made) :: h.moments) = some a.next ∧
    Orderly peers interval (.announced h.now (h.transport.announcement a.made) :: h.moments) := by
  have hrunning : running h.moments = some a := hs.running_eq.trans ha
  have hnamed : h.transport.announcement a.made = named peers a.made := by
    rw [announcement_eq_named, hs.peers_eq]
  exact ⟨by rw [running, hrunning, Option.map_some],
    ⟨a, hrunning, hs.interval_eq ▸ hdue, hnamed⟩, hs.orderly⟩

theorem Sound.step (hs : h.Sound peers interval) (e : Event) : (h.step e).Sound peers interval := by
  cases e with
  | call c binding =>
    rw [History.step]
    split
    · exact hs
    · rename_i hnone
      exact hs.call (Option.not_isSome_iff_eq_none.mp hnone) c binding
  | tick =>
    rw [History.step]
    split
    · exact hs
    · rename_i a ha
      split
      · exact hs
      · rename_i next hnext
        obtain ⟨hdue, rfl⟩ := Announcer.tick?_eq_some_iff.mp hnext
        have hwork : h.announcer? = some a := by rw [announcer?, ha, Option.some_or]
        obtain ⟨hrunning, horderly⟩ := hs.announced hwork hdue
        refine ⟨hs.peers_eq, hs.interval_eq, hs.whole, ?_, hrunning, horderly⟩
        intro halt hhalt
        cases (hs.single halt hhalt).2.symm.trans ha
  | linger =>
    rw [History.step]
    split
    · rename_i c a hhalt
      obtain ⟨hends, hnone⟩ := hs.single _ hhalt
      split
      · exact hs
      · rename_i next hnext
        obtain ⟨hdue, rfl⟩ := Announcer.tick?_eq_some_iff.mp hnext
        have hwork : h.announcer? = some a := by
          rw [announcer?, hnone, hhalt, Option.none_or, Option.bind_some]
        obtain ⟨hrunning, horderly⟩ := hs.announced hwork hdue
        refine ⟨hs.peers_eq, hs.interval_eq, hs.whole, ?_, ?_, horderly⟩
        · rintro _ ⟨⟩
          exact ⟨hends, hnone⟩
        · rw [announcer?]
          simp [note, hrunning, hnone]
    · exact hs
  | leave =>
    rw [History.step]
    split
    · exact hs
    · rename_i halt hhalt
      obtain ⟨hends, hnone⟩ := hs.single halt hhalt
      refine ⟨hs.peers_eq, hs.interval_eq, hs.whole, by simp [note], ?_, ?_, hs.orderly⟩
      · simp [note, running, hends, announcer?, hnone]
      · exact .inr rfl
  | advance ms => exact ⟨hs.1, hs.2, hs.3, hs.4, hs.5, hs.6⟩

theorem Sound.run (hs : h.Sound peers interval) (events : List Event) :
    (h.run events).Sound peers interval := by
  induction events generalizing h with
  | nil => exact hs
  | cons e events ih => exact ih (hs.step e)

theorem tick_of_due {a : Announcer} (ha : h.transport.announcer = some a)
    (hdue : a.made < a.dueBy h.transport.interval h.now) :
    h.step .tick = { h with transport := h.transport.withAnnouncer a.next }.note
      (.announced h.now (h.transport.announcement a.made)) := by
  have htick := Announcer.tick?_eq_some_iff.mpr ⟨hdue, rfl⟩
  simp only [History.step, ha, htick]

def overdue (h : History) : Nat :=
  match h.transport.announcer with
  | none => 0
  | some a => a.dueBy h.transport.interval h.now - a.made

theorem run_ticks {n : Nat} (hn : h.overdue = n) :
    (h.run (List.replicate n .tick)).transport = (h.transport.announce h.now).2 ∧
    ∃ segment, (h.run (List.replicate n .tick)).moments = segment ++ h.moments ∧
      (told segment).flatMap Prod.snd = (h.transport.announce h.now).1 := by
  induction n generalizing h with
  | zero =>
    have hdue : ∀ a ∈ h.transport.announcer, a.dueBy h.transport.interval h.now ≤ a.made := by
      intro a ha
      rw [overdue, ha] at hn
      exact Nat.le_of_sub_eq_zero hn
    rw [announce_of_not_due hdue]
    exact ⟨rfl, [], rfl, rfl⟩
  | succ n ih =>
    cases ha : h.transport.announcer with
    | none => simp [overdue, ha] at hn
    | some a =>
      simp only [overdue, ha] at hn
      have hdue : a.made < a.dueBy h.transport.interval h.now := by omega
      have hnext : (h.step .tick).overdue = n := by
        rw [tick_of_due ha hdue]
        change a.dueBy h.transport.interval h.now - (a.made + 1) = n
        omega
      obtain ⟨htransport, segment, hmoments, htold⟩ := ih hnext
      rw [tick_of_due ha hdue] at htransport hmoments htold
      rw [List.replicate_succ, run, List.foldl_cons, tick_of_due ha hdue, announce_of_due ha hdue]
      refine ⟨htransport, segment ++ [.announced h.now (h.transport.announcement a.made)], ?_, ?_⟩
      · rw [List.append_assoc]
        exact hmoments
      · rw [told_append, List.flatMap_append, htold]
        simp [told, note]

end History

end Steps

/-- Whatever calls are made one after another, whatever comes of binding, and whenever the announcer
looks: the address, the resolver and the server are there together or not at all; a start that is
refused changes nothing, and any other makes them be there until a call stops the transport. At most
one announcer has not ended, and asking for announcements again changes nothing. From the call on
that starts an announcer, announcement `k` names the configured peers in their order with generation
`k` modulo `2 ^ 32`, not before `k` intervals have passed, and it is made when the announcer looks
after that. Once a call that ends the announcing has returned nothing is announced until listening
is asked for. What `announce` makes at once is what the announcer makes one by one. -/
theorem announcing_decided (httpAddress : SocketAddress) (peers : List SocketAddress)
    (interval : Duration) (events : List Event) :
    let h := (History.fresh httpAddress peers interval).run events
    h.transport.Whole ∧
    (∀ binding, h.halt = none → h.transport.serving = true ∨ (∃ cause, binding = .error cause) →
      ∃ cause, h.step (.call .start binding) = h.note (.returned h.now .start (.error cause))) ∧
    (∀ address, h.halt = none → h.transport.serving = false →
      h.step (.call .start (.ok address)) = { h with
        transport := { h.transport with
          serving := true, localAddress := some address, resolving := true } }.note
            (.returned h.now .start (.ok ()))) ∧
    (∀ binding, h.halt = none → (h.step (.call .shutdown binding)).transport.serving = false) ∧
    h.announcers.length ≤ 1 ∧
    (∀ binding, h.halt = none → h.transport.announcer.isSome = true →
      h.step (.call .listen binding) = h.note (.returned h.now .listen (.ok ()))) ∧
    (∀ later moments begun segment, h.moments = later ++ moments →
      ListeningSince begun segment moments → ∀ k time who, (told segment)[k]? = some (time, who) →
        who = peers.map (fun p => .ofStaticPeer p (UInt32.ofNat (k % UInt32.size))) ∧
        0 < interval.nanos ∧ begun ≤ time ∧ k * interval.nanos ≤ (time - begun) * 1000000) ∧
    (∀ begun segment, h.halt = none → ListeningSince begun segment h.moments →
      0 < interval.nanos → begun ≤ h.now →
      (told segment).length * interval.nanos ≤ (h.now - begun) * 1000000 →
      (h.step .tick).moments
        = .announced h.now (named peers (told segment).length) :: h.moments) ∧
    (∀ later segment time c result earlier,
      h.moments = later ++ segment ++ .returned time c result :: earlier → halts c = true →
      (∀ m ∈ segment, m.listens = false) → told segment = []) ∧
    (h.run (List.replicate h.overdue .tick)).transport = (h.transport.announce h.now).2 ∧
    ∃ segment, (h.run (List.replicate h.overdue .tick)).moments = segment ++ h.moments ∧
      (told segment).flatMap Prod.snd = (h.transport.announce h.now).1 := by
  intro h
  have hs : h.Sound peers interval := (History.sound_fresh httpAddress).run events
  clear_value h
  refine ⟨hs.whole, ?_, ?_, ?_, hs.length_announcers, ?_, ?_, ?_, ?_,
    History.run_ticks rfl⟩
  · intro binding hhalt hrefused
    obtain ⟨cause, hstart⟩ := start_refused hrefused
    refine ⟨cause, ?_⟩
    rw [History.step_call_of_returning hhalt rfl, IpTransport.call, hstart]
  · intro address hhalt hserving
    rw [History.step_call_of_returning hhalt rfl, IpTransport.call, start.eq_def, hserving]
    rfl
  · intro binding hhalt
    simp [History.step, hhalt, History.call, halts, IpTransport.call, stop]
  · intro binding hhalt hsome
    rw [History.step_call_of_returning hhalt rfl, IpTransport.call, listen_of_isSome hsome]
  · intro later moments begun segment hmoments hsince k time who hk
    have horderly : Orderly peers interval (later ++ moments) := hmoments ▸ hs.orderly
    obtain ⟨hwho, hdue⟩ := (told_of_listeningSince horderly.of_append hsince).1 k time who hk
    exact ⟨hwho, Announcer.lt_dueBy_iff.mp hdue⟩
  · intro begun segment hhalt hsince hinterval hbegun hpassed
    have hrunning := (told_of_listeningSince hs.orderly hsince).2
    rw [hs.running_eq, History.announcer?_of_none hhalt] at hrunning
    have hdue : (told segment).length
        < Announcer.dueBy ⟨begun, (told segment).length⟩ h.transport.interval h.now := by
      rw [hs.interval_eq]
      exact Announcer.lt_dueBy_iff.mpr ⟨hinterval, hbegun, hpassed⟩
    rw [History.tick_of_due hrunning hdue, announcement_eq_named, hs.peers_eq]
    rfl
  · intro later segment time c result earlier hmoments hends hsegment
    have horderly : Orderly peers interval
        (later ++ segment ++ .returned time c result :: earlier) := hmoments ▸ hs.orderly
    rw [List.append_assoc] at horderly
    have hquiet : Quiet (.returned time c result :: earlier) := quiet_of_ends hends
    exact (told_eq_nil (running_eq_none_iff.mpr hquiet) horderly.of_append hsegment).1

-- Listening is asked for twice, and a late announcer goes on until it has ended.
example :
    let peer : SocketAddress := .v4 ⟨10, 0, 0, 7⟩ 9001
    let h := (History.fresh peer [peer] (.ofSecs 30)).run
      [.call .listen (.ok peer), .tick, .tick, .advance 20000, .call .listen (.ok peer), .tick,
        .advance 41000, .tick, .call .unlisten (.ok peer), .linger, .linger, .leave, .linger]
    (told h.moments).map (fun entry => (entry.1, entry.2.map PeerAvailability.generation))
      = [(0, [0]), (61000, [1]), (61000, [2])] := by
  cbv

end IpTransport

end BeaconMesh
