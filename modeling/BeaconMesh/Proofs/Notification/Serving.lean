import BeaconMesh.Notification.ServerHistory
import BeaconMesh.Proofs.Beacon.RoundTrip
import Mathlib.Data.List.Find

/-!
What a server hands out after any operations. A start publishes before it asks the transport to
advertise anew, so that a start which fails there has changed what is handed out; every other
failure leaves the server as it was.
-/

set_option autoImplicit false
set_option relaxedAutoImplicit false

namespace BeaconMesh.Notification.Server

open Beacon

/-- What is made for recipients; nothing is handed out if there are none. -/
def offerTo (keys : KeyPair) (ttl : Duration) (now : Instant) (e : Entropy)
    (recipients : List PublicKey) : Except Fault Published :=
  if recipients.isEmpty then .ok .nothing
  else
    match (generate recipients keys ttl now e).1 with
    | .error fault => .error (.beacon fault)
    | .ok set => .ok ⟨some set⟩

def Operation.offer (keys : KeyPair) (ttl : Duration) (o : Operation) : Except Fault Published :=
  match o.command with
  | .start recipients => offerTo keys ttl o.now o.entropy recipients
  | .startFromBytes recipients =>
    match keysOf recipients with
    | .error fault => .error (.invalidArgument fault)
    | .ok recipients => offerTo keys ttl o.now o.entropy recipients
  | .stop => .ok .nothing

def Operation.isStop (o : Operation) : Bool :=
  match o.command with
  | .stop => true
  | _ => false

/-- The transport was asked to advertise anew and refused. -/
def Turn.unannounced (t : Turn) : Bool := t.calls.contains .refresh && !t.result.isOk

/-- The turn is a stop or a start that has returned with success. -/
def Turn.succeeded (t : Turn) : Bool := t.operation.isStop || t.result.isOk

/-- What the latest of the turns that count has made to be handed out. -/
def latest (keys : KeyPair) (ttl : Duration) (counts : Turn → Bool) (turns : List Turn) :
    Published :=
  match turns.find? counts with
  | none => .nothing
  | some t => (t.operation.offer keys ttl).toOption.getD .nothing

variable {s : Server} {o : Operation}

theorem offer_stop {keys : KeyPair} {ttl : Duration} (hstop : o.isStop = true) :
    o.offer keys ttl = .ok .nothing := by
  unfold Operation.isStop at hstop
  unfold Operation.offer
  cases hcommand : o.command with
  | stop => rfl
  | start recipients => simp [hcommand] at hstop
  | startFromBytes recipients => simp [hcommand] at hstop

theorem offerTo_of_generate {keys : KeyPair} {ttl : Duration} {now : Instant} {e : Entropy}
    {recipients : List PublicKey} {set : BeaconSet} (hsome : recipients ≠ [])
    (hmade : (generate recipients keys ttl now e).1 = .ok set) :
    offerTo keys ttl now e recipients = .ok ⟨some set⟩ := by
  rw [offerTo, if_neg (by simpa using hsome), hmade]

theorem begin_start (hstart : o.isStop = false) :
    (s.begin o.command o.now o.entropy).1 = match o.offer s.keys s.ttl with
      | .error fault => (.done (.error fault), s)
      | .ok next => s.prepare next := by
  have hto : ∀ recipients, (s.start recipients o.now o.entropy).1
      = match offerTo s.keys s.ttl o.now o.entropy recipients with
        | .error fault => (.done (.error fault), s)
        | .ok next => s.prepare next := by
    intro recipients
    unfold start offerTo
    split
    · rfl
    · rcases generate recipients s.keys s.ttl o.now o.entropy with ⟨_ | _, _⟩ <;> rfl
  unfold Operation.isStop at hstart
  unfold begin Operation.offer
  cases hcommand : o.command with
  | start recipients => exact hto recipients
  | startFromBytes recipients =>
    cases hkeys : keysOf recipients with
    | error fault => simp only [hkeys]
    | ok keys => simpa only [hkeys] using hto keys
  | stop => simp [hcommand] at hstart

/-- The calls a server makes to publish: the transport begins to serve the first time, and
advertises anew if anything was or is handed out. -/
def callsFor (s : Server) (next : Published) : List TransportCall :=
  (if s.serving then [] else [.start])
    ++ if s.published.set.isSome || next.set.isSome then [.refresh] else []

def announcement (s : Server) (o : Operation) (next : Published) : Except Fault Unit :=
  if s.published.set.isSome || next.set.isSome then
    (o.answer .refresh).mapError .advertising
  else .ok ()

theorem complete_publish (next : Published) :
    complete o.answer (s.publish next) =
      (if s.published.set.isSome || next.set.isSome then [.refresh] else [],
        s.announcement o next, { s with published := next, phase := .running }) := by
  unfold publish announcement
  by_cases hadvertise : (s.published.set.isSome || next.set.isSome) = true
  · simp only [hadvertise, if_true]
    rw [complete]
    simp only [Pending.call]
    rcases o.answer .refresh with cause | _ <;> simp only [resume] <;> rw [complete] <;> rfl
  · simp only [hadvertise, Bool.false_eq_true, if_false]
    rw [complete]

theorem carryOut_stop (hstop : o.isStop = true) :
    s.carryOut o = (⟨o, [.stop], (o.answer .stop).mapError .stop⟩,
      { s with published := .nothing, phase := .stopped }) := by
  have hcommand : o.command = .stop := by
    unfold Operation.isStop at hstop
    split at hstop
    · assumption
    · cases hstop
  rw [carryOut, hcommand, begin, complete]
  simp only [Pending.call]
  rcases o.answer .stop with cause | _ <;> simp only [resume] <;> rw [complete] <;> rfl

theorem carryOut_refused (hstart : o.isStop = false) {fault : Fault}
    (hoffer : o.offer s.keys s.ttl = .error fault) : s.carryOut o = (⟨o, [], .error fault⟩, s) := by
  rw [carryOut, begin_start hstart, hoffer]
  simp only
  rw [complete]

theorem carryOut_unserved (hstart : o.isStop = false) {next : Published} {cause : String}
    (hoffer : o.offer s.keys s.ttl = .ok next) (hserving : s.serving = false)
    (hanswer : o.answer .start = .error cause) :
    s.carryOut o = (⟨o, [.start], .error (.advertising cause)⟩, { s with phase := .stopped }) := by
  rw [carryOut, begin_start hstart, hoffer]
  simp only [prepare, hserving, Bool.false_eq_true, if_false]
  rw [complete]
  simp only [Pending.call, hanswer, resume]
  rw [complete]

theorem carryOut_published (hstart : o.isStop = false) {next : Published}
    (hoffer : o.offer s.keys s.ttl = .ok next)
    (hserves : s.serving = true ∨ o.answer .start = .ok ()) :
    s.carryOut o = (⟨o, s.callsFor next, s.announcement o next⟩,
      { s with published := next, phase := .running, serving := true }) := by
  rw [carryOut, begin_start hstart, hoffer]
  cases hserving : s.serving with
  | true => simp only [prepare, callsFor, hserving, if_true, complete_publish, List.nil_append]
  | false =>
    have hanswer : o.answer .start = .ok () := by simpa [hserving] using hserves
    simp only [prepare, callsFor, hserving, Bool.false_eq_true, if_false]
    rw [complete]
    simp only [Pending.call, hanswer, resume, complete_publish]
    rfl

theorem carryOut_fresh {keys : KeyPair} {ttl : Duration} {set : BeaconSet}
    (hstart : o.isStop = false) (hoffer : o.offer keys ttl = .ok ⟨some set⟩)
    (hserves : o.answer .start = .ok ()) :
    (fresh keys ttl).carryOut o =
      (⟨o, [.start, .refresh], (o.answer .refresh).mapError .advertising⟩,
        ⟨keys, ttl, ⟨some set⟩, .running, true⟩) := by
  rw [carryOut_published (s := fresh keys ttl) hstart hoffer (.inr hserves)]
  rfl

theorem History.run_singleton (h : History) (o : Operation) :
    h.run [o] = ⟨(h.server.carryOut o).2, (h.server.carryOut o).1 :: h.turns⟩ := rfl

/-- How an operation can end: as a stop, for want of anything to hand out, because the transport
does not serve, or after it has published. -/
inductive Ends (s : Server) (o : Operation) : Turn × Server → Prop
  | stopped (hstop : o.isStop = true) :
    Ends s o (⟨o, [.stop], (o.answer .stop).mapError .stop⟩,
      { s with published := .nothing, phase := .stopped })
  | refused (hstart : o.isStop = false) {fault : Fault}
    (hoffer : o.offer s.keys s.ttl = .error fault) : Ends s o (⟨o, [], .error fault⟩, s)
  | unserved (hstart : o.isStop = false) (hserving : s.serving = false) {cause : String}
    (hanswer : o.answer .start = .error cause) {next : Published}
    (hoffer : o.offer s.keys s.ttl = .ok next) :
    Ends s o (⟨o, [.start], .error (.advertising cause)⟩, { s with phase := .stopped })
  | published (hstart : o.isStop = false) {next : Published}
    (hoffer : o.offer s.keys s.ttl = .ok next)
    (hserves : s.serving = true ∨ o.answer .start = .ok ()) :
    Ends s o (⟨o, s.callsFor next, s.announcement o next⟩,
      { s with published := next, phase := .running, serving := true })

theorem ends_carryOut (s : Server) (o : Operation) : Ends s o (s.carryOut o) := by
  cases hkind : o.isStop with
  | true =>
    rw [carryOut_stop hkind]
    exact .stopped hkind
  | false =>
    cases hoffer : o.offer s.keys s.ttl with
    | error fault =>
      rw [carryOut_refused hkind hoffer]
      exact .refused hkind hoffer
    | ok next =>
      by_cases hserves : s.serving = true ∨ o.answer .start = .ok ()
      · rw [carryOut_published hkind hoffer hserves]
        exact .published hkind hoffer hserves
      · obtain ⟨hserving, hanswer⟩ := not_or.mp hserves
        rw [Bool.not_eq_true] at hserving
        rcases hcause : o.answer .start with cause | _
        · rw [carryOut_unserved hkind hoffer hserving hcause]
          exact .unserved hkind hserving hcause hoffer
        · exact absurd hcause hanswer

theorem nodup_calls (s : Server) (o : Operation) : (s.carryOut o).1.calls.Nodup := by
  have hends := ends_carryOut s o
  generalize s.carryOut o = ended at hends
  cases hends with
  | stopped | unserved => exact List.pairwise_singleton _ _
  | refused => exact .nil
  | published =>
    show (s.callsFor _).Nodup
    unfold callsFor
    split <;> split <;> decide

theorem perform_carryOut (s : Server) (o : Operation) :
    s.perform o.command o.now o.entropy ((s.carryOut o).1.calls.map o.answer)
      = some ((s.carryOut o).1.result, (s.carryOut o).2) := by
  have hfinish : ∀ reached, finish reached ((complete o.answer reached).1.map o.answer)
      = some (complete o.answer reached).2 := by
    intro reached
    induction reached using complete.induct o.answer with
    | case1 result s =>
      rw [complete]
      rfl
    | case2 s pending calls ended hended ih =>
      rw [complete]
      exact ih
  exact hfinish (s.begin o.command o.now o.entropy).1

/-- The turn has replaced what is handed out. -/
def Turn.replaces (t : Turn) : Bool := t.succeeded || t.calls.contains .refresh

/-- A start that publishes either asks the transport to advertise anew or succeeds. -/
theorem replaces_published (next : Published) :
    (Turn.mk o (s.callsFor next) (s.announcement o next)).replaces = true := by
  by_cases hadvertise : (s.published.set.isSome || next.set.isSome) = true
  · simp [Turn.replaces, callsFor, hadvertise]
  · simp only [Turn.replaces, Turn.succeeded, announcement, hadvertise]
    simp [Except.isOk, Except.toBool]

theorem Turn.replaces_of_announced {t : Turn} (h : t.unannounced = false) :
    t.replaces = t.succeeded := by
  unfold Turn.unannounced at h
  unfold Turn.replaces Turn.succeeded
  cases hcalls : t.calls.contains .refresh with
  | false => simp
  | true =>
    have hok : t.result.isOk = true := by
      simpa only [hcalls, Bool.true_and, Bool.not_eq_false'] using h
    simp [hok]

theorem reply_get (p : Published) :
    p.reply "GET" PeerAvailability.beaconPath = match p.blob with
      | none => ⟨204, none, none, []⟩
      | some blob => ⟨200, some "application/octet-stream", some "no-cache", blob⟩ := by
  have hpath : pathOf PeerAvailability.beaconPath = PeerAvailability.beaconPath := by decide
  rw [Published.reply, if_neg (not_not.mpr hpath), if_pos (.inl rfl)]
  cases p.blob <;> rfl

theorem latest_cons_of_counts {keys : KeyPair} {ttl : Duration} {counts : Turn → Bool} {t : Turn}
    {turns : List Turn} (h : counts t = true) :
    latest keys ttl counts (t :: turns) = (t.operation.offer keys ttl).toOption.getD .nothing := by
  simp [latest, h]

theorem latest_cons_of_not_counts {keys : KeyPair} {ttl : Duration} {counts : Turn → Bool}
    {t : Turn} {turns : List Turn} (h : counts t = false) :
    latest keys ttl counts (t :: turns) = latest keys ttl counts turns := by
  simp [latest, h]

theorem latest_congr {keys : KeyPair} {ttl : Duration} {counts counts' : Turn → Bool}
    {turns : List Turn} (h : ∀ t ∈ turns, counts t = counts' t) :
    latest keys ttl counts turns = latest keys ttl counts' turns := by
  rw [latest, latest, List.find?_congr h]

structure Settled (keys : KeyPair) (ttl : Duration) (h : History) : Prop where
  sameKeys : h.server.keys = keys
  sameTtl : h.server.ttl = ttl
  phase : h.server.serving = false → h.server.phase = .stopped
  published : h.server.published = latest keys ttl Turn.replaces h.turns

theorem settled_step {keys : KeyPair} {ttl : Duration} {h : History} (hs : Settled keys ttl h)
    (o : Operation) : Settled keys ttl (h.step o) := by
  have hends := ends_carryOut h.server o
  unfold History.step
  generalize h.server.carryOut o = ended at hends
  cases hends with
  | stopped hstop =>
    have hcounts : (Turn.mk o [.stop] ((o.answer .stop).mapError .stop)).replaces = true := by
      simp [Turn.replaces, Turn.succeeded, hstop]
    refine ⟨hs.sameKeys, hs.sameTtl, fun _ => rfl, ?_⟩
    rw [latest_cons_of_counts hcounts, offer_stop hstop]
    rfl
  | @refused hstart fault hoffer =>
    have hcounts : (Turn.mk o [] (.error fault)).replaces = false := by
      simp [Turn.replaces, Turn.succeeded, hstart, Except.isOk, Except.toBool]
    refine ⟨hs.sameKeys, hs.sameTtl, hs.phase, ?_⟩
    rw [latest_cons_of_not_counts hcounts]
    exact hs.published
  | @unserved hstart hserving cause =>
    have hcounts : (Turn.mk o [.start] (.error (.advertising cause))).replaces = false := by
      simp [Turn.replaces, Turn.succeeded, hstart, Except.isOk, Except.toBool]
    refine ⟨hs.sameKeys, hs.sameTtl, fun _ => rfl, ?_⟩
    rw [latest_cons_of_not_counts hcounts]
    exact hs.published
  | @published hstart next hoffer =>
    refine ⟨hs.sameKeys, hs.sameTtl, fun hserving => (nomatch hserving), ?_⟩
    rw [latest_cons_of_counts (replaces_published next), ← hs.sameKeys, ← hs.sameTtl, hoffer]
    rfl

theorem settled_run {keys : KeyPair} {ttl : Duration} {h : History} (hs : Settled keys ttl h)
    (operations : List Operation) : Settled keys ttl (h.run operations) := by
  induction operations generalizing h with
  | nil => exact hs
  | cons o operations ih => exact ih (settled_step hs o)

theorem carryOut_failed {keys : KeyPair} {ttl : Duration} {h : History} (hs : Settled keys ttl h)
    (hstart : o.isStop = false) (hfailed : (h.server.carryOut o).1.result.isOk = false) :
    ((h.server.carryOut o).1.calls.contains .refresh = false ∧
      (h.server.carryOut o).2 = h.server) ∨
    ∃ next cause, o.offer keys ttl = .ok next ∧ o.answer .refresh = .error cause ∧
      (h.server.carryOut o).1 = ⟨o, h.server.callsFor next, .error (.advertising cause)⟩ ∧
      (h.server.carryOut o).1.calls.contains .refresh = true ∧
      (h.server.carryOut o).2 =
        { h.server with published := next, phase := .running, serving := true } := by
  have hends := ends_carryOut h.server o
  generalize h.server.carryOut o = ended at hends hfailed
  cases hends with
  | stopped hstop => simp [hstop] at hstart
  | refused _ hoffer => exact .inl ⟨rfl, rfl⟩
  | unserved _ hserving =>
    refine .inl ⟨rfl, ?_⟩
    rw [← hs.phase hserving]
  | @published _ next hoffer =>
    rw [hs.sameKeys, hs.sameTtl] at hoffer
    simp only [announcement] at hfailed ⊢
    by_cases hadvertise : (h.server.published.set.isSome || next.set.isSome) = true
    · rw [if_pos hadvertise] at hfailed
      cases hanswer : o.answer .refresh with
      | error cause =>
        refine .inr ⟨next, cause, hoffer, rfl, ?_, ?_, rfl⟩
        · rw [if_pos hadvertise]
          rfl
        · simp [callsFor, hadvertise]
      | ok u =>
        rw [hanswer] at hfailed
        cases hfailed
    · rw [if_neg hadvertise] at hfailed
      cases hfailed

/-- After any operations, whatever the transport refused, a request for beacons is answered with
what the latest stop or start made that succeeded or was refused only when the transport should
advertise anew. If that was never refused, this is the latest stop or successful start. A start
that fails leaves the server as it was, unless the transport was asked to advertise anew: then the
new beacons are handed out all the same, and the server runs. -/
theorem reply_latest (keys : KeyPair) (ttl : Duration) (operations : List Operation) :
    let h := (History.fresh keys ttl).run operations
    let offered := latest keys ttl Turn.replaces h.turns
    h.server.published = offered ∧
    h.server.published.reply "GET" PeerAvailability.beaconPath = (match offered.blob with
      | none => ⟨204, none, none, []⟩
      | some blob => ⟨200, some "application/octet-stream", some "no-cache", blob⟩) ∧
    ((∀ t ∈ h.turns, t.unannounced = false) → offered = latest keys ttl Turn.succeeded h.turns) ∧
    ∀ o, o.isStop = false → (h.server.carryOut o).1.result.isOk = false →
      ((h.server.carryOut o).1.calls.contains .refresh = false ∧ (h.step o).server = h.server) ∨
      ∃ next cause, o.offer keys ttl = .ok next ∧ o.answer .refresh = .error cause ∧
        (h.server.carryOut o).1 = ⟨o, h.server.callsFor next, .error (.advertising cause)⟩ ∧
        (h.server.carryOut o).1.calls.contains .refresh = true ∧
        (h.step o).server =
          { h.server with published := next, phase := .running, serving := true } := by
  intro h offered
  have hfresh : Settled keys ttl (History.fresh keys ttl) := ⟨rfl, rfl, fun _ => rfl, rfl⟩
  have hs : Settled keys ttl h := settled_run hfresh operations
  refine ⟨hs.published, ?_, ?_, fun o hstart hfailed => carryOut_failed hs hstart hfailed⟩
  · rw [hs.published, reply_get]
  · intro htold
    refine latest_congr ?_
    intro t ht
    exact t.replaces_of_announced (htold t ht)

/-- A start for two readers, one of them named twice, on a transport that answers this way. -/
def startFor (answer : TransportCall → Except String Unit) : Operation :=
  ⟨.start askedTwice, ⟨0⟩, counting, answer⟩

def refusingRefresh : TransportCall → Except String Unit
  | .refresh => .error "radio off"
  | _ => .ok ()

theorem offer_startFor {keys : KeyPair} {set : BeaconSet}
    (hmade : (generate askedTwice keys (.ofSecs 60) ⟨0⟩ counting).1 = .ok set)
    (answer : TransportCall → Except String Unit) :
    (startFor answer).offer keys (.ofSecs 60) = .ok ⟨some set⟩ := by
  simp only [startFor, Operation.offer]
  exact offerTo_of_generate (List.cons_ne_nil _ _) hmade

theorem run_startFor {keys : KeyPair} {set : BeaconSet}
    (hmade : (generate askedTwice keys (.ofSecs 60) ⟨0⟩ counting).1 = .ok set)
    (answer : TransportCall → Except String Unit) (hserves : answer .start = .ok ()) :
    (History.fresh keys (.ofSecs 60)).run [startFor answer]
      = ⟨⟨keys, .ofSecs 60, ⟨some set⟩, .running, true⟩,
        [⟨startFor answer, [.start, .refresh], (answer .refresh).mapError .advertising⟩]⟩ := by
  have hcarried : (fresh keys (.ofSecs 60)).carryOut (startFor answer)
      = (⟨startFor answer, [.start, .refresh], (answer .refresh).mapError .advertising⟩,
        ⟨keys, .ofSecs 60, ⟨some set⟩, .running, true⟩) :=
    carryOut_fresh rfl (offer_startFor hmade answer) hserves
  rw [History.run_singleton]
  simp only [History.fresh, hcarried]

/-- A start that fails on a fresh server because the transport does not advertise anew hands out its
beacons, though no start has returned with success. -/
theorem reply_latest_refused : ∃ set,
    let fresh := History.fresh (repeating 1) (.ofSecs 60)
    let told := fresh.run [startFor fun _ => .ok ()]
    let refused := fresh.run [startFor refusingRefresh]
    (∀ t ∈ told.turns, t.unannounced = false) ∧
    told.server.published = latest (repeating 1) (.ofSecs 60) Turn.succeeded told.turns ∧
    (startFor refusingRefresh).isStop = false ∧
    (fresh.server.carryOut (startFor refusingRefresh)).1.result
      = .error (.advertising "radio off") ∧
    latest (repeating 1) (.ofSecs 60) Turn.succeeded refused.turns = .nothing ∧
    refused.server = { fresh.server with
      published := ⟨some set⟩, phase := .running, serving := true } ∧
    refused.server.published.reply "GET" PeerAvailability.beaconPath
      = ⟨200, some "application/octet-stream", some "no-cache", set.blob⟩ := by
  obtain ⟨set, hmade⟩ := generate_askedTwice
  refine ⟨set, ?_⟩
  revert hmade
  generalize repeating 1 = keys
  intro hmade fresh told refused
  have hoffer := offer_startFor hmade
  have hended : ∀ answer, answer .start = .ok () → fresh.run [startFor answer] = _ :=
    fun answer => run_startFor hmade answer
  have htold : ∀ t ∈ told.turns, t.unannounced = false := by
    intro t ht
    rw [show told = _ from hended _ rfl] at ht
    rw [List.mem_singleton.mp ht]
    rfl
  have hfailed : (fresh.server.carryOut (startFor refusingRefresh)).1 = ⟨startFor refusingRefresh,
      [.start, .refresh], .error (.advertising "radio off")⟩ :=
    congrArg Prod.fst (carryOut_fresh rfl (hoffer _) rfl)
  have hresult : (fresh.server.carryOut (startFor refusingRefresh)).1.result.isOk = false := by
    rw [hfailed]
    rfl
  have hasked : (fresh.server.carryOut (startFor refusingRefresh)).1.calls.contains .refresh
      = true := by
    rw [hfailed]
    rfl
  obtain ⟨hpublished, _, hlaw, _⟩ := reply_latest keys (.ofSecs 60) [startFor fun _ => .ok ()]
  obtain ⟨_, hreply, _, _⟩ := reply_latest keys (.ofSecs 60) [startFor refusingRefresh]
  obtain ⟨_, _, _, hkept⟩ := reply_latest keys (.ofSecs 60) []
  refine ⟨htold, hpublished.trans (hlaw htold), rfl, congrArg Turn.result hfailed, ?_, ?_, ?_⟩
  · rw [show refused = _ from hended _ rfl]
    rfl
  · rcases hkept (startFor refusingRefresh) rfl hresult with ⟨hunasked, _⟩ | ⟨next, _, hnext, hrest⟩
    · exact absurd (hasked.symm.trans hunasked) Bool.noConfusion
    · obtain rfl : ⟨some set⟩ = next := Except.ok.inj ((hoffer _).symm.trans hnext)
      exact hrest.2.2.2
  · have hlatest : latest keys (.ofSecs 60) Turn.replaces refused.turns = ⟨some set⟩ := by
      rw [show refused = _ from hended _ rfl, latest_cons_of_counts rfl, hoffer]
      rfl
    refine hreply.trans ?_
    rw [show (latest keys (.ofSecs 60) Turn.replaces
      ((History.fresh keys (.ofSecs 60)).run [startFor refusingRefresh]).turns) = _ from hlatest]
    rfl

end BeaconMesh.Notification.Server
