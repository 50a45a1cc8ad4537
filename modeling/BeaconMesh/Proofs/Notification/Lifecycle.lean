import BeaconMesh.Notification.ClientHistory
import BeaconMesh.Proofs.Queue.Serial

/-!
Event loops follow each other without overlap. What an event loop reports follows from what it has
heeded itself since its start, and the client runs just when the last operation was a start that
succeeded.
-/

set_option autoImplicit false
set_option relaxedAutoImplicit false

namespace BeaconMesh.Notification.Client

def Moment.isTurn : Moment → Bool
  | .took _ _ => true
  | .returned _ _ _ => true
  | _ => false

/-- Whether this may happen while an event loop is alive. -/
def Moment.during (loop : Nat) : Moment → Bool
  | .took _ _ => true
  | .announced _ => true
  | .heeded other _ _ => other == loop
  | _ => false

/-- The operation whose turn it is, or which was the last one. -/
def lastTurn? (moments : List Moment) : Option Moment := moments.find? Moment.isTurn

/-- All signals that event loops have heeded, the earliest first. -/
def signals (moments : List Moment) : List EventLoop.Signal :=
  moments.reverse.filterMap fun
    | .heeded _ signal _ => some signal
    | _ => none

/-- The life of an event loop up to now: its start came to its turn, began to listen when no event
loop was left, waited for the transport and has succeeded, and since then nothing has happened but
what may happen in the life of an event loop. -/
structure Life (loop : Nat) (book : List PublicKey) (since waited moments : List Moment) :
    Prop where
  split : ∃ earlier, moments = since ++ .returned loop (.start book) (.ok (.ok ()))
    :: (waited ++ .subscribed loop :: earlier) ∧
      lastTurn? earlier = some (.took loop (.start book))
  alive : ∀ m ∈ since, m.during loop = true
  listened : ∀ m ∈ waited, ∃ peer, m = .announced peer

/-- What an event loop reports by heeding a signal: what a new one would report that had heeded the
same signals since its start. It has heard of no peer but those that were announced since its start
began to listen. -/
def Grounded (keys : KeyPair) (loop : Nat) (signal : EventLoop.Signal) (report : Option Discovery)
    (earlier : List Moment) : Prop :=
  ∃ book since waited, Life loop book since waited earlier ∧
    report = ((EventLoop.History.fresh keys (book.map PublicKey.hash)).run
      (signals since)).report? signal ∧
    ∀ peer, .heard peer ∈ signals since ++ [signal] → .announced peer ∈ since ++ waited

def Faithful (keys : KeyPair) (moments : List Moment) : Prop :=
  ∀ loop signal report earlier, .heeded loop signal report :: earlier <:+ moments →
    Grounded keys loop signal report earlier

/-- What is known of an event loop that is alive. -/
def Lives (keys : KeyPair) (l : Loop) (moments : List Moment) : Prop :=
  ∃ book since waited, Life l.ticket book since waited moments ∧
    l.history = (EventLoop.History.fresh keys (book.map PublicKey.hash)).run (signals since) ∧
    (∀ peer ∈ l.inbox.events, .announced peer ∈ since ++ waited) ∧
    ∀ peer, .heard peer ∈ signals since → .announced peer ∈ since ++ waited

def Listens (ticket : Nat) (book : List PublicKey) (inbox : Inbox) (moments : List Moment) : Prop :=
  ∃ waited earlier, moments = waited ++ .subscribed ticket :: earlier ∧
    lastTurn? earlier = some (.took ticket (.start book)) ∧
    (∀ m ∈ waited, ∃ peer, m = .announced peer) ∧
    ∀ peer ∈ inbox.events, .announced peer ∈ waited

theorem signals_cons (m : Moment) (moments : List Moment) :
    signals (m :: moments) = signals moments ++ signals [m] := by
  simp [signals]

theorem lastTurn?_cons {m : Moment} (hm : m.isTurn = false) (moments : List Moment) :
    lastTurn? (m :: moments) = lastTurn? moments :=
  List.find?_cons_of_neg (by simp [hm])

theorem mem_push {room : Nat} {inbox : Inbox} {peer event : PeerAvailability}
    (hmem : event ∈ (inbox.push room peer).events) : event ∈ inbox.events ∨ event = peer := by
  simpa using List.mem_of_mem_drop hmem

variable {keys : KeyPair} {moments : List Moment} {l : Loop}

theorem Life.cons {loop : Nat} {book : List PublicKey} {since waited : List Moment}
    (hl : Life loop book since waited moments) {m : Moment} (hm : m.during loop = true) :
    Life loop book (m :: since) waited (m :: moments) where
  split := by
    obtain ⟨earlier, rfl, hturn⟩ := hl.split
    exact ⟨earlier, rfl, hturn⟩
  alive := by simpa [hm] using hl.alive
  listened := hl.listened

theorem Lives.took (hl : Lives keys l moments) (ticket : Nat) (command : Command) :
    Lives keys l (.took ticket command :: moments) := by
  obtain ⟨book, since, waited, hlife, hhistory, hinbox, hheard⟩ := hl
  have hsignals : signals (.took ticket command :: since) = signals since := by
    rw [signals_cons]
    exact List.append_nil _
  refine ⟨book, .took ticket command :: since, waited, hlife.cons rfl, ?_, ?_, ?_⟩
  · rw [hsignals, hhistory]
  · exact fun peer hpeer => List.mem_cons_of_mem _ (hinbox peer hpeer)
  · rw [hsignals]
    exact fun peer hpeer => List.mem_cons_of_mem _ (hheard peer hpeer)

theorem Lives.announce (hl : Lives keys l moments) (room : Nat) (peer : PeerAvailability) :
    Lives keys { l with inbox := l.inbox.push room peer } (.announced peer :: moments) := by
  obtain ⟨book, since, waited, hlife, hhistory, hinbox, hheard⟩ := hl
  have hsignals : signals (.announced peer :: since) = signals since := by
    rw [signals_cons]
    exact List.append_nil _
  refine ⟨book, .announced peer :: since, waited, hlife.cons rfl, ?_, ?_, ?_⟩
  · rw [hsignals, hhistory]
  · intro event hevent
    rcases mem_push hevent with hevent | rfl
    · exact List.mem_cons_of_mem _ (hinbox event hevent)
    · exact List.mem_cons_self
  · rw [hsignals]
    exact fun event hevent => List.mem_cons_of_mem _ (hheard event hevent)

theorem Lives.heed (hl : Lives keys l moments) {signal : EventLoop.Signal} {inbox : Inbox}
    (hinbox : inbox.events ⊆ l.inbox.events)
    (hsignal : ∀ peer, signal = .heard peer → peer ∈ l.inbox.events) :
    Grounded keys l.ticket signal (l.history.report? signal) moments ∧
      Lives keys { l with inbox := inbox, history := l.history.step signal }
        (.heeded l.ticket signal (l.history.report? signal) :: moments) := by
  obtain ⟨book, since, waited, hlife, hhistory, hevents, hheard⟩ := hl
  have hall : ∀ peer, .heard peer ∈ signals since ++ [signal] →
      .announced peer ∈ since ++ waited := by
    intro peer hpeer
    rcases List.mem_append.mp hpeer with hpeer | hpeer
    · exact hheard peer hpeer
    · exact hevents peer (hsignal peer (List.mem_singleton.mp hpeer).symm)
  refine ⟨⟨book, since, waited, hlife, by rw [hhistory], hall⟩, book,
    .heeded l.ticket signal (l.history.report? signal) :: since, waited,
    hlife.cons (by simp [Moment.during]), ?_, ?_, ?_⟩
  · have hsignals : signals (.heeded l.ticket signal (l.history.report? signal) :: since)
        = signals since ++ [signal] := signals_cons _ _
    rw [hsignals, EventLoop.History.run, List.foldl_append, hhistory]
    rfl
  · exact fun peer hpeer => List.mem_cons_of_mem _ (hevents peer (hinbox hpeer))
  · rw [signals_cons]
    exact fun peer hpeer => List.mem_cons_of_mem _ (hall peer hpeer)

theorem Faithful.cons (hf : Faithful keys moments) {m : Moment}
    (hm : ∀ loop signal report, m = .heeded loop signal report →
      Grounded keys loop signal report moments) : Faithful keys (m :: moments) := by
  intro loop signal report earlier hsuffix
  rcases List.suffix_cons_iff.mp hsuffix with heq | hsuffix
  · cases heq
    exact hm loop signal report rfl
  · exact hf loop signal report earlier hsuffix

theorem Listens.announce {ticket : Nat} {book : List PublicKey} {inbox : Inbox}
    (hl : Listens ticket book inbox moments) (room : Nat) (peer : PeerAvailability) :
    Listens ticket book (inbox.push room peer) (.announced peer :: moments) := by
  obtain ⟨waited, earlier, rfl, hturn, hwaited, hinbox⟩ := hl
  refine ⟨.announced peer :: waited, earlier, rfl, hturn, by simpa using hwaited, ?_⟩
  intro event hevent
  rcases mem_push hevent with hevent | rfl
  · exact List.mem_cons_of_mem _ (hinbox event hevent)
  · exact List.mem_cons_self

theorem Listens.succeed {ticket : Nat} {book : List PublicKey} {inbox : Inbox}
    (hl : Listens ticket book inbox moments) :
    Lives keys ⟨ticket, false, inbox, .fresh keys (book.map PublicKey.hash)⟩
      (.returned ticket (.start book) (.ok (.ok ())) :: moments) := by
  obtain ⟨waited, earlier, rfl, hturn, hwaited, hinbox⟩ := hl
  refine ⟨book, [], waited, ⟨⟨earlier, rfl, hturn⟩, ?_, hwaited⟩, rfl, hinbox, ?_⟩
  · simp
  · simp [signals]

namespace History

/-- What the client is at. -/
inductive Phase (h : History) : Prop where
  | idle (stage : h.stage = none) (queue : h.queue.running = none) (running : h.running = none)
      (loops : h.loops = [])
      (last : ∀ ticket book,
        lastTurn? h.moments ≠ some (.returned ticket (.start book) (.ok (.ok ()))))
  | holding (l : Loop) (stage : h.stage = none) (queue : h.queue.running = none)
      (running : h.running = some l.ticket) (loops : h.loops = [l]) (told : l.told = false)
      (lives : Lives h.keys l h.moments)
      (last : ∃ book, lastTurn? h.moments = some (.returned l.ticket (.start book) (.ok (.ok ()))))
  | ending (ticket : Nat) (command : Command) (loop : Nat)
      (stage : h.stage = some (.ending loop)) (queue : h.queue.running = some (ticket, command))
      (running : h.running = none)
      (loops : h.loops = [] ∨ ∃ l, h.loops = [l] ∧ l.ticket = loop ∧ Lives h.keys l h.moments)
      (last : lastTurn? h.moments = some (.took ticket command))
  | listening (ticket : Nat) (book : List PublicKey) (inbox : Inbox)
      (stage : h.stage = some (.calling (.listen (book.map PublicKey.hash) inbox)))
      (queue : h.queue.running = some (ticket, .start book)) (running : h.running = none)
      (loops : h.loops = []) (listens : Listens ticket book inbox h.moments)
  | unlistening (ticket : Nat) (stage : h.stage = some (.calling .unlisten))
      (queue : h.queue.running = some (ticket, .stop)) (running : h.running = none)
      (loops : h.loops = []) (last : lastTurn? h.moments = some (.took ticket .stop))

/-- All that was reported is what it must be, and the client is at something. -/
structure Sound (h : History) : Prop where
  faithful : Faithful h.keys h.moments
  phase : Phase h

variable {h : History}

theorem sound_fresh (keys : KeyPair) (room : Nat) : (fresh keys room).Sound where
  faithful := fun _ _ _ _ hsuffix => nomatch List.suffix_nil.mp hsuffix
  phase := .idle rfl rfl rfl rfl fun _ _ hlast => nomatch hlast

theorem Sound.submit (hs : h.Sound) (command : Command) : (h.step (.submit command)).Sound := by
  have hrunning : (h.queue.submit command).2.running = h.queue.running := by
    unfold OperationQueue.submit
    dsimp only
    split
    · rfl
    · split <;> rfl
  refine ⟨hs.faithful, ?_⟩
  cases hs.phase with
  | idle stage queue running loops last =>
    exact .idle stage (hrunning.trans queue) running loops last
  | holding l stage queue running loops told lives last =>
    exact .holding l stage (hrunning.trans queue) running loops told lives last
  | ending ticket command loop stage queue running loops last =>
    exact .ending ticket command loop stage (hrunning.trans queue) running loops last
  | listening ticket book inbox stage queue running loops listens =>
    exact .listening ticket book inbox stage (hrunning.trans queue) running loops listens
  | unlistening ticket stage queue running loops last =>
    exact .unlistening ticket stage (hrunning.trans queue) running loops last

theorem Sound.call {ticket : Nat} {command : Command} (hf : Faithful h.keys h.moments)
    (hqueue : h.queue.running = some (ticket, command)) (hrunning : h.running = none)
    (hloops : h.loops = []) (hlast : lastTurn? h.moments = some (.took ticket command)) :
    (h.call ticket command).Sound := by
  cases command with
  | start book =>
    exact ⟨hf.cons (by simp),
      .listening ticket book (.fresh false) rfl hqueue hrunning hloops
        ⟨[], h.moments, rfl, hlast, by simp, by simp [Inbox.fresh]⟩⟩
  | stop => exact ⟨hf, .unlistening ticket rfl hqueue hrunning hloops hlast⟩

theorem Sound.take (hs : h.Sound) : (h.step .take).Sound := by
  simp only [step]
  split
  · exact hs
  · rename_i ticket command queue hstart
    obtain ⟨rest, hnone, hwaiting, rfl⟩ := OperationQueue.start?_eq_some hstart
    have hf : Faithful h.keys (.took ticket command :: h.moments) :=
      hs.faithful.cons (by simp)
    cases hs.phase with
    | idle stage _ running loops last =>
      simp only [running]
      exact Sound.call hf rfl rfl loops rfl
    | holding l stage _ running loops told lives last =>
      simp only [running]
      refine ⟨hf, .ending ticket command l.ticket rfl rfl rfl (.inr ?_) rfl⟩
      refine ⟨{ l with told := true }, ?_, rfl, lives.took ticket command⟩
      simp [onLoop, note, loops]
    | ending _ _ _ _ queue => exact nomatch hnone.symm.trans queue
    | listening _ _ _ _ queue => exact nomatch hnone.symm.trans queue
    | unlistening _ _ queue => exact nomatch hnone.symm.trans queue

theorem Sound.proceed (hs : h.Sound) : (h.step .proceed).Sound := by
  simp only [step]
  split
  · rename_i loop ticket command hstage hqueue
    split
    · exact hs
    · rename_i hgone
      cases hs.phase with
      | ending ticket' command' loop' stage queue running loops last =>
        obtain rfl : loop' = loop := by simpa [stage] using hstage
        obtain ⟨rfl, rfl⟩ : ticket' = ticket ∧ command' = command := by simpa [queue] using hqueue
        refine Sound.call hs.faithful queue running ?_ last
        rcases loops with loops | ⟨l, loops, rfl, -⟩
        · exact loops
        · exact absurd (by simp [loop?, loops]) hgone
      | idle stage => exact nomatch stage.symm.trans hstage
      | holding _ stage => exact nomatch stage.symm.trans hstage
      | listening _ _ _ stage => exact nomatch stage.symm.trans hstage
      | unlistening _ stage => exact nomatch stage.symm.trans hstage
  · exact hs

theorem running_settle {q : OperationQueue Command (Except Fault Unit)}
    (r : Except QueueFault (Except Fault Unit)) : (q.settle r).running = none := by
  obtain ⟨answers, hsettle⟩ := OperationQueue.settle_eq q r
  rw [hsettle]

theorem Sound.conclude {ticket : Nat} {command : Command}
    {answer : Except QueueFault (Except Fault Unit)} (hf : Faithful h.keys h.moments)
    (hrunning : h.running = none) (hloops : h.loops = [])
    (hanswer : ∀ book, command = .start book → answer ≠ .ok (.ok ())) :
    (h.conclude ticket command answer).Sound := by
  refine ⟨hf.cons (by simp),
    .idle rfl (running_settle answer) hrunning hloops ?_⟩
  intro other book hlast
  have hturn : Moment.returned ticket command answer
      = .returned other (.start book) (.ok (.ok ())) := Option.some.inj hlast
  cases hturn
  exact hanswer book rfl rfl

theorem Sound.answer (hs : h.Sound) (outcome : Except String Unit) :
    (h.step (.answer outcome)).Sound := by
  simp only [step]
  split
  · rename_i pending ticket command hstage hqueue
    cases hs.phase with
    | listening ticket' book inbox stage queue running loops listens =>
      obtain rfl : Pending.listen (book.map PublicKey.hash) inbox = pending := by
        simpa [stage] using hstage
      obtain ⟨rfl, rfl⟩ : ticket' = ticket ∧ .start book = command := by
        simpa [queue] using hqueue
      cases outcome with
      | error cause =>
        exact Sound.conclude hs.faithful running loops (by simp [resume])
      | ok =>
        refine ⟨hs.faithful.cons (by simp), ?_⟩
        refine .holding ⟨ticket', false, inbox, .fresh h.keys (book.map PublicKey.hash)⟩ rfl
          (running_settle _) rfl ?_ rfl listens.succeed ⟨book, rfl⟩
        simp [History.conclude, hold, note, loops, resume, EventLoop.History.fresh, Client.fresh]
    | unlistening ticket' stage queue running loops last =>
      obtain rfl : Pending.unlisten = pending := by simpa [stage] using hstage
      obtain ⟨rfl, rfl⟩ : ticket' = ticket ∧ .stop = command := by simpa [queue] using hqueue
      cases outcome with
      | error cause => exact Sound.conclude hs.faithful running loops (by simp)
      | ok => exact Sound.conclude hs.faithful running loops (by simp)
    | idle stage => exact nomatch stage.symm.trans hstage
    | holding _ stage => exact nomatch stage.symm.trans hstage
    | ending _ _ _ stage => exact nomatch stage.symm.trans hstage
  · exact hs

theorem Sound.breakDown (hs : h.Sound) : (h.step .breakDown).Sound := by
  simp only [step]
  split
  · rename_i pending ticket command hstage hqueue
    cases hs.phase with
    | listening _ _ _ _ _ running loops =>
      exact Sound.conclude hs.faithful running loops (by simp)
    | unlistening _ _ _ running loops =>
      exact Sound.conclude hs.faithful running loops (by simp)
    | idle stage => exact nomatch stage.symm.trans hstage
    | holding _ stage => exact nomatch stage.symm.trans hstage
    | ending _ _ _ stage => exact nomatch stage.symm.trans hstage
  · exact hs

theorem Sound.announce (hs : h.Sound) (peer : PeerAvailability) :
    (h.step (.announce peer)).Sound := by
  have hf : Faithful h.keys (.announced peer :: h.moments) :=
    hs.faithful.cons (by simp)
  have hlast : lastTurn? (.announced peer :: h.moments) = lastTurn? h.moments :=
    lastTurn?_cons rfl h.moments
  simp only [step, History.announce]
  cases hs.phase with
  | idle stage queue running loops last =>
    simp only [stage, loops, List.map_nil]
    exact ⟨hf, .idle rfl queue running rfl (by rwa [note, hlast])⟩
  | holding l stage queue running loops told lives last =>
    simp only [stage, loops, List.map_singleton]
    exact ⟨hf, .holding { l with inbox := l.inbox.push h.room peer } rfl queue running rfl told
      (lives.announce h.room peer) (by rwa [note, hlast])⟩
  | ending ticket command loop stage queue running loops last =>
    simp only [stage]
    refine ⟨hf, .ending ticket command loop rfl queue running ?_ (by rwa [note, hlast])⟩
    rcases loops with loops | ⟨l, loops, hticket, lives⟩
    · exact .inl (by simp [note, loops])
    · exact .inr ⟨{ l with inbox := l.inbox.push h.room peer }, by simp [note, loops], hticket,
        lives.announce h.room peer⟩
  | listening ticket book inbox stage queue running loops listens =>
    simp only [stage, loops, List.map_nil]
    exact ⟨hf, .listening ticket book (inbox.push h.room peer) rfl queue running rfl
      (listens.announce h.room peer)⟩
  | unlistening ticket stage queue running loops last =>
    simp only [stage, loops, List.map_nil]
    exact ⟨hf, .unlistening ticket rfl queue running rfl (by rwa [note, hlast])⟩

/-- An event loop that is alive is the only one. -/
theorem Phase.of_loop? (hp : Phase h) {loop : Nat} {l : Loop} (hl : h.loop? loop = some l) :
    h.loops = [l] ∧ Lives h.keys l h.moments := by
  have honly : ∀ l', h.loops = [l'] → l' = l := by
    intro l' hloops
    simpa [hloops, eq_comm] using List.mem_of_find?_eq_some hl
  have hsome : h.loops ≠ [] := by
    intro hloops
    simp [loop?, hloops] at hl
  cases hp with
  | holding l' _ _ _ loops _ lives =>
    obtain rfl := honly l' loops
    exact ⟨loops, lives⟩
  | ending _ _ _ _ _ _ loops =>
    rcases loops with loops | ⟨l', loops, -, lives⟩
    · exact absurd loops hsome
    · obtain rfl := honly l' loops
      exact ⟨loops, lives⟩
  | idle _ _ _ loops => exact absurd loops hsome
  | listening _ _ _ _ _ _ loops => exact absurd loops hsome
  | unlistening _ _ _ _ loops => exact absurd loops hsome

theorem Phase.update (hp : Phase h) {l l' : Loop} (hloops : h.loops = [l])
    (hticket : l'.ticket = l.ticket) (htold : l'.told = l.told) {m : Moment}
    (hm : m.isTurn = false) (hlives : Lives h.keys l' (m :: h.moments)) :
    Phase { h with loops := [l'], moments := m :: h.moments } := by
  have hlast := lastTurn?_cons hm h.moments
  cases hp with
  | holding l₀ stage queue running loops told _ last =>
    obtain rfl : l₀ = l := by simpa [loops] using hloops
    refine .holding l' stage queue (running.trans (congrArg some hticket.symm)) rfl
      (htold.trans told) hlives ?_
    rwa [hlast, hticket]
  | ending ticket command loop stage queue running loops last =>
    refine .ending ticket command loop stage queue running (.inr ⟨l', rfl, ?_, hlives⟩)
      (hlast.trans last)
    rcases loops with loops | ⟨l₀, loops, hl₀, -⟩
    · exact nomatch loops.symm.trans hloops
    · obtain rfl : l₀ = l := by simpa [loops] using hloops
      exact hticket.trans hl₀
  | idle _ _ _ loops => exact nomatch loops.symm.trans hloops
  | listening _ _ _ _ _ _ loops => exact nomatch loops.symm.trans hloops
  | unlistening _ _ _ _ loops => exact nomatch loops.symm.trans hloops

theorem Sound.heed (hs : h.Sound) {loop : Nat} {l : Loop} (hl : h.loop? loop = some l)
    (signal : EventLoop.Signal) (inbox : Inbox) (hinbox : inbox.events ⊆ l.inbox.events)
    (hsignal : ∀ peer, signal = .heard peer → peer ∈ l.inbox.events) :
    Sound { h with
      loops := [{ l with inbox := inbox, history := l.history.step signal }]
      moments := .heeded l.ticket signal (l.history.report? signal) :: h.moments } := by
  obtain ⟨hloops, hlives⟩ := hs.phase.of_loop? hl
  obtain ⟨hgrounded, hnext⟩ := hlives.heed hinbox hsignal
  constructor
  case faithful =>
    refine hs.faithful.cons ?_
    rintro _ _ _ ⟨⟩
    exact hgrounded
  case phase =>
    let l' : Loop := { l with inbox := inbox, history := l.history.step signal }
    have hticket : l'.ticket = l.ticket := rfl
    have hturn : (Moment.heeded l.ticket signal (l.history.report? signal)).isTurn = false := rfl
    exact hs.phase.update hloops hticket rfl hturn hnext

theorem Sound.hear (hs : h.Sound) (loop : Nat) : (h.step (.hear loop)).Sound := by
  simp only [step]
  split
  · exact hs
  · rename_i l hl
    split
    · exact hs
    · rename_i peer rest hevents
      have hnext := hs.heed hl (.heard peer) { l.inbox with events := rest } (by simp [hevents])
        (by simp [hevents])
      have hloops := (hs.phase.of_loop? hl).1
      have hticket : l.ticket = loop := by simpa using List.find?_some hl
      simpa [History.heed, onLoop, note, hloops, hticket] using hnext

theorem Sound.heed_same (hs : h.Sound) {loop : Nat} {l : Loop} (hl : h.loop? loop = some l)
    {signal : EventLoop.Signal} (hsignal : ∀ peer, signal ≠ .heard peer) :
    (h.heed l signal).Sound := by
  have hnext := hs.heed hl signal l.inbox (List.Subset.refl _)
    fun peer heq => absurd heq (hsignal peer)
  have hloops := (hs.phase.of_loop? hl).1
  simpa [History.heed, onLoop, note, hloops] using hnext

theorem Sound.quit (hs : h.Sound) (loop : Nat) : (h.step (.quit loop)).Sound := by
  simp only [step]
  split
  · exact hs
  · rename_i l hl
    split
    · rename_i htold
      have hloops := (hs.phase.of_loop? hl).1
      have hticket : l.ticket = loop := by simpa using List.find?_some hl
      refine ⟨hs.faithful.cons (by simp), ?_⟩
      cases hs.phase with
      | holding l' _ _ _ loops told =>
        obtain rfl : l' = l := by simpa [loops] using hloops
        exact Bool.noConfusion (told.symm.trans htold)
      | ending ticket command loop' stage queue running _ last =>
        have hnone : (h.loops.filter fun l => l.ticket != loop) = [] := by simp [hloops, hticket]
        exact .ending ticket command loop' stage queue running (.inl hnone)
          ((lastTurn?_cons rfl _).trans last)
      | idle _ _ _ loops => exact nomatch loops.symm.trans hloops
      | listening _ _ _ _ _ _ loops => exact nomatch loops.symm.trans hloops
      | unlistening _ _ _ _ loops => exact nomatch loops.symm.trans hloops
    · exact hs

theorem Sound.step (hs : h.Sound) (e : Event) : (h.step e).Sound := by
  cases e with
  | submit command => exact hs.submit command
  | take => exact hs.take
  | proceed => exact hs.proceed
  | answer outcome => exact hs.answer outcome
  | breakDown => exact hs.breakDown
  | announce peer => exact hs.announce peer
  | hear loop => exact hs.hear loop
  | lag loop missed =>
    simp only [History.step]
    split
    · exact hs
    · rename_i hl
      exact hs.heed_same hl (by simp)
  | fetched loop number how =>
    simp only [History.step]
    split
    · exact hs
    · rename_i hl
      exact hs.heed_same hl (by simp)
  | quit loop => exact hs.quit loop

theorem Sound.run (hs : h.Sound) (events : List Event) : (h.run events).Sound := by
  induction events generalizing h with
  | nil => exact hs
  | cons e events ih => exact ih (hs.step e)

end History

theorem append_eq_of_not_mem {α : Type} {a b between rest : List α} {x : α} (hx : x ∉ a)
    (heq : between ++ x :: rest = a ++ b) : ∃ c, between = a ++ c ∧ b = c ++ x :: rest := by
  rcases List.append_eq_append_iff.mp heq with ⟨c, rfl, hc⟩ | ⟨c, rfl, hc⟩
  · cases c with
    | nil => exact ⟨[], by simp, by simpa using hc.symm⟩
    | cons y c =>
      obtain ⟨rfl, -⟩ := List.cons.inj hc
      simp at hx
  · exact ⟨c, rfl, hc⟩

/-- Between the return of a stop and what an event loop reports later another start has come to its
turn and has succeeded. -/
theorem Life.started {loop : Nat} {book : List PublicKey} {since waited between rest : List Moment}
    {ticket : Nat} {answer : Except QueueFault (Except Fault Unit)}
    (hl : Life loop book since waited (between ++ .returned ticket .stop answer :: rest)) :
    .took loop (.start book) ∈ between ∧
      .returned loop (.start book) (.ok (.ok ())) ∈ between := by
  obtain ⟨earlier, hsplit, hturn⟩ := hl.split
  have hsince : .returned ticket .stop answer ∉ since :=
    fun hmem => Bool.noConfusion (hl.alive _ hmem)
  have hwaited : .returned ticket .stop answer ∉ waited := by
    intro hmem
    obtain ⟨_, hpeer⟩ := hl.listened _ hmem
    exact nomatch hpeer
  have hregroup : between ++ .returned ticket .stop answer :: rest
      = (since ++ .returned loop (.start book) (.ok (.ok ())) :: (waited ++ [.subscribed loop]))
        ++ earlier := by simpa using hsplit
  obtain ⟨c, rfl, rfl⟩ := append_eq_of_not_mem (by simp [hsince, hwaited]) hregroup
  have htook : .took loop (.start book) ∈ c := by
    rw [lastTurn?, List.find?_append] at hturn
    cases hfind : c.find? Moment.isTurn with
    | none =>
      rw [hfind, Option.none_or] at hturn
      exact nomatch hturn
    | some m =>
      rw [hfind, Option.some_or] at hturn
      exact Option.some.inj hturn ▸ List.mem_of_find?_eq_some hfind
  exact ⟨by simp [htook], by simp⟩

end BeaconMesh.Notification.Client
