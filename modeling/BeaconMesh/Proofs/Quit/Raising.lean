import BeaconMesh.Quit.History
import Mathlib.Data.List.Range

/-!
A signal is raised once, whoever holds it and whatever its callbacks ask of it while they run. The
call that raises it runs every callback that was accepted, each once; from then on nothing can be
registered, and those who wait leave only when all callbacks have ended.
-/

set_option autoImplicit false
set_option relaxedAutoImplicit false

namespace BeaconMesh.Quit

open QuitSignal (Line)

/-- A call of raise has been answered by yes. -/
def Returned (moments : List Moment) : Prop := ∃ caller, .answered caller .raise true ∈ moments

/-- What a callback has asked of the signal and how it was answered, the earliest first. -/
def asked (callback : Nat) (moments : List Moment) : List (Request Deed × Bool) :=
  moments.reverse.filterMap fun
    | .answered (some n) request answer => if n = callback then some (request, answer) else none
    | _ => none

def Request.asks {deed : Type} : Request deed → Bool
  | .ask => true
  | _ => false

/-- What a callback asks of a signal that has been raised, and the only answers there are then. -/
def Deed.inquiries : Deed → List (Request Deed × Bool)
  | .rest => []
  | .request r next => (r, r.asks) :: (next r.asks).inquiries

/-- What must and what must not have happened to a signal for a moment to come now. A callback runs
after the signal was raised and before the call that raised it returns, and ends when it has asked
all it asks; a request is answered by whether the signal has been raised; the call returns, and
those who wait leave, when every callback that was accepted has ended. -/
def Moment.InPlace (earlier : List Moment) : Moment → Prop
  | .raised => .raised ∉ earlier
  | .accepted n _ => .raised ∉ earlier ∧ ∀ d, .accepted n d ∉ earlier
  | .began n =>
    .raised ∈ earlier ∧ ¬ Returned earlier ∧ (∃ d, .accepted n d ∈ earlier) ∧ .began n ∉ earlier
  | .ended n =>
    ¬ Returned earlier ∧ .began n ∈ earlier ∧ .ended n ∉ earlier ∧
      ∀ d, .accepted n d ∈ earlier → asked n earlier = d.inquiries
  | .registered _ _ _ => .raised ∉ earlier
  | .answered caller request answer =>
    (∀ n, caller = some n → .raised ∈ earlier ∧ .began n ∈ earlier ∧ .ended n ∉ earlier) ∧
      match request with
      | .raise => .raised ∈ earlier ∧ (answer = true →
          ¬ Returned earlier ∧ ∀ n d, .accepted n d ∈ earlier → .ended n ∈ earlier)
      | .ask => answer = true ↔ .raised ∈ earlier
      | .onRaise _ _ => answer = true ↔ .raised ∉ earlier
      | .timeout _ => answer = true ↔ .raised ∉ earlier
  | .released => .raised ∈ earlier ∧ ∀ n d, .accepted n d ∈ earlier → .ended n ∈ earlier
  | .polled _ _ => True
  | .givenUp _ => True

def Moment.counts : Moment → Bool
  | .raised => true
  | .accepted _ _ => true
  | .began _ => true
  | .ended _ => true
  | .answered (some _) _ _ => true
  | .answered none .raise true => true
  | _ => false

/-- What is on record of a signal: whether it was raised, which callbacks were accepted, how many
have begun and how many have ended, what the callback that runs has asked, and whether the call that
raised the signal has returned. -/
structure Recorded (moments : List Moment) (flag : Bool) (deeds : List Deed) (began ended : Nat)
    (path : List (Request Deed × Bool)) (returned : Bool) : Prop where
  raised : .raised ∈ moments ↔ flag = true
  accepted : ∀ n d, .accepted n d ∈ moments ↔ deeds[n]? = some d
  began_iff : ∀ n, .began n ∈ moments ↔ n < began
  ended_iff : ∀ n, .ended n ∈ moments ↔ n < ended
  asked : Quit.asked ended moments = path
  unasked : ∀ n, ended < n → Quit.asked n moments = []
  returned : Returned moments ↔ returned = true
  inPlace : ∀ m earlier, m :: earlier <:+ moments → m.InPlace earlier

theorem asked_cons (callback : Nat) (m : Moment) (moments : List Moment) :
    asked callback (m :: moments) = asked callback moments ++ asked callback [m] := by
  simp [asked]

theorem returned_cons {m : Moment} {moments : List Moment}
    (hm : ∀ caller, m ≠ .answered caller .raise true) :
    Returned (m :: moments) ↔ Returned moments := by
  unfold Returned
  constructor
  · rintro ⟨caller, hmem⟩
    rcases List.mem_cons.mp hmem with heq | hmem
    · exact absurd heq.symm (hm caller)
    · exact ⟨caller, hmem⟩
  · rintro ⟨caller, hmem⟩
    exact ⟨caller, List.mem_cons_of_mem _ hmem⟩

namespace Recorded

variable {moments : List Moment} {flag returned : Bool} {deeds : List Deed} {began ended : Nat}
variable {path : List (Request Deed × Bool)}

theorem nil : Recorded [] false [] 0 0 [] false where
  raised := by simp
  accepted := by simp
  began_iff := by simp
  ended_iff := by simp
  asked := rfl
  unasked := fun _ _ => rfl
  returned := by simp [Returned]
  inPlace := fun _ _ hsuffix => nomatch List.suffix_nil.mp hsuffix

private theorem inPlace_cons (hr : Recorded moments flag deeds began ended path returned)
    {m : Moment} (hm : m.InPlace moments) (m' : Moment) (earlier : List Moment)
    (hsuffix : m' :: earlier <:+ m :: moments) : m'.InPlace earlier := by
  rcases List.suffix_cons_iff.mp hsuffix with heq | hsuffix
  · cases heq
    exact hm
  · exact hr.inPlace m' earlier hsuffix

private theorem asked_cons_of_silent (hr : Recorded moments flag deeds began ended path returned)
    {m : Moment} (hm : ∀ callback, Quit.asked callback [m] = []) :
    Quit.asked ended (m :: moments) = path ∧
      ∀ n, ended < n → Quit.asked n (m :: moments) = [] := by
  constructor
  · rw [asked_cons, hm, List.append_nil, hr.asked]
  · intro n hn
    rw [asked_cons, hm, List.append_nil, hr.unasked n hn]

theorem quiet (hr : Recorded moments flag deeds began ended path returned) {m : Moment}
    (hm : m.InPlace moments) (hcounts : m.counts = false) :
    Recorded (m :: moments) flag deeds began ended path returned := by
  have hother : ∀ m' : Moment, m'.counts = true → m' ≠ m := by
    rintro m' hm' rfl
    exact Bool.noConfusion (hcounts.symm.trans hm')
  have hsilent : ∀ callback, Quit.asked callback [m] = [] := by
    intro callback
    match m, hcounts with
    | .answered (some _) _ _, hcounts => cases hcounts
    | .answered none _ _, _ | .registered _ _ _, _ | .polled _ _, _ | .givenUp _, _
    | .released, _ => rfl
  have hreturned : ∀ caller, m ≠ .answered caller .raise true := by
    rintro (_ | _) rfl <;> cases hcounts
  exact
    { raised := by simp [hother .raised rfl, hr.raised]
      accepted := fun n d => by simp [hother (.accepted n d) rfl, hr.accepted n d]
      began_iff := fun n => by simp [hother (.began n) rfl, hr.began_iff n]
      ended_iff := fun n => by simp [hother (.ended n) rfl, hr.ended_iff n]
      asked := (hr.asked_cons_of_silent hsilent).1
      unasked := (hr.asked_cons_of_silent hsilent).2
      returned := (returned_cons hreturned).trans hr.returned
      inPlace := inPlace_cons hr hm }

theorem raise (hr : Recorded moments false deeds began ended path returned) :
    Recorded (.raised :: moments) true deeds began ended path returned where
  raised := by simp
  accepted := by simp [hr.accepted]
  began_iff := by simp [hr.began_iff]
  ended_iff := by simp [hr.ended_iff]
  asked := (hr.asked_cons_of_silent fun _ => rfl).1
  unasked := (hr.asked_cons_of_silent fun _ => rfl).2
  returned := (returned_cons fun _ => by simp).trans hr.returned
  inPlace := inPlace_cons hr fun hmem => Bool.noConfusion (hr.raised.mp hmem)

theorem accept (hr : Recorded moments false deeds began ended path returned) (deed : Deed) :
    Recorded (.accepted deeds.length deed :: moments) false (deeds ++ [deed]) began ended path
      returned where
  raised := by simp [hr.raised]
  accepted := fun n d => by
    rw [List.mem_cons, hr.accepted, Moment.accepted.injEq, List.getElem?_append]
    split
    · rename_i hlt
      simp [Nat.ne_of_lt hlt]
    · rename_i hge
      obtain ⟨k, rfl⟩ : ∃ k, n = deeds.length + k := ⟨n - deeds.length, by omega⟩
      cases k <;> simp [eq_comm]
  began_iff := by simp [hr.began_iff]
  ended_iff := by simp [hr.ended_iff]
  asked := (hr.asked_cons_of_silent fun _ => rfl).1
  unasked := (hr.asked_cons_of_silent fun _ => rfl).2
  returned := (returned_cons fun _ => by simp).trans hr.returned
  inPlace := inPlace_cons hr
    ⟨fun hmem => Bool.noConfusion (hr.raised.mp hmem),
      fun d hmem => by simpa using (hr.accepted _ d).mp hmem⟩

theorem start (hr : Recorded moments true deeds began ended path false)
    (hlt : began < deeds.length) :
    Recorded (.began began :: moments) true deeds (began + 1) ended path false where
  raised := by simp [hr.raised]
  accepted := by simp [hr.accepted]
  began_iff := fun n => by
    rw [List.mem_cons, hr.began_iff, Moment.began.injEq]
    omega
  ended_iff := by simp [hr.ended_iff]
  asked := (hr.asked_cons_of_silent fun _ => rfl).1
  unasked := (hr.asked_cons_of_silent fun _ => rfl).2
  returned := (returned_cons fun _ => by simp).trans hr.returned
  inPlace := inPlace_cons hr
    ⟨hr.raised.mpr rfl, fun h => Bool.noConfusion (hr.returned.mp h),
      ⟨_, (hr.accepted _ _).mpr (List.getElem?_eq_getElem hlt)⟩,
      fun hmem => Nat.lt_irrefl _ ((hr.began_iff _).mp hmem)⟩

theorem finish (hr : Recorded moments true deeds began ended path false) (hlt : ended < began)
    {deed : Deed} (hdeed : deeds[ended]? = some deed) (hpath : path = deed.inquiries) :
    Recorded (.ended ended :: moments) true deeds began (ended + 1) [] false where
  raised := by simp [hr.raised]
  accepted := by simp [hr.accepted]
  began_iff := by simp [hr.began_iff]
  ended_iff := fun n => by
    rw [List.mem_cons, hr.ended_iff, Moment.ended.injEq]
    omega
  asked := (hr.asked_cons_of_silent fun _ => rfl).2 _ (Nat.lt_succ_self ended)
  unasked := fun n hn => (hr.asked_cons_of_silent fun _ => rfl).2 n (Nat.lt_of_succ_lt hn)
  returned := (returned_cons fun _ => by simp).trans hr.returned
  inPlace := by
    refine inPlace_cons hr ⟨fun h => Bool.noConfusion (hr.returned.mp h), (hr.began_iff _).mpr hlt,
      fun hmem => Nat.lt_irrefl _ ((hr.ended_iff _).mp hmem), ?_⟩
    intro d hd
    obtain rfl : deed = d := by simpa [hdeed] using (hr.accepted _ d).mp hd
    exact hr.asked.trans hpath

theorem conclude (hr : Recorded moments true deeds began deeds.length path false) :
    Recorded (.answered none .raise true :: moments) true deeds began deeds.length path true where
  raised := by simp [hr.raised]
  accepted := by simp [hr.accepted]
  began_iff := by simp [hr.began_iff]
  ended_iff := by simp [hr.ended_iff]
  asked := (hr.asked_cons_of_silent fun _ => rfl).1
  unasked := (hr.asked_cons_of_silent fun _ => rfl).2
  returned := by simp [Returned]
  inPlace := inPlace_cons hr
    ⟨fun _ hcaller => (nomatch hcaller), hr.raised.mpr rfl, fun _ =>
      ⟨fun h => Bool.noConfusion (hr.returned.mp h), fun n d hmem =>
        (hr.ended_iff n).mpr (List.getElem?_eq_some_iff.mp ((hr.accepted n d).mp hmem)).1⟩⟩

theorem release (hr : Recorded moments true deeds began deeds.length path returned) :
    Recorded (.released :: moments) true deeds began deeds.length path returned :=
  hr.quiet ⟨hr.raised.mpr rfl, fun n d hmem =>
    (hr.ended_iff n).mpr (List.getElem?_eq_some_iff.mp ((hr.accepted n d).mp hmem)).1⟩ rfl

theorem poll (hr : Recorded moments flag deeds began ended path returned) (timer : Nat)
    (said : QuitSignal.Polled) :
    Recorded (.polled timer said :: moments) flag deeds began ended path returned :=
  hr.quiet trivial rfl

theorem giveUp (hr : Recorded moments flag deeds began ended path returned) (timer : Nat) :
    Recorded (.givenUp timer :: moments) flag deeds began ended path returned :=
  hr.quiet trivial rfl

theorem register (hr : Recorded moments false deeds began ended path returned) (timer : Nat)
    (after : Duration) (time : Nat) :
    Recorded (.registered timer after time :: moments) false deeds began ended path returned :=
  hr.quiet (fun hmem => Bool.noConfusion (hr.raised.mp hmem)) rfl

end Recorded

def Request.registers {deed : Type} : Request deed → Bool
  | .onRaise _ _ => true
  | .timeout _ => true
  | _ => false

section Answers

variable {moments : List Moment} {deeds : List Deed} {began ended : Nat}
variable {path : List (Request Deed × Bool)} {returned : Bool}

theorem Recorded.grant (hr : Recorded moments false deeds began ended path returned)
    (r : Request Deed) (hother : (match r with | .raise => false | _ => true) = true) :
    Recorded (.answered none r r.registers :: moments) false deeds began ended path returned := by
  refine hr.quiet ?_ ?_
  · cases r <;> simp_all [Moment.InPlace, Request.registers, hr.raised]
  · cases r <;> rfl

theorem History.serve_of_raised {h : History} (hraised : h.signal.raised = true)
    (caller : Option Nat) (r : Request Deed) :
    h.serve caller r = ((r.asks, []), h.note (.answered caller r r.asks)) := by
  cases r with
  | raise => simp only [serve, hraised, if_true, Request.asks]
  | ask => simp only [serve, hraised, Request.asks]
  | onRaise holds deed =>
    simp only [serve, QuitSignal.onRaise?, hraised, if_true, Request.asks]
  | timeout after => simp only [serve, QuitSignal.register?, hraised, if_true, Request.asks]

section Unraised

variable {h : History} (hflag : h.signal.raised = false) (caller : Option Nat)
include hflag

theorem History.serve_raise :
    h.serve caller .raise =
      ((true,
          .tell h.signal.timers :: h.signal.callbacks.map .begin ++ [.announce, .finish caller]),
        { h with
          signal := { h.signal with raised := true, timers := [], callbacks := [] }
          moments := .raised :: h.moments }) := by
  simp [serve, hflag, QuitSignal.raise, note]

theorem History.serve_ask :
    h.serve caller .ask = ((false, []), h.note (.answered caller .ask false)) := by
  simp only [serve, hflag]

theorem History.serve_onRaise (holds : Bool) (deed : Deed) :
    h.serve caller (.onRaise holds deed) =
      ((true, []), { h with
        signal := { h.signal with callbacks := h.signal.callbacks ++ [⟨h.callbacks, holds, deed⟩] }
        callbacks := h.callbacks + 1
        moments := .answered caller (.onRaise holds deed) true
          :: .accepted h.callbacks deed :: h.moments }) := by
  simp [serve, hflag, QuitSignal.onRaise?, note]

theorem History.serve_timeout (after : Duration) :
    h.serve caller (.timeout after) =
      ((true, []), { h with
        signal := { h.signal with
          nextTimer := h.signal.nextTimer + 1
          timers := h.signal.timers ++ [h.signal.nextTimer] }
        timers := h.timers ++ [⟨h.signal.nextTimer, h.now + ticks after, .held⟩]
        moments := .answered caller (.timeout after) true
          :: .registered h.signal.nextTimer after h.now :: h.moments }) := by
  simp [serve, hflag, QuitSignal.register?, note]

end Unraised

theorem Recorded.inPlace_answered (hr : Recorded moments true deeds began ended path returned)
    {caller : Option Nat} (hcaller : ∀ n, caller = some n → n < began ∧ ended ≤ n)
    (r : Request Deed) : (Moment.answered caller r r.asks).InPlace moments := by
  have hcalls : ∀ n, caller = some n →
      .raised ∈ moments ∧ .began n ∈ moments ∧ .ended n ∉ moments := by
    intro n hn
    obtain ⟨hlt, hle⟩ := hcaller n hn
    refine ⟨hr.raised.mpr rfl, (hr.began_iff n).mpr hlt, ?_⟩
    rw [hr.ended_iff]
    omega
  cases r <;> simp [Moment.InPlace, Request.asks, hr.raised] <;> simpa [hr.raised] using hcalls

theorem Recorded.serve (hr : Recorded moments true deeds began ended path returned)
    (r : Request Deed) :
    Recorded (.answered none r r.asks :: moments) true deeds began ended path returned :=
  hr.quiet (hr.inPlace_answered (by simp) r) (by cases r <;> rfl)

theorem Recorded.inquire (hr : Recorded moments true deeds (ended + 1) ended path returned)
    (r : Request Deed) :
    Recorded (.answered (some ended) r r.asks :: moments) true deeds (ended + 1) ended
      (path ++ [(r, r.asks)]) returned where
  raised := by simp [hr.raised]
  accepted := by simp [hr.accepted]
  began_iff := by simp [hr.began_iff]
  ended_iff := by simp [hr.ended_iff]
  asked := by
    rw [asked_cons, hr.asked]
    simp [Quit.asked]
  unasked := by
    intro n hn
    rw [asked_cons, hr.unasked n hn]
    simp [Quit.asked, Nat.ne_of_lt hn]
  returned := by
    refine (returned_cons fun caller heq => ?_).trans hr.returned
    cases r <;> cases heq
  inPlace := by
    refine hr.inPlace_cons (hr.inPlace_answered ?_ r)
    rintro n ⟨⟩
    omega

end Answers

def closing : List Task := [.announce, .finish none]

/-- What a call that has raised the signal has still to do when so many of the accepted callbacks
have begun and so many have ended, what the one that runs has asked, and whether the call has
returned. -/
inductive Ahead (deeds : List Deed) :
    Nat → Nat → List (Request Deed × Bool) → Bool → List Task → Prop where
  | tell {numbers : List Nat} {rest : List Task} (once : rest.any Task.tells = false)
      (later : Ahead deeds 0 0 [] false rest) : Ahead deeds 0 0 [] false (.tell numbers :: rest)
  | begin {k : Nat} {callback : Callback} {rest : List Task} (number : callback.number = k)
      (deed : deeds[k]? = some callback.deed) (later : Ahead deeds (k + 1) (k + 1) [] false rest) :
      Ahead deeds k k [] false (.begin callback :: rest)
  | go {k : Nat} {path : List (Request Deed × Bool)} {left whole : Deed} {rest : List Task}
      (deed : deeds[k]? = some whole) (asks : path ++ left.inquiries = whole.inquiries)
      (later : Ahead deeds (k + 1) (k + 1) [] false rest) :
      Ahead deeds (k + 1) k path false (.go k left :: rest)
  | announce : Ahead deeds deeds.length deeds.length [] false closing
  | finish : Ahead deeds deeds.length deeds.length [] false [.finish none]
  | returned : Ahead deeds deeds.length deeds.length [] true []

theorem ahead_begin {deeds : List Deed} {k : Nat} {callbacks : List Callback}
    (hle : k ≤ deeds.length) (hdeeds : callbacks.map Callback.deed = deeds.drop k)
    (hnumbered : callbacks.map Callback.number = List.range' k callbacks.length) :
    Ahead deeds k k [] false (callbacks.map .begin ++ closing) := by
  induction callbacks generalizing k with
  | nil =>
    have hnone : deeds.length - k = 0 := by simpa using (congrArg List.length hdeeds).symm
    obtain rfl : k = deeds.length := by omega
    exact .announce
  | cons c callbacks ih =>
    have hlt : k < deeds.length := by
      have hlength : callbacks.length + 1 = deeds.length - k := by
        simpa using congrArg List.length hdeeds
      omega
    rw [List.map_cons, List.drop_eq_getElem_cons hlt, List.cons.injEq] at hdeeds
    rw [List.map_cons, List.length_cons, List.range'_succ, List.cons.injEq] at hnumbered
    exact .begin hnumbered.1 (by rw [List.getElem?_eq_getElem hlt, hdeeds.1])
      (ih hlt hdeeds.2 hnumbered.2)

theorem Deed.steps_pos (d : Deed) : 0 < d.steps := by
  cases d <;> simp only [steps] <;> omega

theorem Task.steps_pos (t : Task) : 0 < t.steps := by
  have hdeed : ∀ d : Deed, 0 < d.steps := Deed.steps_pos
  cases t <;> simp only [steps, hdeed] <;> omega

namespace History

/-- Nobody has raised the signal yet; these callbacks were accepted. -/
structure Unraised (h : History) (deeds : List Deed) : Prop where
  flag : h.signal.raised = false
  calls : h.calls = []
  announced : h.announced = false
  counted : h.callbacks = deeds.length
  kept : 0 < h.handles → h.signal.callbacks.map Callback.deed = deeds
  numbered : 0 < h.handles →
    h.signal.callbacks.map Callback.number = List.range' 0 h.signal.callbacks.length
  recorded : Recorded h.moments false deeds 0 0 [] false

/-- One call has raised the signal; it has this to do, after so many callbacks have begun and so
many have ended. -/
structure Raised (h : History) (deeds : List Deed) (began ended : Nat)
    (path : List (Request Deed × Bool)) (returned : Bool) (tasks : List Task) : Prop where
  flag : h.signal.raised = true
  timers : h.signal.timers = []
  callbacks : h.signal.callbacks = []
  calls : h.calls = [tasks]
  ahead : Ahead deeds began ended path returned tasks
  announced : h.announced = true → ended = deeds.length
  recorded : Recorded h.moments true deeds began ended path returned

variable {h h' : History} {deeds : List Deed} {began ended : Nat}
variable {path : List (Request Deed × Bool)} {returned : Bool} {tasks : List Task}

theorem Unraised.transfer (hu : h.Unraised deeds) (hflag : h'.signal.raised = h.signal.raised)
    (hcalls : h'.calls = h.calls) (hannounced : h'.announced = h.announced)
    (haccepted : h'.callbacks = h.callbacks)
    (hcallbacks : 0 < h'.handles → 0 < h.handles ∧ h'.signal.callbacks = h.signal.callbacks)
    (hrecorded : Recorded h'.moments false deeds 0 0 [] false) : h'.Unraised deeds where
  flag := hflag.trans hu.flag
  calls := hcalls.trans hu.calls
  announced := hannounced.trans hu.announced
  counted := haccepted.trans hu.counted
  kept := by
    intro hhandles
    obtain ⟨hbefore, hsame⟩ := hcallbacks hhandles
    rw [hsame]
    exact hu.kept hbefore
  numbered := by
    intro hhandles
    obtain ⟨hbefore, hsame⟩ := hcallbacks hhandles
    rw [hsame]
    exact hu.numbered hbefore
  recorded := hrecorded

theorem Raised.transfer (hr : h.Raised deeds began ended path returned tasks)
    (hflag : h'.signal.raised = h.signal.raised) (htimers : h'.signal.timers = [])
    (hcallbacks : h'.signal.callbacks = []) (hcalls : h'.calls = h.calls)
    (hannounced : h'.announced = h.announced)
    (hrecorded : Recorded h'.moments true deeds began ended path returned) :
    h'.Raised deeds began ended path returned tasks where
  flag := hflag.trans hr.flag
  timers := htimers
  callbacks := hcallbacks
  calls := hcalls.trans hr.calls
  ahead := hr.ahead
  announced := by
    rw [hannounced]
    exact hr.announced
  recorded := hrecorded

theorem step_raise (hhandles : h.handles ≠ 0) (hflag : h.signal.raised = false)
    (hcalls : h.calls = []) :
    h.step (.request .raise) = { h with
      signal := { h.signal with raised := true, timers := [], callbacks := [] }
      calls := [.tell h.signal.timers :: (h.signal.callbacks.map .begin ++ closing)]
      moments := .raised :: h.moments } := by
  simp [step, hhandles, serve_raise hflag, hcalls, closing]

theorem step_ask (hhandles : h.handles ≠ 0) (hflag : h.signal.raised = false) :
    h.step (.request .ask) = h.note (.answered none .ask false) := by
  simp [step, hhandles, serve_ask hflag]

theorem step_onRaise (hhandles : h.handles ≠ 0) (hflag : h.signal.raised = false) (holds : Bool)
    (deed : Deed) :
    h.step (.request (.onRaise holds deed)) = { h with
      signal := { h.signal with callbacks := h.signal.callbacks ++ [⟨h.callbacks, holds, deed⟩] }
      callbacks := h.callbacks + 1
      moments := .answered none (.onRaise holds deed) true
        :: .accepted h.callbacks deed :: h.moments } := by
  simp [step, hhandles, serve_onRaise hflag]

theorem step_timeout (hhandles : h.handles ≠ 0) (hflag : h.signal.raised = false)
    (after : Duration) :
    h.step (.request (.timeout after)) = { h with
      signal := { h.signal with
        nextTimer := h.signal.nextTimer + 1
        timers := h.signal.timers ++ [h.signal.nextTimer] }
      timers := h.timers ++ [⟨h.signal.nextTimer, h.now + ticks after, .held⟩]
      moments := .answered none (.timeout after) true
        :: .registered h.signal.nextTimer after h.now :: h.moments } := by
  simp [step, hhandles, serve_timeout hflag]

theorem step_request_of_raised (hhandles : h.handles ≠ 0) (hflag : h.signal.raised = true)
    (r : Request Deed) : h.step (.request r) = h.note (.answered none r r.asks) := by
  simp [step, hhandles, serve_of_raised hflag]

theorem Unraised.request (hu : h.Unraised deeds) (r : Request Deed) :
    (∃ deeds, (h.step (.request r)).Unraised deeds) ∨
      ∃ tasks, (h.step (.request r)).Raised deeds 0 0 [] false tasks := by
  by_cases hhandles : h.handles = 0
  · have hsame : h.step (.request r) = h := if_pos hhandles
    exact .inl ⟨deeds, hsame.symm ▸ hu⟩
  · have hkept := hu.kept (Nat.pos_of_ne_zero hhandles)
    have hnumbered := hu.numbered (Nat.pos_of_ne_zero hhandles)
    cases r with
    | raise =>
      have honce : (h.signal.callbacks.map Task.begin ++ closing).any Task.tells = false := by
        simp [closing, Task.tells]
      rw [step_raise hhandles hu.flag hu.calls]
      refine .inr ⟨_, rfl, rfl, rfl, rfl,
        .tell honce (ahead_begin (Nat.zero_le _) hkept hnumbered), ?_, hu.recorded.raise⟩
      intro hannounced
      exact Bool.noConfusion (hu.announced.symm.trans hannounced)
    | ask =>
      rw [step_ask hhandles hu.flag]
      exact .inl ⟨deeds, hu.transfer rfl rfl rfl rfl (fun hpos => ⟨hpos, rfl⟩)
        (hu.recorded.grant .ask rfl)⟩
    | onRaise holds deed =>
      have hlength : h.signal.callbacks.length = deeds.length := by simp [← hkept]
      rw [step_onRaise hhandles hu.flag]
      refine .inl ⟨deeds ++ [deed], hu.flag, hu.calls, hu.announced, ?_, fun _ => ?_, fun _ => ?_,
        ?_⟩
      · simp [hu.counted]
      · simp [hkept]
      · simp only [List.map_append, hnumbered, List.map_singleton, List.length_append,
          List.length_singleton, List.range'_1_concat, Nat.zero_add, hu.counted, hlength]
      · rw [hu.counted]
        exact (hu.recorded.accept deed).grant _ rfl
    | timeout after =>
      rw [step_timeout hhandles hu.flag]
      refine .inl ⟨deeds, hu.transfer rfl rfl rfl rfl (fun hpos => ⟨hpos, rfl⟩) ?_⟩
      exact (hu.recorded.register h.signal.nextTimer after h.now).grant _ rfl

theorem Raised.proceed {task : Task} {rest : List Task}
    (hr : h.Raised deeds began ended path returned (task :: rest)) :
    ∃ began' ended' path' returned' tasks,
      (h.step (.proceed 0)).Raised deeds began' ended' path' returned' tasks ∧
      Task.stepsOfAll tasks < Task.stepsOfAll (task :: rest) := by
  have hcall : h.calls[0]? = some (task :: rest) := by rw [hr.calls]; rfl
  have hset : ∀ tasks, h.calls.set 0 tasks = [tasks] := by
    intro tasks
    rw [hr.calls]
    rfl
  have hstep : h.step (.proceed 0) = { (h.perform task).2 with
      calls := (h.perform task).2.calls.set 0 ((h.perform task).1 ++ rest) } := by
    rw [step, hcall]
  have hahead := hr.ahead
  have hrecorded := hr.recorded
  rw [hstep]
  cases hahead with
  | tell _ later =>
    exact ⟨_, _, _, _, rest,
      ⟨hr.flag, hr.timers, hr.callbacks, hset _, later, hr.announced, hrecorded⟩,
      by simp [Task.stepsOfAll, Task.steps]⟩
  | @begin _ callback _ number deed later =>
    obtain rfl := number
    have hlt : callback.number < deeds.length := (List.getElem?_eq_some_iff.mp deed).1
    exact ⟨_, _, _, _, .go callback.number callback.deed :: rest,
      ⟨hr.flag, hr.timers, hr.callbacks, hset _, .go deed rfl later, hr.announced,
        hrecorded.start hlt⟩,
      by simp [Task.stepsOfAll, Task.steps]⟩
  | @go _ _ left whole _ deed asks later =>
    cases left with
    | rest =>
      have hpath : path = whole.inquiries := by simpa [Deed.inquiries] using asks
      refine ⟨_, _, _, _, rest, ⟨hr.flag, hr.timers, hr.callbacks, hset _, later, ?_,
        hrecorded.finish (Nat.lt_succ_self ended) deed hpath⟩,
        by simp [Task.stepsOfAll, Task.steps, Deed.steps]⟩
      intro hannounced
      have hend : ended = deeds.length := hr.announced hannounced
      have hlt : ended < deeds.length := (List.getElem?_eq_some_iff.mp deed).1
      omega
    | request r next =>
      have hperform : h.perform (.go ended (.request r next))
          = ([.go ended (next r.asks)], h.note (.answered (some ended) r r.asks)) := by
        simp [perform, serve_of_raised hr.flag (some ended) r]
      have hasks : path ++ [(r, r.asks)] ++ (next r.asks).inquiries = whole.inquiries := by
        rw [← asks, List.append_assoc]
        rfl
      rw [hperform]
      refine ⟨_, _, _, _, .go ended (next r.asks) :: rest, ⟨hr.flag, hr.timers, hr.callbacks,
        hset _, .go deed hasks later, hr.announced, hrecorded.inquire r⟩, ?_⟩
      cases r.asks <;> simp [Task.stepsOfAll, Task.steps, Deed.steps] <;> omega
  | announce =>
    exact ⟨_, _, _, _, [.finish none],
      ⟨hr.flag, hr.timers, hr.callbacks, hset _, .finish, fun _ => rfl, hrecorded⟩,
      by simp [Task.stepsOfAll, Task.steps]⟩
  | finish =>
    exact ⟨_, _, _, _, [],
      ⟨hr.flag, hr.timers, hr.callbacks, hset _, .returned, hr.announced, hrecorded.conclude⟩,
      by simp [Task.stepsOfAll, Task.steps]⟩

@[simp] theorem forsake_raised : h.forsake.signal.raised = h.signal.raised := by
  unfold forsake
  split <;> rfl

@[simp] theorem forsake_calls : h.forsake.calls = h.calls := by
  unfold forsake
  split <;> rfl

@[simp] theorem forsake_announced : h.forsake.announced = h.announced := by
  unfold forsake
  split <;> rfl

@[simp] theorem forsake_callbacks : h.forsake.callbacks = h.callbacks := by
  unfold forsake
  split <;> rfl

@[simp] theorem forsake_moments : h.forsake.moments = h.moments := by
  unfold forsake
  split <;> rfl

@[simp] theorem forsake_handles : h.forsake.handles = h.handles := by
  unfold forsake
  split <;> rfl

theorem forsake_of_reachable (hreachable : h.reachable = true) : h.forsake = h :=
  if_pos hreachable

theorem reachable_of_handles (hhandles : 0 < h.handles) : h.reachable = true := by
  simp [reachable, hhandles]

theorem signal_dropTimer (h : History) (number : Nat) :
    ∃ timers ⊆ h.signal.timers, (if h.reachable then h.signal.deregister number else h.signal)
      = { h.signal with timers := timers } := by
  split
  · exact ⟨_, List.filter_subset_self _, rfl⟩
  · exact ⟨_, List.Subset.refl _, rfl⟩

theorem Unraised.step (hu : h.Unraised deeds) (e : Event) :
    (∃ deeds, (h.step e).Unraised deeds) ∨
      ∃ tasks, (h.step e).Raised deeds 0 0 [] false tasks := by
  cases e with
  | request r => exact hu.request r
  | clone =>
    refine .inl ⟨deeds, ?_⟩
    simp only [History.step]
    split
    · exact hu
    · exact hu.transfer rfl rfl rfl rfl (fun _ => ⟨by omega, rfl⟩) hu.recorded
  | dropHandle =>
    refine .inl ⟨deeds, ?_⟩
    simp only [History.step]
    split
    · exact hu
    · refine hu.transfer (by simp) (by simp) (by simp) (by simp) ?_ (by simpa using hu.recorded)
      intro hhandles
      rw [forsake_handles] at hhandles
      rw [forsake_of_reachable (reachable_of_handles hhandles)]
      exact ⟨by simp only at hhandles; omega, rfl⟩
  | wait =>
    refine .inl ⟨deeds, ?_⟩
    simp only [History.step]
    split
    · exact hu
    · exact hu.transfer rfl rfl rfl rfl (fun hhandles => ⟨hhandles, rfl⟩) hu.recorded
  | leave =>
    have hsame : h.step .leave = h := by simp [History.step, hu.announced]
    exact .inl ⟨deeds, hsame.symm ▸ hu⟩
  | proceed call =>
    have hsame : h.step (.proceed call) = h := by simp [History.step, hu.calls]
    exact .inl ⟨deeds, hsame.symm ▸ hu⟩
  | poll number =>
    refine .inl ⟨deeds, ?_⟩
    simp only [History.step]
    split
    · exact hu
    · exact hu.transfer rfl rfl rfl rfl (fun hhandles => ⟨hhandles, rfl⟩)
        (hu.recorded.poll number _)
  | dropTimer number =>
    refine .inl ⟨deeds, ?_⟩
    simp only [History.step]
    split
    · exact hu
    · obtain ⟨_, -, hsignal⟩ := signal_dropTimer h number
      simp only [hsignal]
      exact hu.transfer rfl rfl rfl rfl (fun hhandles => ⟨hhandles, rfl⟩)
        (hu.recorded.giveUp number)
  | advance ms =>
    exact .inl ⟨deeds, hu.transfer rfl rfl rfl rfl (fun hhandles => ⟨hhandles, rfl⟩) hu.recorded⟩

theorem Raised.request (hr : h.Raised deeds began ended path returned tasks) (r : Request Deed) :
    (h.step (.request r)).Raised deeds began ended path returned tasks := by
  by_cases hhandles : h.handles = 0
  · have hsame : h.step (.request r) = h := if_pos hhandles
    exact hsame.symm ▸ hr
  · rw [step_request_of_raised hhandles hr.flag]
    exact hr.transfer rfl hr.timers hr.callbacks rfl rfl (hr.recorded.serve r)

/-- Only the call that has raised the signal goes on with anything that matters to the callbacks. -/
theorem Raised.step (hr : h.Raised deeds began ended path returned tasks) (e : Event) :
    ∃ began ended path returned tasks,
      (h.step e).Raised deeds began ended path returned tasks := by
  cases e with
  | request r => exact ⟨_, _, _, _, _, hr.request r⟩
  | proceed call =>
    match call, tasks, hr with
    | 0, _ :: _, hr =>
      obtain ⟨began, ended, path, returned, tasks, hraised, -⟩ := hr.proceed
      exact ⟨began, ended, path, returned, tasks, hraised⟩
    | 0, [], hr =>
      have hsame : h.step (.proceed 0) = h := by simp [History.step, hr.calls]
      exact ⟨_, _, _, _, _, hsame.symm ▸ hr⟩
    | call + 1, _, hr =>
      have hsame : h.step (.proceed (call + 1)) = h := by simp [History.step, hr.calls]
      exact ⟨_, _, _, _, _, hsame.symm ▸ hr⟩
  | clone =>
    refine ⟨began, ended, path, returned, tasks, ?_⟩
    simp only [History.step]
    split
    · exact hr
    · exact hr.transfer rfl hr.timers hr.callbacks rfl rfl hr.recorded
  | dropHandle =>
    refine ⟨began, ended, path, returned, tasks, ?_⟩
    simp only [History.step]
    split
    · exact hr
    · refine hr.transfer (by simp) ?_ ?_ (by simp) (by simp) (by simpa using hr.recorded)
      · unfold forsake
        split
        · exact hr.timers
        · rfl
      · unfold forsake
        split
        · exact hr.callbacks
        · rfl
  | wait =>
    refine ⟨began, ended, path, returned, tasks, ?_⟩
    simp only [History.step]
    split
    · exact hr
    · exact hr.transfer rfl hr.timers hr.callbacks rfl rfl hr.recorded
  | leave =>
    refine ⟨began, ended, path, returned, tasks, ?_⟩
    simp only [History.step]
    split
    · rename_i hleave
      obtain rfl := hr.announced hleave.1
      exact hr.transfer rfl hr.timers hr.callbacks rfl rfl hr.recorded.release
    · exact hr
  | poll number =>
    refine ⟨began, ended, path, returned, tasks, ?_⟩
    simp only [History.step]
    split
    · exact hr
    · exact hr.transfer rfl hr.timers hr.callbacks rfl rfl (hr.recorded.poll number _)
  | dropTimer number =>
    refine ⟨began, ended, path, returned, tasks, ?_⟩
    simp only [History.step]
    split
    · exact hr
    · obtain ⟨_, hsubset, hsignal⟩ := signal_dropTimer h number
      rw [hr.timers] at hsubset
      simp only [hsignal]
      exact hr.transfer rfl (List.subset_nil.mp hsubset) hr.callbacks rfl rfl
        (hr.recorded.giveUp number)
  | advance ms =>
    exact ⟨_, _, _, _, _, hr.transfer rfl hr.timers hr.callbacks rfl rfl hr.recorded⟩

def Settled (h : History) : Prop :=
  (∃ deeds, h.Unraised deeds) ∨
    ∃ deeds began ended path returned tasks, h.Raised deeds began ended path returned tasks

theorem Settled.step (hs : h.Settled) (e : Event) : (h.step e).Settled := by
  rcases hs with ⟨deeds, hu⟩ | ⟨deeds, _, _, _, _, _, hr⟩
  · rcases hu.step e with hu | ⟨tasks, hr⟩
    · exact .inl hu
    · exact .inr ⟨deeds, _, _, _, _, tasks, hr⟩
  · exact .inr ⟨deeds, hr.step e⟩

theorem Settled.run (hs : h.Settled) (events : List Event) : (h.run events).Settled := by
  induction events generalizing h with
  | nil => exact hs
  | cons e events ih => exact ih (hs.step e)

theorem settled_fresh : fresh.Settled :=
  .inl ⟨[], rfl, rfl, rfl, rfl, fun _ => rfl, fun _ => rfl, .nil⟩

theorem Raised.run (hr : h.Raised deeds began ended path returned tasks) (events : List Event) :
    ∃ began ended path returned tasks,
      (h.run events).Raised deeds began ended path returned tasks := by
  induction events generalizing h began ended path returned tasks with
  | nil => exact ⟨_, _, _, _, _, hr⟩
  | cons e events ih =>
    obtain ⟨_, _, _, _, _, hnext⟩ := hr.step e
    exact ih hnext

theorem Raised.replicate (hr : h.Raised deeds began ended path returned tasks) {count : Nat}
    (hcount : Task.stepsOfAll tasks ≤ count) :
    ∃ began ended path returned,
      (h.run (List.replicate count (.proceed 0))).Raised deeds began ended path returned [] := by
  induction count generalizing h began ended path returned tasks with
  | zero =>
    cases tasks with
    | nil => exact ⟨_, _, _, _, hr⟩
    | cons task rest =>
      have hpos := task.steps_pos
      rw [Task.stepsOfAll] at hcount
      omega
  | succ count ih =>
    cases tasks with
    | nil =>
      have hsame : h.step (.proceed 0) = h := by simp [History.step, hr.calls]
      exact ih (hsame.symm ▸ hr) (Nat.zero_le _)
    | cons task rest =>
      obtain ⟨_, _, _, _, _, hnext, hless⟩ := hr.proceed
      exact ih hnext (by omega)

theorem Raised.conclude (hr : h.Raised deeds began ended path returned tasks) :
    Returned h.conclude.moments := by
  obtain ⟨_, _, _, _, hover⟩ : ∃ began ended path returned,
      h.conclude.Raised deeds began ended path returned [] :=
    hr.replicate (by simp [hr.calls])
  have hahead := hover.ahead
  have hrecorded := hover.recorded
  cases hahead
  exact hrecorded.returned.mpr rfl

theorem Settled.recorded (hs : h.Settled) :
    ∃ deeds began ended path returned,
      Recorded h.moments h.signal.raised deeds began ended path returned := by
  rcases hs with ⟨deeds, hu⟩ | ⟨deeds, began, ended, path, returned, _, hr⟩
  · exact ⟨deeds, _, _, _, _, hu.flag.symm ▸ hu.recorded⟩
  · exact ⟨deeds, began, ended, path, returned, hr.flag.symm ▸ hr.recorded⟩

theorem Settled.of_raised (hs : h.Settled) (hraised : h.signal.raised = true) :
    ∃ deeds began ended path returned tasks, h.Raised deeds began ended path returned tasks := by
  rcases hs with ⟨_, hu⟩ | hr
  · exact Bool.noConfusion (hu.flag.symm.trans hraised)
  · exact hr

end History

/-- Whatever is done about a signal, by its callbacks too, it is raised once at most. A callback
runs once at most, and only in the call that raised the signal, where it asks what it was accepted
to ask. That call comes to its end when every callback that was accepted has ended, and not before
that do those leave who wait. Once the signal was raised it stays so, nothing is registered with it,
and who wants to register something is told no and changes nothing. -/
theorem raised_once (events : List Event) :
    let h := History.fresh.run events
    (∀ m earlier, m :: earlier <:+ h.moments → m.InPlace earlier) ∧
      (h.signal.raised = true ↔ .raised ∈ h.moments) ∧
      (h.signal.raised = true →
        h.signal.timers = [] ∧ h.signal.callbacks = [] ∧
        (∀ caller r, r.registers = true →
          h.serve caller r = ((false, []), h.note (.answered caller r false))) ∧
        ∀ later, (h.run later).signal.raised = true ∧ Returned (h.run later).conclude.moments) := by
  intro h
  have hs : h.Settled := History.settled_fresh.run events
  obtain ⟨_, _, _, _, _, hrecorded⟩ := hs.recorded
  refine ⟨hrecorded.inPlace, hrecorded.raised.symm, fun hraised => ?_⟩
  obtain ⟨_, _, _, _, _, _, hr⟩ := hs.of_raised hraised
  refine ⟨hr.timers, hr.callbacks, ?_, fun later => ?_⟩
  · intro caller r hregisters
    have hasks : r.asks = false := by cases r <;> simp_all [Request.registers, Request.asks]
    rw [History.serve_of_raised hraised, hasks]
  · obtain ⟨_, _, _, _, _, hlater⟩ := hr.run later
    exact ⟨hlater.flag, hlater.conclude⟩

-- The callback raises the signal once more, then asks about it and registers a timer.
example :
    let deed : Deed := .request .raise fun _ => .request .ask fun _ =>
      .request (.timeout (.ofMillis 5)) fun _ => .rest
    let h := (History.fresh.run [.request (.onRaise true deed), .request .raise]).conclude
    asked 0 h.moments = [(.raise, false), (.ask, true), (.timeout (.ofMillis 5), false)] ∧
      h.timers = [] := ⟨rfl, rfl⟩

end BeaconMesh.Quit
