import BeaconMesh.Round.Run
import Mathlib.Data.List.Nodup

/-!
What the two halves of a round keep: something that holds of every attempt and every session holds
on as long as each event keeps it, a peer is dialed at most once at a time, and who counts as having
succeeded was named by an attempt.
-/

set_option autoImplicit false
set_option relaxedAutoImplicit false

namespace BeaconMesh.Round

theorem Attempt.stage_of_result? {a : Attempt} {result : Except Fault Uuid}
    (h : a.result? = some result) : a.stage = .done result := by
  unfold result? at h
  split at h
  · rename_i hdone
    rw [hdone, Option.some.inj h]
  · cases h

namespace ClientRole

/-- Every attempt is as `A` says, no peer is dialed twice at a time, and everybody who has
succeeded is as `P` says. -/
structure Sound (A : String → Attempt → Prop) (P : Uuid → Prop) (r : ClientRole) : Prop where
  attempts : ∀ d ∈ r.attempts, A d.peer.uuid d.attempt
  distinct : (r.attempts.map fun d => d.peer.uuid).Nodup
  resolving : ∀ d ∈ r.attempts, d.peer.uuid ∈ r.resolving
  succeeded : ∀ u ∈ r.succeeded, P u

variable {A A' : String → Attempt → Prop} {P P' : Uuid → Prop} {r r' : ClientRole}

theorem Sound.mono (h : r.Sound A P) (hA : ∀ d ∈ r.attempts, A d.peer.uuid d.attempt →
    A' d.peer.uuid d.attempt) (hP : ∀ u, P u → P' u) : r.Sound A' P' :=
  ⟨fun d hd => hA d hd (h.attempts d hd), h.distinct, h.resolving,
    fun u hu => hP u (h.succeeded u hu)⟩

theorem Sound.eq_of_uuid (h : r.Sound A P) {d d' : Dial} (hd : d ∈ r.attempts)
    (hd' : d' ∈ r.attempts) (huuid : d.peer.uuid = d'.peer.uuid) : d = d' :=
  List.inj_on_of_nodup_map h.distinct hd hd' huuid

theorem sound_dial (h : r.Sound A P) (hfresh : ∀ uuid, A uuid .fresh) (peer : PeerAvailability) :
    (r.dial peer).Sound A P := by
  unfold dial
  split
  · rename_i hdials
    have hnew : peer.uuid ∉ r.resolving := by
      simp only [Bool.and_eq_true, Bool.not_eq_true', List.contains_eq_mem] at hdials
      simpa using hdials.2
    refine ⟨?_, ?_, ?_, h.succeeded⟩
    · intro d hd
      rcases List.mem_append.mp hd with hd | hd
      · exact h.attempts d hd
      · obtain rfl := List.mem_singleton.mp hd
        exact hfresh peer.uuid
    · rw [List.map_append]
      refine List.nodup_append.mpr ⟨h.distinct, List.nodup_singleton _, ?_⟩
      intro uuid huuid other hother heq
      obtain rfl := List.mem_singleton.mp hother
      obtain ⟨d, hd, hduuid⟩ := List.mem_map.mp huuid
      change uuid = peer.uuid at heq
      refine hnew ?_
      rw [← heq, ← hduuid]
      exact h.resolving d hd
    · intro d hd
      rcases List.mem_append.mp hd with hd | hd
      · exact List.mem_cons_of_mem _ (h.resolving d hd)
      · obtain rfl := List.mem_singleton.mp hd
        exact List.mem_cons_self
  · exact h

theorem sound_hear (h : r.Sound A P) (hfresh : ∀ uuid, A uuid .fresh) (peer : PeerAvailability) :
    (r.hear peer).Sound A P := by
  have hdial := sound_dial h hfresh peer
  exact ⟨hdial.attempts, hdial.distinct, hdial.resolving, hdial.succeeded⟩

theorem sound_start (hfresh : ∀ uuid, A uuid .fresh) (known : Roster) :
    (start known).Sound A P := by
  have hfold : ∀ (peers : Roster) (r : ClientRole), r.Sound A P →
      (peers.foldl dial r).Sound A P := by
    intro peers
    induction peers with
    | nil => exact fun r h => h
    | cons peer peers ih => exact fun r h => ih (r.dial peer) (sound_dial h hfresh peer)
  refine hfold known _ ⟨?_, List.nodup_nil, ?_, ?_⟩
  all_goals
    intro x hx
    cases hx

theorem map_uuid_notice (r : ClientRole) (uuid : String) (f : Attempt → Attempt) :
    (r.notice uuid f).attempts.map (fun d => d.peer.uuid)
      = r.attempts.map fun d => d.peer.uuid := by
  rw [notice, List.map_map]
  refine List.map_congr_left ?_
  intro d _
  simp only [Function.comp]
  split <;> rfl

theorem sound_notice (h : r.Sound A P) {uuid : String} {f : Attempt → Attempt}
    (hthis : ∀ d ∈ r.attempts, d.peer.uuid = uuid → A uuid d.attempt → A' uuid (f d.attempt))
    (hothers : ∀ d ∈ r.attempts, d.peer.uuid ≠ uuid → A d.peer.uuid d.attempt →
      A' d.peer.uuid d.attempt) : (r.notice uuid f).Sound A' P := by
  have huuids := map_uuid_notice r uuid f
  refine ⟨?_, huuids ▸ h.distinct, ?_, h.succeeded⟩
  · intro d hd
    obtain ⟨before, hbefore, rfl⟩ := List.mem_map.mp hd
    split
    · rename_i heq
      show A' before.peer.uuid (f before.attempt)
      have hthis' := hthis before hbefore heq
      rw [heq]
      exact hthis' (heq ▸ h.attempts before hbefore)
    · rename_i hne
      exact hothers before hbefore hne (h.attempts before hbefore)
  · intro d hd
    have hmem : d.peer.uuid ∈ r.attempts.map fun d => d.peer.uuid := by
      rw [← huuids]
      exact List.mem_map_of_mem hd
    obtain ⟨before, hbefore, heq⟩ := List.mem_map.mp hmem
    show d.peer.uuid ∈ r.resolving
    rw [← heq]
    exact h.resolving before hbefore

private theorem sound_filter (h : r.Sound A P) (uuid : String) (resolving : List String)
    (hresolving : ∀ u ∈ r.resolving, u ≠ uuid → u ∈ resolving) (succeeded : Uuid.Set)
    (hsucceeded : ∀ u ∈ succeeded, P u) (retries : List (Nat × String)) :
    Sound A P { r with
      attempts := r.attempts.filter fun d => d.peer.uuid != uuid
      resolving := resolving, succeeded := succeeded, retries := retries } := by
  refine ⟨?_, ?_, ?_, hsucceeded⟩
  · intro d hd
    exact h.attempts d (List.mem_filter.mp hd).1
  · exact h.distinct.sublist (List.filter_sublist.map _)
  · intro d hd
    obtain ⟨hmem, hne⟩ := List.mem_filter.mp hd
    exact hresolving _ (h.resolving d hmem) (by simpa using hne)

theorem sound_conclude {quit quit' : QuitSignal Unit} {uuid : String} (h : r.Sound A P)
    (hsuccess : ∀ uuid a u, A uuid a → a.stage = .done (.ok u) → P u)
    (hconclude : r.conclude quit uuid = .ok (r', quit')) : r'.Sound A P := by
  unfold conclude at hconclude
  cases hresult : r.result? uuid with
  | none =>
    rw [hresult] at hconclude
    cases hconclude
    exact h
  | some result =>
    simp only [hresult] at hconclude
    cases result with
    | ok participant =>
      cases hconclude
      -- the attempt that names the participant is one of the role's own
      have hnamed : P participant := by
        unfold result? at hresult
        obtain ⟨d, hfind, hstage⟩ := Option.bind_eq_some_iff.mp hresult
        exact hsuccess d.peer.uuid d.attempt participant
          (h.attempts d (List.mem_of_find?_eq_some hfind)) (Attempt.stage_of_result? hstage)
      refine sound_filter h uuid r.resolving (fun u hu _ => hu) _ ?_ r.retries
      intro u hu
      rcases (Ascending.mem_insert Uuid.le participant u r.succeeded).mp hu with rfl | hu
      · exact hnamed
      · exact h.succeeded u hu
    | error fault =>
      simp only at hconclude
      split at hconclude
      · cases hconclude
      · split at hconclude
        · cases hconclude
        · cases hconclude
          refine sound_filter h uuid _ ?_ r.succeeded h.succeeded _
          intro u hu hne
          exact List.mem_filter.mpr ⟨hu, by simpa using hne⟩

theorem sound_retry {quit : QuitSignal Unit} {timer : Nat} (h : r.Sound A P)
    (hfresh : ∀ uuid, A uuid .fresh) : (r.retry quit timer).1.Sound A P := by
  unfold retry
  split
  · exact h
  · rename_i uuid _
    have hwaiting : Sound A P { r with retries := r.retries.filter fun t => t.1 != timer } :=
      ⟨h.attempts, h.distinct, h.resolving, h.succeeded⟩
    cases hlast : r.known.last? uuid with
    | none => simpa [hlast] using hwaiting
    | some peer => simpa [hlast] using sound_dial hwaiting hfresh peer

theorem sound_clear (h : r.Sound A P) : r.clear.Sound A P := by
  refine ⟨?_, List.nodup_nil, ?_, h.succeeded⟩
  all_goals
    intro d hd
    cases hd

theorem verdict?_ok {others succeeded : Uuid.Set}
    (h : r.verdict? others = some (.ok succeeded)) :
    succeeded = r.succeeded ∧ ∀ u ∈ others, u ∈ r.succeeded := by
  unfold verdict? at h
  split at h
  · rename_i hall
    obtain rfl : r.succeeded = succeeded := Except.ok.inj (Option.some.inj h)
    refine ⟨rfl, ?_⟩
    intro u hu
    simpa using List.all_eq_true.mp hall u hu
  · split at h <;> cases h

end ClientRole

namespace ServerRole

/-- Every session is as `S` says and has a number of its own that was given out. -/
structure Sound (S : Nat → Session → Prop) (r : ServerRole) : Prop where
  sessions : ∀ s ∈ r.sessions, S s.1 s.2
  distinct : (r.sessions.map Prod.fst).Nodup
  issued : ∀ s ∈ r.sessions, s.1 < r.nextSession

variable {S S' : Nat → Session → Prop} {r : ServerRole}

theorem Sound.mono (h : r.Sound S) (hS : ∀ s ∈ r.sessions, S s.1 s.2 → S' s.1 s.2) :
    r.Sound S' :=
  ⟨fun s hs => hS s hs (h.sessions s hs), h.distinct, h.issued⟩

theorem Sound.eq_of_number (h : r.Sound S) {s s' : Nat × Session} (hs : s ∈ r.sessions)
    (hs' : s' ∈ r.sessions) (hnumber : s.1 = s'.1) : s = s' :=
  List.inj_on_of_nodup_map h.distinct hs hs' hnumber

theorem sound_start : start.Sound S := by
  refine ⟨?_, List.nodup_nil, ?_⟩
  all_goals
    intro s hs
    cases hs

theorem sound_accept (h : r.Sound S) (hfresh : S r.nextSession .fresh) : r.accept.Sound S := by
  refine ⟨?_, ?_, ?_⟩
  · intro s hs
    rcases List.mem_append.mp hs with hs | hs
    · exact h.sessions s hs
    · obtain rfl := List.mem_singleton.mp hs
      exact hfresh
  · rw [accept, List.map_append]
    refine List.nodup_append.mpr ⟨h.distinct, List.nodup_singleton _, ?_⟩
    intro number hnumber other hother heq
    obtain rfl := List.mem_singleton.mp hother
    obtain ⟨s, hs, hsnumber⟩ := List.mem_map.mp hnumber
    have hlt := h.issued s hs
    simp only at heq
    omega
  · intro s hs
    rcases List.mem_append.mp hs with hs | hs
    · exact Nat.lt_succ_of_lt (h.issued s hs)
    · obtain rfl := List.mem_singleton.mp hs
      exact Nat.lt_succ_self _

theorem sound_notice (h : r.Sound S) {number : Nat} {f : Session → Session}
    (hthis : ∀ s ∈ r.sessions, s.1 = number → S number s.2 → S' number (f s.2))
    (hothers : ∀ s ∈ r.sessions, s.1 ≠ number → S s.1 s.2 → S' s.1 s.2) :
    (r.notice number f).Sound S' := by
  have hnumbers : (r.notice number f).sessions.map Prod.fst = r.sessions.map Prod.fst := by
    rw [notice, List.map_map]
    refine List.map_congr_left ?_
    intro s _
    simp only [Function.comp]
    split <;> rfl
  refine ⟨?_, hnumbers ▸ h.distinct, ?_⟩
  · intro s hs
    obtain ⟨before, hbefore, rfl⟩ := List.mem_map.mp hs
    split
    · rename_i heq
      show S' before.1 (f before.2)
      have hthis' := hthis before hbefore heq
      rw [heq]
      exact hthis' (heq ▸ h.sessions before hbefore)
    · rename_i hne
      exact hothers before hbefore hne (h.sessions before hbefore)
  · intro s hs
    have hmem : s.1 ∈ r.sessions.map Prod.fst := by
      rw [← hnumbers]
      exact List.mem_map_of_mem hs
    obtain ⟨before, hbefore, heq⟩ := List.mem_map.mp hmem
    show s.1 < r.nextSession
    rw [← heq]
    exact h.issued before hbefore

theorem sound_conclude (h : r.Sound S) (number : Nat) : (r.conclude number).Sound S := by
  have hfilter : ∀ validated, Sound S { r with
      sessions := r.sessions.filter fun s => s.1 != number, validated := validated } := by
    intro validated
    refine ⟨?_, h.distinct.sublist (List.filter_sublist.map _), ?_⟩
    · intro s hs
      exact h.sessions s (List.mem_filter.mp hs).1
    · intro s hs
      exact h.issued s (List.mem_filter.mp hs).1
  unfold conclude
  cases r.result? number with
  | none => exact h
  | some result =>
    simp only
    split
    · exact hfilter _
    · exact hfilter _

theorem sound_clear : r.clear.Sound S := by
  refine ⟨?_, List.nodup_nil, ?_⟩
  all_goals
    intro s hs
    cases hs

end ServerRole

end BeaconMesh.Round
