import BeaconMesh.Notification.Server

/-!
Runs of a server's operations: what an operation will have published is settled when it begins, and
every call it makes keeps to that.
-/

set_option autoImplicit false
set_option relaxedAutoImplicit false

namespace BeaconMesh.Notification

open Beacon

namespace Server

/-- How far the operation has come, if it ends well it will have published this. -/
def Intends (next : Published) : Progress × Server → Prop
  | (.done (.error _), _) => True
  | (.done (.ok _), s) => s.published = next
  | (.waits (.start later), _) => later = next
  | (.waits .refresh, s) => s.published = next
  | (.waits .stop, _) => False

private theorem intends_publish (s : Server) (next : Published) :
    Intends next (s.publish next) := by
  simp only [publish]
  split <;> rfl

private theorem intends_prepare (s : Server) (next : Published) :
    Intends next (s.prepare next) := by
  unfold prepare
  split
  · exact intends_publish s next
  · rfl

private theorem intends_resume {s : Server} {next : Published} {pending : Pending}
    (h : Intends next (.waits pending, s)) (outcome : Except String Unit) :
    Intends next (s.resume pending outcome) := by
  rcases pending with later | _ | _ <;> rcases outcome with cause | _
  case start.error => trivial
  case start.ok =>
    obtain rfl : later = next := h
    exact intends_publish _ _
  case refresh.error => trivial
  case refresh.ok => exact h
  all_goals exact h.elim

private theorem finish_intends {next : Published} {reached : Progress × Server}
    {outcomes : List (Except String Unit)} {s' : Server} (h : Intends next reached)
    (hfinish : finish reached outcomes = some (.ok (), s')) : s'.published = next := by
  induction outcomes generalizing reached with
  | nil =>
    rcases reached with ⟨result | _, s⟩
    · cases hfinish
      exact h
    · cases hfinish
  | cons outcome outcomes ih =>
    rcases reached with ⟨_ | pending, s⟩
    · cases hfinish
    · exact ih (intends_resume h outcome) hfinish

theorem perform_start {s s' : Server} {recipients : List PublicKey} {now : Instant} {e : Entropy}
    {outcomes : List (Except String Unit)} (hsome : recipients ≠ [])
    (h : s.perform (.start recipients) now e outcomes = some (.ok (), s')) :
    ∃ set, (generate recipients s.keys s.ttl now e).1 = .ok set ∧ s'.published = ⟨some set⟩ := by
  rw [perform, begin, start, if_neg (by simpa using hsome)] at h
  rcases hmade : generate recipients s.keys s.ttl now e with ⟨fault | set, e'⟩
  · rw [hmade] at h
    rcases outcomes with _ | ⟨_, _⟩ <;> cases h
  · rw [hmade] at h
    exact ⟨set, rfl, finish_intends (intends_prepare s ⟨some set⟩) h⟩

theorem perform_start_fresh {keys : KeyPair} {ttl : Duration} {recipients : List PublicKey}
    {now : Instant} {e : Entropy} {set : BeaconSet} (hsome : recipients ≠ [])
    (hmade : (generate recipients keys ttl now e).1 = .ok set) :
    (fresh keys ttl).perform (.start recipients) now e [.ok (), .ok ()]
      = some (.ok (), ⟨keys, ttl, ⟨some set⟩, .running, true⟩) := by
  rw [perform, begin, start, if_neg (by simpa using hsome)]
  rcases hgenerate : generate recipients (fresh keys ttl).keys (fresh keys ttl).ttl now e
    with ⟨made, e'⟩
  obtain rfl : made = .ok set := (congrArg Prod.fst hgenerate).symm.trans hmade
  rfl

end Server

end BeaconMesh.Notification
