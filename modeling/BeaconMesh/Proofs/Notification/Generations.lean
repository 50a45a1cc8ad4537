import BeaconMesh.Proofs.Notification.Breakdowns
import BeaconMesh.Transport.Ip

/-!
Whether a peer that advertises once more is fetched again. Generations are counted modulo
`2 ^ 32`, and the loop takes the higher of two numbers for the newer one: what follows the highest
number is the lowest, and that is never newer.
-/

set_option autoImplicit false
set_option relaxedAutoImplicit false

namespace BeaconMesh

def PeerIdentifier.lastGeneration : UInt32 := 4294967295

theorem PeerIdentifier.generation_lt_next {id : PeerIdentifier}
    (hmore : id.generation ≠ lastGeneration) : id.generation < id.next.generation := by
  have hne : id.generation.toNat ≠ 4294967295 := by
    intro heq
    exact hmore (UInt32.toNat_inj.mp heq)
  have hlt : id.generation.toNat < 4294967296 := id.generation.toNat_lt
  rw [UInt32.lt_iff_toNat_lt, PeerIdentifier.next, UInt32.toNat_add]
  show id.generation.toNat < (id.generation.toNat + 1) % 4294967296
  omega

theorem PeerIdentifier.next_generation_le {id : PeerIdentifier}
    (hlast : id.generation = lastGeneration) : id.next.generation ≤ id.generation := by
  rw [PeerIdentifier.next, hlast]
  show lastGeneration + 1 ≤ lastGeneration
  decide

theorem IpTransport.identifier_announcement_succ (t : IpTransport) (number : Nat) :
    (t.announcement (number + 1)).map PeerAvailability.identifier
      = (t.announcement number).map fun peer => peer.identifier.next := by
  simp only [announcement, List.map_map]
  refine List.map_congr_left ?_
  intro address _
  show PeerIdentifier.mk address.text (UInt32.ofNat (number + 1)) = _
  rw [UInt32.ofNat_add]
  rfl

namespace Notification.EventLoop

open Beacon

variable {keys : KeyPair} {book : List KeyHash} {h h' : History}

theorem Unnoticed.begins_or_waits (hu : Unnoticed keys book h h') {peer : PeerAvailability}
    (hcame : peer.available = true)
    (hnew : ∀ last, (successes keys peer.uuid h.moments).head? = some last →
      last < peer.generation) :
    (∃ fetch, (h.step (.heard peer)).latestBegun = some fetch ∧ fetch.peer = peer) ∨
    (∃ fetch, h.Occupies peer.uuid fetch) ∧
      ∃ newest, ((h.step (.heard peer)).loop.recordOf peer.uuid).deferred = some newest ∧
        peer.generation ≤ newest.generation ∧
        (newest = peer ∨ (h.loop.recordOf peer.uuid).deferred = some newest) := by
  by_cases hfree : ∀ fetch, ¬ h.Occupies peer.uuid fetch
  · exact .inl ((hu.begins_iff hcame hnew).mpr hfree)
  · refine .inr ⟨by simpa using hfree, ?_⟩
    have hbusy := mt (hu.idle_iff peer.uuid).mp hfree
    rw [← hu.last] at hnew
    have hears := hears_onAvailability h.loop peer
    show ∃ newest, ((h.loop.onAvailability peer).2.recordOf peer.uuid).deferred = some newest ∧ _
    generalize h.loop.onAvailability peer = next at hears
    cases hears with
    | unknown hgone => exact Bool.noConfusion (hcame.symm.trans hgone)
    | departed hgone => exact Bool.noConfusion (hcame.symm.trans hgone)
    | skipped _ hold =>
      rw [recordOf_put, if_pos rfl]
      rcases hold with ⟨last, hlast, hle⟩ | ⟨-, newest, hwaits, hle⟩
      · exact absurd (hnew last hlast) (UInt32.not_lt.mpr hle)
      · exact ⟨newest, hwaits, hle, .inr hwaits⟩
    | deferred =>
      rw [recordOf_put, if_pos rfl]
      exact ⟨peer, rfl, UInt32.le_refl _, .inl rfl⟩
    | begun _ _ hidle => exact absurd hidle hbusy

theorem Unnoticed.skips (hu : Unnoticed keys book h h') {peer : PeerAvailability}
    (hcame : peer.available = true) {last : UInt32}
    (hlast : (successes keys peer.uuid h.moments).head? = some last)
    (hold : peer.generation ≤ last) :
    (h.step (.heard peer)).latestBegun = none ∧
      (h.step (.heard peer)).loop.recordOf peer.uuid = h.loop.recordOf peer.uuid := by
  rw [← hu.last] at hlast
  have hears := hears_onAvailability h.loop peer
  show (h.loop.onAvailability peer).1.bind Order.fetch? = none ∧
    (h.loop.onAvailability peer).2.recordOf peer.uuid = _
  generalize h.loop.onAvailability peer = next at hears
  cases hears with
  | unknown hgone => exact Bool.noConfusion (hcame.symm.trans hgone)
  | departed hgone => exact Bool.noConfusion (hcame.symm.trans hgone)
  | skipped => exact ⟨rfl, by rw [recordOf_put, if_pos rfl]⟩
  | deferred _ hnew => exact absurd (hnew last hlast) (UInt32.not_lt.mpr hold)
  | begun _ hnew => exact absurd (hnew last hlast) (UInt32.not_lt.mpr hold)

/-- Whatever comes to an event loop and in whatever order: if a peer advertises once more than when
it was fetched last, which is what a transport for IP networks announces of its static peers from
one time to the next, then it is fetched again or waits for the fetch that keeps it from being, as
long as the generation that was fetched is not the highest. If it is the highest, the peer is passed
over then, and nothing is ever fetched from it again. -/
theorem fetches_next_unless_last (keys : KeyPair) (book : List KeyHash) (signals : List Signal) :
    let h := (History.fresh keys book).run signals
    (∀ id peer, (successes keys id.uuid h.moments).head? = some id.generation →
      peer.identifier = PeerIdentifier.next id → peer.available = true →
      if id.generation = PeerIdentifier.lastGeneration then
        (h.step (.heard peer)).latestBegun = none ∧
          (h.step (.heard peer)).loop.recordOf id.uuid = h.loop.recordOf id.uuid
      else
        (∃ fetch, (h.step (.heard peer)).latestBegun = some fetch ∧ fetch.peer = peer) ∨
        (∃ fetch, h.Occupies id.uuid fetch) ∧
          ∃ newest, ((h.step (.heard peer)).loop.recordOf id.uuid).deferred = some newest ∧
            peer.generation ≤ newest.generation ∧
            (newest = peer ∨ (h.loop.recordOf id.uuid).deferred = some newest)) ∧
    (∀ m earlier, m :: earlier <:+ h.moments → ∀ uuid,
      PeerIdentifier.lastGeneration ∈ successes keys uuid earlier →
      ∀ next, m.begun = some next → next.peer.uuid ≠ uuid) ∧
    ∀ (t : IpTransport) (number : Nat),
      (t.announcement (number + 1)).map PeerAvailability.identifier
        = (t.announcement number).map fun peer => peer.identifier.next := by
  intro h
  obtain ⟨h', hu⟩ : ∃ h', Unnoticed keys book h h' :=
    unnoticed_run (unnoticed_fresh keys book) signals
  refine ⟨?_, ?_, IpTransport.identifier_announcement_succ⟩
  · intro id peer hlast hnext hcame
    have huuid : peer.uuid = id.uuid := by
      rw [PeerAvailability.uuid, hnext, PeerIdentifier.next]
    have hgeneration : peer.generation = id.next.generation := by
      rw [PeerAvailability.generation, hnext]
    rw [← huuid] at hlast ⊢
    split
    · rename_i hhighest
      refine hu.skips hcame hlast ?_
      rw [hgeneration]
      exact PeerIdentifier.next_generation_le hhighest
    · rename_i hmore
      refine hu.begins_or_waits hcame ?_
      intro last hlast'
      cases hlast.symm.trans hlast'
      rw [hgeneration]
      exact PeerIdentifier.generation_lt_next hmore
  · rintro m earlier hsuffix uuid hhighest next hbegun rfl
    have hfetched : PeerIdentifier.lastGeneration ∈ successes keys next.peer.uuid (m :: earlier) :=
      List.mem_append_right _ hhighest
    have hlt := hu.rising m earlier hsuffix next hbegun _ hfetched
    have hbound : next.peer.generation.toNat < 4294967296 := next.peer.generation.toNat_lt
    rw [UInt32.lt_iff_toNat_lt] at hlt
    have hhigh : PeerIdentifier.lastGeneration.toNat = 4294967295 := rfl
    omega

/-- The generation that follows the highest one is passed over, though nothing is under way; the one
that follows another is fetched. -/
theorem fetches_next_unless_last_comer :
    let fetched := fun generation => (History.fresh (repeating 2) []).run
      [.heard (comerOf generation), .ended 0 (.gave (.ok none) ⟨0⟩)]
    (successes (repeating 2) "a" (fetched 4294967295).moments).head? = some 4294967295 ∧
    (comerOf 0).identifier = PeerIdentifier.next ⟨"a", 4294967295⟩ ∧
    (fetched 4294967295).tasks = [] ∧
    ((fetched 4294967295).step (.heard (comerOf 0))).latestBegun = none ∧
    (successes (repeating 2) "a" (fetched 7).moments).head? = some 7 ∧
    (comerOf 8).identifier = PeerIdentifier.next ⟨"a", 7⟩ ∧
    ∃ fetch, ((fetched 7).step (.heard (comerOf 8))).latestBegun = some fetch ∧
      fetch.peer = comerOf 8 := by
  generalize repeating 2 = keys
  intro fetched
  have hhighest : (successes keys "a" (fetched 4294967295).moments).head? = some 4294967295 := rfl
  have hlast : (successes keys "a" (fetched 7).moments).head? = some 7 := rfl
  have hpassed := (fetches_next_unless_last keys []
    [.heard (comerOf 4294967295), .ended 0 (.gave (.ok none) ⟨0⟩)]).1 ⟨"a", 4294967295⟩ (comerOf 0)
    hhighest rfl rfl
  have hnext := (fetches_next_unless_last keys []
    [.heard (comerOf 7), .ended 0 (.gave (.ok none) ⟨0⟩)]).1 ⟨"a", 7⟩ (comerOf 8) hlast rfl rfl
  rw [if_pos (by rfl)] at hpassed
  rw [if_neg (by decide)] at hnext
  refine ⟨hhighest, rfl, rfl, hpassed.1, hlast, rfl, ?_⟩
  rcases hnext with hbegun | ⟨⟨fetch, -, -, ⟨t, ht, -⟩ | hbroken⟩, -⟩
  · exact hbegun
  · have htasks : (fetched 7).tasks = [] := rfl
    exact nomatch htasks ▸ ht
  · have hwhole : broken (fetched 7).moments = [] := rfl
    exact nomatch hwhole ▸ hbroken

end Notification.EventLoop

end BeaconMesh
