import BeaconMesh.Proofs.Bytes.Layout
import BeaconMesh.Entropy

/-!
A random reordering loses nothing and repeats nothing, whatever the random bytes are: it is a number
of exchanges, and the places that are exchanged are all there.
-/

set_option autoImplicit false
set_option relaxedAutoImplicit false

namespace BeaconMesh.Entropy

variable {α : Type}

private theorem swapIfInBounds_perm (xs : Array α) (i j : Nat) :
    (xs.swapIfInBounds i j).toList.Perm xs.toList := by
  rw [Array.swapIfInBounds_def]
  split
  · split
    · exact Array.perm_iff_toList_perm.mp (Array.swap_perm _ _)
    · exact List.Perm.refl _
  · exact List.Perm.refl _

private theorem shuffleFrom_perm (count : Nat) (xs : Array α) (e : Entropy) :
    (shuffleFrom count xs e).1.toList.Perm xs.toList := by
  induction count generalizing xs e with
  | zero => exact List.Perm.refl _
  | succ count ih =>
    rw [shuffleFrom]
    exact (ih _ _).trans (swapIfInBounds_perm xs (count + 1) (e.below (count + 2)).1)

theorem shuffle_perm (xs : List α) (e : Entropy) : (shuffle xs e).1.Perm xs :=
  shuffleFrom_perm (xs.length - 1) xs.toArray e

theorem draw_lt {range : Nat} (hrange : 0 < range) (size zone rejections : Nat) (e : Entropy) :
    (draw size range zone rejections e).1 < range := by
  have hhigh : ∀ e : Entropy,
      Bytes.toNatLE (e.take size).1 * range / (1 <<< (8 * size)) < range := by
    intro e
    have hbytes : Bytes.toNatLE (e.take size).1 < 1 <<< (8 * size) := by
      rw [Nat.one_shiftLeft, Nat.pow_mul]
      simpa [take] using Bytes.toNatLE_lt (e.take size).1
    apply Nat.div_lt_of_lt_mul
    exact (Nat.mul_lt_mul_right hrange).mpr hbytes
  induction rejections generalizing e with
  | zero => exact hhigh e
  | succ rejections ih =>
    rw [draw]
    dsimp only
    split
    · exact hhigh e
    · exact ih _

theorem below_lt {range : Nat} (hrange : 0 < range) (e : Entropy) : (e.below range).1 < range :=
  draw_lt hrange _ _ _ e

/-- The places that are exchanged when `count + 1` things are put in random order, one pair after
another. -/
def swaps : Nat → Entropy → List (Nat × Nat)
  | 0, _ => []
  | count + 1, e => (count + 1, (e.below (count + 2)).1) :: swaps count (e.below (count + 2)).2

theorem mem_swaps {count : Nat} {e : Entropy} {s : Nat × Nat} (hs : s ∈ swaps count e) :
    s.1 ≤ count ∧ s.2 ≤ s.1 := by
  induction count generalizing e with
  | zero => cases hs
  | succ count ih =>
    rcases List.mem_cons.mp hs with rfl | hs
    · exact ⟨Nat.le_refl _, Nat.le_of_lt_succ (below_lt (Nat.succ_pos _) e)⟩
    · obtain ⟨hfirst, hsecond⟩ := ih hs
      exact ⟨Nat.le_succ_of_le hfirst, hsecond⟩

/-- A random reordering is nothing but these exchanges. -/
theorem shuffle_eq (xs : List α) (e : Entropy) :
    (shuffle xs e).1 = ((swaps (xs.length - 1) e).foldl (fun ys s => ys.swapIfInBounds s.1 s.2)
      xs.toArray).toList := by
  have hfrom : ∀ (count : Nat) (ys : Array α) (e : Entropy), (shuffleFrom count ys e).1 =
      (swaps count e).foldl (fun ys s => ys.swapIfInBounds s.1 s.2) ys := by
    intro count
    induction count with
    | zero => exact fun _ _ => rfl
    | succ count ih => exact fun ys e => ih _ _
  exact congrArg Array.toList (hfrom (xs.length - 1) xs.toArray e)

end BeaconMesh.Entropy
