/-!
Sets as ascending lists without repetition.
-/

set_option autoImplicit false
set_option relaxedAutoImplicit false

namespace BeaconMesh.Ascending

/-- Puts an element into its place; one that is there already stays. -/
def insert {α : Type} [DecidableEq α] (le : α → α → Bool) (a : α) : List α → List α
  | [] => [a]
  | x :: rest =>
    if a = x then x :: rest else if le a x then a :: x :: rest else x :: insert le a rest

def ofList {α : Type} [DecidableEq α] (le : α → α → Bool) (xs : List α) : List α :=
  xs.foldr (insert le) []

theorem mem_insert {α : Type} [DecidableEq α] (le : α → α → Bool) (a b : α) (xs : List α) :
    b ∈ insert le a xs ↔ b = a ∨ b ∈ xs := by
  induction xs with
  | nil => simp [insert]
  | cons x rest ih =>
    by_cases hx : a = x
    · subst hx; simp [insert]
    · by_cases hl : le a x = true
      · simp [insert, hx, hl]
      · simp [insert, hx, hl, ih]
        exact or_left_comm

@[simp] theorem mem_ofList {α : Type} [DecidableEq α] (le : α → α → Bool) (b : α) (xs : List α) :
    b ∈ ofList le xs ↔ b ∈ xs := by
  induction xs with
  | nil => simp [ofList]
  | cons x rest ih =>
    have step : ofList le (x :: rest) = insert le x (ofList le rest) := rfl
    rw [step, mem_insert, ih, List.mem_cons]

end BeaconMesh.Ascending
