import Mathlib

/-!
# Pools of permits

A pool is a number of free permits and a list of holders, each with at most one
permit in hand. Its permits are accounted for when the free ones and those in
hand make up its capacity (`Accounted`).

A step of one holder keeps the account when what it takes from the pool is what
it gets in hand (`Accounted.set`); so does a new holder (`Accounted.append`).
Then all are in hand when none is free, and all are free when none is in hand.
Where a holder counts for more than one, it is the sum that changes
(`sum_map_set_add`).
-/

namespace Inferences.Permits

variable {α : Type*} {holds : α → Bool} {capacity free free' : Nat} {holders : List α}

/-- The permits of a pool are all free or in hand. -/
def Accounted (holds : α → Bool) (capacity free : Nat) (holders : List α) : Prop :=
  free + holders.countP holds = capacity

/-- How a step of one holder changes the number of those with a permit. -/
theorem countP_set_add (holds : α → Bool) {i : Nat} {a b : α} (hi : holders[i]? = some a) :
    (holders.set i b).countP holds + (holds a).toNat = holders.countP holds + (holds b).toNat := by
  obtain ⟨hlt, rfl⟩ := List.getElem?_eq_some_iff.1 hi
  have hle : (holds holders[i]).toNat ≤ holders.countP holds := by
    cases hb : holds holders[i] with
    | false => exact Nat.zero_le _
    | true => exact List.countP_pos_iff.2 ⟨_, List.getElem_mem hlt, hb⟩
  have hcount : (holders.set i b).countP holds =
      holders.countP holds - (holds holders[i]).toNat + (holds b).toNat := by
    rw [List.countP_set hlt]
    cases holds holders[i] <;> cases holds b <;> rfl
  omega

theorem countP_append_singleton (holds : α → Bool) (holders : List α) (a : α) :
    (holders ++ [a]).countP holds = holders.countP holds + (holds a).toNat := by
  rw [List.countP_append, List.countP_singleton]
  cases holds a <;> rfl

/-- How a step of one holder changes what the holders amount to. -/
theorem sum_map_set_add (amount : α → ℕ) {i : ℕ} {a b : α} (hi : holders[i]? = some a) :
    ((holders.set i b).map amount).sum + amount a = (holders.map amount).sum + amount b := by
  induction holders generalizing i with
  | nil => cases hi
  | cons first holders ih =>
    cases i with
    | zero =>
      cases hi
      simp only [List.set_cons_zero, List.map_cons, List.sum_cons]
      omega
    | succ i =>
      have hrest := ih (i := i) (by simpa using hi)
      simp only [List.set_cons_succ, List.map_cons, List.sum_cons]
      omega

/-- A step of one holder gives to the pool what it takes from the hand. -/
theorem Accounted.set (h : Accounted holds capacity free holders) {i : Nat} {a b : α}
    (hi : holders[i]? = some a) (hstep : free' + (holds b).toNat = free + (holds a).toNat) :
    Accounted holds capacity free' (holders.set i b) := by
  have hcount := countP_set_add holds hi (b := b)
  rw [Accounted] at h ⊢
  omega

/-- A new holder takes from the pool what it has in hand. -/
theorem Accounted.append (h : Accounted holds capacity free holders) {a : α}
    (hstep : free' + (holds a).toNat = free) :
    Accounted holds capacity free' (holders ++ [a]) := by
  have hcount := countP_append_singleton holds holders a
  rw [Accounted] at h ⊢
  omega

/-- No more permits are held than there are. -/
theorem Accounted.countP_le (h : Accounted holds capacity free holders) :
    holders.countP holds ≤ capacity := by
  rw [← h]
  exact Nat.le_add_left _ _

/-- With none free, all are held. -/
theorem Accounted.all_held (h : Accounted holds capacity free holders) (hfree : free = 0) :
    holders.countP holds = capacity := by
  rw [← h, hfree, Nat.zero_add]

/-- With none held, all are free. -/
theorem Accounted.all_free (h : Accounted holds capacity free holders)
    (hnone : ∀ a ∈ holders, holds a = false) : free = capacity := by
  have hzero : holders.countP holds = 0 :=
    List.countP_eq_zero.2 fun a ha => by simp [hnone a ha]
  rw [← h, hzero, Nat.add_zero]

end Inferences.Permits
