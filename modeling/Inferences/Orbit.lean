import Mathlib

/-!
# Orbits

What becomes of an element while a partial function is applied to it over and
over (`orbit`). A function that is defined on finitely many elements is
applied to one of them twice before long: an orbit with more steps than there
are such elements never ends (`orbit_forever`).
-/

namespace Inferences

variable {α : Type} {f : α → Option α} {a b : α}

/-- The element after `n` steps, if the function is defined that long. -/
def orbit (f : α → Option α) : ℕ → α → Option α
  | 0, a => some a
  | n + 1, a => (f a).bind (orbit f n)

@[simp] theorem orbit_zero (f : α → Option α) (a : α) : orbit f 0 a = some a := rfl

/-- So many steps, and then so many more. -/
theorem orbit_add (f : α → Option α) (m n : ℕ) (a : α) :
    orbit f (m + n) a = (orbit f m a).bind (orbit f n) := by
  induction m generalizing a with
  | zero => rw [Nat.zero_add, orbit_zero, Option.bind_some]
  | succ m ih =>
    rw [Nat.succ_add, orbit, orbit, Option.bind_assoc]
    exact congrArg ((f a).bind ·) (funext ih)

theorem orbit_succ (f : α → Option α) (n : ℕ) (a : α) :
    orbit f (n + 1) a = (orbit f n a).bind f := by
  rw [orbit_add]
  exact congrArg _ (funext fun b => Option.bind_fun_some (f b))

/-- An orbit is defined up to each of its steps. -/
theorem orbit_le {m n : ℕ} (h : m ≤ n) (hn : (orbit f n a).isSome) : (orbit f m a).isSome := by
  obtain ⟨k, rfl⟩ := Nat.exists_eq_add_of_le h
  rw [orbit_add] at hn
  cases hm : orbit f m a with
  | none => simp [hm] at hn
  | some b => rfl

/-- What can be reached is reached in some number of steps. -/
theorem reaches_iff_orbit :
    Relation.ReflTransGen (fun a b => f a = some b) a b ↔ ∃ n, orbit f n a = some b := by
  constructor
  · intro h
    induction h with
    | refl => exact ⟨0, rfl⟩
    | tail _ hstep ih =>
      obtain ⟨n, hn⟩ := ih
      exact ⟨n + 1, by rw [orbit_succ, hn, Option.bind_some, hstep]⟩
  · rintro ⟨n, hn⟩
    induction n generalizing a with
    | zero => rw [Option.some.inj hn]
    | succ n ih =>
      obtain ⟨c, hstep, hc⟩ := Option.bind_eq_some_iff.1 hn
      exact .head hstep (ih hc)

/-- An orbit that comes back never ends. -/
theorem orbit_periodic {p : ℕ} (hp : 0 < p) (h : orbit f p a = some a) (n : ℕ) :
    (orbit f n a).isSome := by
  induction n using Nat.strong_induction_on with
  | _ n ih =>
    rcases Nat.lt_or_ge n p with hlt | hge
    · exact orbit_le hlt.le (by rw [h]; rfl)
    · -- one period less
      obtain ⟨k, rfl⟩ := Nat.exists_eq_add_of_le hge
      rw [orbit_add, h, Option.bind_some]
      exact ih k (by omega)

/-- An orbit that is longer than the function has elements never ends. -/
theorem orbit_forever {s : Finset α} (hs : ∀ a, (f a).isSome → a ∈ s)
    (h : (orbit f (s.card + 1) a).isSome) (n : ℕ) : (orbit f n a).isSome := by
  have hstep : ∀ i : Fin (s.card + 1), ∃ b, orbit f i a = some b ∧ b ∈ s := by
    intro i
    have hnext := orbit_le (Nat.succ_le_succ (Nat.lt_succ_iff.1 i.2)) h
    rw [Nat.succ_eq_add_one, orbit_succ] at hnext
    cases hi : orbit f i a with
    | none => simp [hi] at hnext
    | some b => exact ⟨b, rfl, hs b (by simpa [hi] using hnext)⟩
  choose visited hvisited hmem using hstep
  -- two of the elements on the way are the same
  obtain ⟨i, -, j, -, hne, hsame⟩ := Finset.exists_ne_map_eq_of_card_lt_of_maps_to
    (s := Finset.univ) (t := s) (by simp) (fun i _ => hmem i)
  wlog hij : i < j generalizing i j
  · exact this j i hne.symm hsame.symm (lt_of_le_of_ne (not_lt.1 hij) hne.symm)
  -- so the orbit comes back after the steps between them
  have hback : orbit f (j - i) (visited i) = some (visited i) := by
    have hj := hvisited j
    rw [← Nat.add_sub_cancel' (Fin.le_def.1 hij.le), orbit_add, hvisited i, Option.bind_some] at hj
    rw [hj, hsame]
  rcases Nat.lt_or_ge n i with hlt | hge
  · exact orbit_le hlt.le (by rw [hvisited i]; rfl)
  · obtain ⟨k, rfl⟩ := Nat.exists_eq_add_of_le hge
    rw [orbit_add, hvisited i, Option.bind_some]
    exact orbit_periodic (Nat.sub_pos_of_lt hij) hback k

end Inferences
