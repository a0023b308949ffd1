import Mathlib

/-!
# Custody of a resource behind a lock

Instances of a resource are made one after the other, each by whoever holds a
lock. The holder has at most one instance in hand, and may leave it in the one
place the lock guards, for others to use; whoever holds the lock next may take
it away. An instance lives until it expires by itself or is dropped.

At most one instance lives at any time, and the one in the place is the last
one made (`Owned`). Nobody takes the lock in order to make an instance once
the resource is stopped, so that an empty place with the lock free stays so
for ever (`Closed`).
-/

namespace Inferences.Custody

/-- Instances are numbered in the order they are made. `hand` is none while the
    lock is free, else what its holder has in hand. -/
@[ext]
structure State where
  stopped : Bool
  hand : Option (Option Nat)
  place : Option Nat
  made : Nat
  live : List Nat

namespace State

/-- Dropping what is there, if anything. -/
def drop (s : State) : Option Nat → State
  | none => s
  | some n => { s with live := s.live.filter (· ≠ n) }

/-- The instance in custody: in the hand of the holder, or in the place. -/
def keeper (s : State) : Option Nat := s.hand.getD s.place

end State

/-- What can happen to a resource. -/
inductive Step (s : State) : State → Prop
  | stop : Step s { s with stopped := true }
  | expire (n : Nat) : Step s (s.drop (some n))
  | take (hfree : s.hand = none) (hplace : s.place = none) (hstop : s.stopped = false) :
      Step s { s with hand := some none }
  | make (hhand : s.hand = some none) (hstop : s.stopped = false) :
      Step s { s with hand := some (some s.made), made := s.made + 1, live := s.live ++ [s.made] }
  | put (n : Nat) (hhand : s.hand = some (some n)) : Step s { s with hand := none, place := some n }
  | drop (n : Option Nat) (hhand : s.hand = some n) : Step s { s.drop n with hand := some none }
  | release (n : Option Nat) (hhand : s.hand = some n) : Step s { s.drop n with hand := none }
  | clear (hfree : s.hand = none) : Step s { s.drop s.place with place := none }
  | withdraw (n : Nat) (hfree : s.hand = none) (hplace : s.place = some n) :
      Step s { s with hand := some (some n), place := none }

/-- Several steps. -/
abbrev Steps : State → State → Prop := Relation.ReflTransGen Step

/-- At most one instance lives, in custody; and it is the last one made. -/
structure Owned (s : State) : Prop where
  exclusive : s.hand ≠ none → s.place = none
  latest : ∀ n, s.keeper = some n → n + 1 = s.made
  live : s.live.Sublist s.keeper.toList

/-- Nothing lives, nothing is in custody, and nothing will be made. -/
structure Closed (s : State) : Prop where
  stopped : s.stopped = true
  free : s.hand = none
  empty : s.place = none
  dead : s.live = []

variable {s s' : State}

/-- At most one thing is live. -/
theorem Owned.length_le (h : Owned s) : s.live.length ≤ 1 := by
  refine Nat.le_trans h.live.length_le ?_
  cases s.keeper <;> simp

/-- With the hand and the place empty after the stop, all is closed. -/
theorem Owned.closed (h : Owned s) (hstopped : s.stopped = true) (hfree : s.hand = none)
    (hempty : s.place = none) : Closed s :=
  ⟨hstopped, hfree, hempty, by simpa [State.keeper, hfree, hempty] using h.live⟩

/-- Nothing of the instance in custody is left when it is dropped. -/
theorem Owned.drop_keeper (h : Owned s) : (s.drop s.keeper).live = [] := by
  have hlive := h.live
  cases hk : s.keeper with
  | none => simpa [hk, State.drop] using hlive
  | some n =>
    refine List.filter_eq_nil_iff.2 fun m hm => ?_
    simpa [hk] using hlive.subset hm

/-- Dropping changes who lives, and nothing else. -/
theorem drop_frame (s : State) (n : Option Nat) : (s.drop n).stopped = s.stopped ∧
    (s.drop n).hand = s.hand ∧ (s.drop n).place = s.place ∧ (s.drop n).made = s.made := by
  cases n <;> exact ⟨rfl, rfl, rfl, rfl⟩

/-- A step keeps custody. -/
theorem owned_step (h : Owned s) (hstep : Step s s') : Owned s' := by
  cases hstep with
  | stop => exact ⟨h.exclusive, h.latest, h.live⟩
  | expire n => exact ⟨h.exclusive, h.latest, List.filter_sublist.trans h.live⟩
  | take hfree hplace =>
    have hlive : s.live = [] := by simpa [State.keeper, hfree, hplace] using h.live
    exact ⟨fun _ => hplace, by simp [State.keeper], by simp [hlive]⟩
  | make hhand =>
    have hlive : s.live = [] := by simpa [State.keeper, hhand] using h.live
    exact ⟨fun _ => h.exclusive (by simp [hhand]), by simp [State.keeper],
      by simp [State.keeper, hlive]⟩
  -- The keeper goes from the hand to the place, and back.
  | put n hhand =>
    refine ⟨by simp, ?_, ?_⟩
    · simpa [State.keeper, hhand] using h.latest
    · simpa [State.keeper, hhand] using h.live
  -- The keeper is dropped: nothing is live.
  | drop n hhand =>
    have hdrop := h.drop_keeper
    simp only [State.keeper, hhand, Option.getD_some] at hdrop
    have hplace : s.place = none := h.exclusive (by simp [hhand])
    exact ⟨fun _ => (drop_frame s n).2.2.1.trans hplace, by simp [State.keeper], by simp [hdrop]⟩
  | release n hhand =>
    have hplace : s.place = none := h.exclusive (by simp [hhand])
    have hdrop := h.drop_keeper
    simp only [State.keeper, hhand, Option.getD_some] at hdrop
    refine ⟨by simp, ?_, by simp [hdrop]⟩
    simp [State.keeper, drop_frame, hplace]
  | clear hfree =>
    have hdrop := h.drop_keeper
    simp only [State.keeper, hfree, Option.getD_none] at hdrop
    refine ⟨by simp, ?_, by simp [hdrop]⟩
    simp [State.keeper, drop_frame, hfree]
  | withdraw n hfree hplace =>
    refine ⟨by simp, ?_, ?_⟩
    · simpa [State.keeper, hfree, hplace] using h.latest
    · simpa [State.keeper, hfree, hplace] using h.live

/-- Once closed, nothing more is made. -/
theorem closed_step (h : Closed s) (hstep : Step s s') : Closed s' ∧ s'.made = s.made := by
  obtain ⟨hstopped, hfree, hempty, hdead⟩ := h
  cases hstep with
  | stop => exact ⟨⟨rfl, hfree, hempty, hdead⟩, rfl⟩
  | expire n => exact ⟨⟨hstopped, hfree, hempty, by simp [State.drop, hdead]⟩, rfl⟩
  | clear =>
    rw [hempty]
    exact ⟨⟨hstopped, hfree, rfl, hdead⟩, rfl⟩
  | _ => simp_all

theorem stopped_steps (h : s.stopped = true) (hsteps : Steps s s') : s'.stopped = true := by
  induction hsteps with
  | refl => exact h
  | tail _ hstep ih => cases hstep <;> simp [drop_frame, ih]

/-- Any steps keep custody. -/
theorem owned_steps (h : Owned s) (hsteps : Steps s s') : Owned s' := by
  induction hsteps with
  | refl => exact h
  | tail _ hstep ih => exact owned_step ih hstep

theorem closed_steps (h : Closed s) (hsteps : Steps s s') : Closed s' ∧ s'.made = s.made := by
  induction hsteps with
  | refl => exact ⟨h, rfl⟩
  | tail _ hstep ih =>
    obtain ⟨hclosed, hmade⟩ := closed_step ih.1 hstep
    exact ⟨hclosed, hmade.trans ih.2⟩

end Inferences.Custody
