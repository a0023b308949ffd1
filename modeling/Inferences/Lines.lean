import Mathlib

/-!
# Splitting a sequence into lines

A sequence over any alphabet is cut by a *separator* into its complete lines,
each ended by a separator, and the pending line after the last separator
(`complete`, `pending`). A reader that receives the sequence piece by piece
keeps the pending line of what it has read so far:

* `complete_append`, `pending_append`: the lines of a sequence read in two
  pieces are those of the first piece, then those of its pending line followed
  by the second piece. Where the pieces are cut does not matter.
* `complete_line`: one step of a reader that takes the first complete line.
* `split_unlines`: the sequence made of some lines (`unlines`) has these lines.
* `flatten_complete`: nothing is lost, the lines and the pending line make up
  the sequence again.
-/

namespace Inferences.Lines

variable {α : Type*} [DecidableEq α] (sep : α)

/-- Prepending an element that does not end a line: it goes to the first
    complete line, or to the pending line when no line is complete. -/
def extend (a : α) : List (List α) × List α → List (List α) × List α
  | ([], rest) => ([], a :: rest)
  | (line :: lines, rest) => ((a :: line) :: lines, rest)

/-- The complete lines of a sequence, without their separators, and what
    follows the last separator. -/
def split : List α → List (List α) × List α
  | [] => ([], [])
  | a :: l => if a = sep then ([] :: (split l).1, (split l).2) else extend a (split l)

/-- The complete lines of a sequence, without their separators. -/
def complete (l : List α) : List (List α) := (split sep l).1

/-- The pending line of a sequence: what follows its last separator. -/
def pending (l : List α) : List α := (split sep l).2

@[simp] theorem complete_nil : complete sep [] = [] := rfl

@[simp] theorem pending_nil : pending sep [] = [] := rfl

@[simp] theorem complete_sep_cons (l : List α) :
    complete sep (sep :: l) = [] :: complete sep l := by
  simp [complete, split]

@[simp] theorem pending_sep_cons (l : List α) : pending sep (sep :: l) = pending sep l := by
  simp [pending, split]

theorem split_cons_of_ne {a : α} (ha : a ≠ sep) (l : List α) :
    split sep (a :: l) = extend a (split sep l) := by
  simp [split, ha]

variable {sep}

/-- A sequence without separator is all pending. -/
theorem split_of_notMem {l : List α} (hl : sep ∉ l) : split sep l = ([], l) := by
  induction l with
  | nil => rfl
  | cons a l ih =>
    have ha : a ≠ sep := fun h => hl (h ▸ List.mem_cons_self)
    rw [split_cons_of_ne sep ha, ih fun h => hl (List.mem_cons_of_mem _ h), extend]

/-- Without a separator no line is complete. -/
theorem complete_of_notMem {l : List α} (hl : sep ∉ l) : complete sep l = [] := by
  rw [complete, split_of_notMem hl]

theorem pending_of_notMem {l : List α} (hl : sep ∉ l) : pending sep l = l := by
  rw [pending, split_of_notMem hl]

/-- Taking the first line off a sequence. -/
theorem split_line {line : List α} (hline : sep ∉ line) (l : List α) :
    split sep (line ++ sep :: l) = (line :: complete sep l, pending sep l) := by
  induction line with
  | nil => simp [split, complete, pending]
  | cons a line ih =>
    have ha : a ≠ sep := fun h => hline (h ▸ List.mem_cons_self)
    rw [List.cons_append, split_cons_of_ne sep ha, ih fun h => hline (List.mem_cons_of_mem _ h),
      extend]

/-- A line with its separator is the first complete line. -/
theorem complete_line {line : List α} (hline : sep ∉ line) (l : List α) :
    complete sep (line ++ sep :: l) = line :: complete sep l := by
  rw [complete, split_line hline]

theorem pending_line {line : List α} (hline : sep ∉ line) (l : List α) :
    pending sep (line ++ sep :: l) = pending sep l := by
  rw [pending, split_line hline]

/-- A sequence is all pending, or starts with a complete line. -/
theorem notMem_or_line (sep : α) (l : List α) :
    sep ∉ l ∨ ∃ line rest, sep ∉ line ∧ l = line ++ sep :: rest := by
  by_cases hl : sep ∈ l
  · obtain ⟨line, rest, rfl, hline⟩ := List.eq_append_cons_of_mem hl
    exact .inr ⟨line, rest, hline, rfl⟩
  · exact .inl hl

/-- Induction on the lines of a sequence. -/
theorem induction_on_lines {motive : List α → Prop} (sep : α)
    (tail : ∀ l, sep ∉ l → motive l)
    (line : ∀ line rest, sep ∉ line → motive rest → motive (line ++ sep :: rest)) (l : List α) :
    motive l := by
  induction hn : l.length using Nat.strongRecOn generalizing l with
  | ind n ih =>
    rcases notMem_or_line sep l with hl | ⟨first, rest, hfirst, rfl⟩
    · exact tail l hl
    · refine line first rest hfirst (ih rest.length ?_ rest rfl)
      simp only [← hn, List.length_append, List.length_cons]
      omega

/-- Nothing is left to read in a pending line. -/
theorem notMem_pending (sep : α) (l : List α) : sep ∉ pending sep l := by
  induction l using induction_on_lines sep with
  | tail l hl => rwa [pending_of_notMem hl]
  | line line rest hline ih => rwa [pending_line hline]

/-- The lines of a sequence read in two pieces. -/
theorem complete_append (a b : List α) :
    complete sep (a ++ b) = complete sep a ++ complete sep (pending sep a ++ b) := by
  induction a using induction_on_lines sep with
  | tail a ha => rw [complete_of_notMem ha, pending_of_notMem ha, List.nil_append]
  | line line rest hline ih =>
    rw [List.append_assoc, List.cons_append, complete_line hline, complete_line hline,
      pending_line hline, ih, List.cons_append]

/-- What is pending in a sequence read in two pieces. -/
theorem pending_append (a b : List α) :
    pending sep (a ++ b) = pending sep (pending sep a ++ b) := by
  induction a using induction_on_lines sep with
  | tail a ha => rw [pending_of_notMem ha]
  | line line rest hline ih =>
    rw [List.append_assoc, List.cons_append, pending_line hline, pending_line hline, ih]

/-- The lines and the pending line make up the sequence. -/
theorem flatten_complete (sep : α) (l : List α) :
    ((complete sep l).map (· ++ [sep])).flatten ++ pending sep l = l := by
  induction l using induction_on_lines sep with
  | tail l hl => simp [complete_of_notMem hl, pending_of_notMem hl]
  | line line rest hline ih =>
    rw [complete_line hline, pending_line hline, List.map_cons, List.flatten_cons,
      List.append_assoc, ih]
    simp

/-- A sequence ending with a separator has nothing pending. -/
theorem pending_concat_sep (l : List α) : pending sep (l ++ [sep]) = [] := by
  rw [pending_append, pending_line (notMem_pending sep l), pending_nil]

/-- A sequence whose last line is complete, seen through its lines. -/
theorem complete_concat_sep (l : List α) :
    complete sep (l ++ [sep]) = complete sep l ++ [pending sep l] := by
  rw [complete_append, complete_line (notMem_pending sep l), complete_nil]

/-- The sequence made of some lines. -/
def unlines {α : Type*} (sep : α) (lines : List (List α)) : List α :=
  (lines.map (· ++ [sep])).flatten

theorem unlines_append {α : Type*} (sep : α) (a b : List (List α)) :
    unlines sep (a ++ b) = unlines sep a ++ unlines sep b := by
  rw [unlines, List.map_append, List.flatten_append]
  rfl

/-- Lines written one after the other are read back. -/
theorem split_unlines {lines : List (List α)} (h : ∀ line ∈ lines, sep ∉ line) (rest : List α) :
    complete sep (unlines sep lines ++ rest) = lines ++ complete sep rest ∧
      pending sep (unlines sep lines ++ rest) = pending sep rest := by
  induction lines with
  | nil => exact ⟨rfl, rfl⟩
  | cons line lines ih =>
    have hcons : unlines sep (line :: lines) ++ rest =
        line ++ sep :: (unlines sep lines ++ rest) := by
      simp [unlines]
    have hline := h line List.mem_cons_self
    obtain ⟨hcomplete, hpending⟩ := ih fun l hl => h l (List.mem_cons_of_mem _ hl)
    rw [hcons, complete_line hline, pending_line hline, hcomplete, hpending]
    exact ⟨rfl, rfl⟩

end Inferences.Lines
