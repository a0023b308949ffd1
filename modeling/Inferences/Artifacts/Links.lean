import Inferences.Orbit
import Inferences.Artifacts.Archive

/-!
# The links of an archive

What a link of an archive leads to, read off the targets alone: one step goes
from a link to the lexical join of its directory and its target (`Step`), or
leaves the destination (`Escapes`). `resolve_link_source` follows the steps to
their end, whatever their number (`resolve_link_source_exact`): a chain that is
longer than the links are many comes back to one of them.
-/

namespace Inferences.Artifacts

open Relation

/-- The join of a directory and a relative path leads to `path`. -/
inductive Joins : Path → List Component → Path → Prop
  | done (path : Path) : Joins path [] path
  | down {directory path : Path} {name : String} {target : List Component}
      (h : Joins (directory ++ [name]) target path) :
      Joins directory (.Normal name :: target) path
  | stay {directory path : Path} {target : List Component} (h : Joins directory target path) :
      Joins directory (.CurDir :: target) path
  | up {directory path : Path} (name : String) {target : List Component}
      (h : Joins directory target path) :
      Joins (directory ++ [name]) (.ParentDir :: target) path

/-- The join of a directory and a relative path climbs above the root, or starts
    from the root of the system. -/
inductive Leaves : Path → List Component → Prop
  | root (directory : Path) (target : List Component) : Leaves directory (.RootDir :: target)
  | above (target : List Component) : Leaves [] (.ParentDir :: target)
  | down {directory : Path} {name : String} {target : List Component}
      (h : Leaves (directory ++ [name]) target) : Leaves directory (.Normal name :: target)
  | stay {directory : Path} {target : List Component} (h : Leaves directory target) :
      Leaves directory (.CurDir :: target)
  | up {directory : Path} (name : String) {target : List Component}
      (h : Leaves directory target) : Leaves (directory ++ [name]) (.ParentDir :: target)

/-- One step from a link. -/
def Step (links : Links) (link path : Path) : Prop :=
  ∃ target, links.lookup link = some target ∧ is_absolute target = false ∧
    Joins link.dropLast target path ∧ path ≠ []

/-- The step from a link escapes. -/
def Escapes (links : Links) (link : Path) : Prop :=
  ∃ target, links.lookup link = some target ∧
    (is_absolute target = true ∨ Leaves link.dropLast target ∨ Joins link.dropLast target [])

/-! ## One step -/

theorem foldlM_push_iff {target : List Component} {directory path : Path} :
    target.foldlM push_component directory = some path ↔ Joins directory target path := by
  constructor
  · intro h
    induction target generalizing directory with
    | nil =>
      cases h
      exact .done _
    | cons component target ih =>
      obtain ⟨next, hpush, hrest⟩ := Option.bind_eq_some_iff.1 h
      cases component with
      | RootDir => cases hpush
      | CurDir =>
        cases hpush
        exact .stay (ih hrest)
      | Normal name =>
        cases hpush
        exact .down (ih hrest)
      | ParentDir =>
        -- one level up, unless there is none
        rcases List.eq_nil_or_concat directory with rfl | ⟨above, name, rfl⟩
        · cases hpush
        · simp only [push_component, List.concat_eq_append, List.append_eq_nil_iff, reduceCtorEq,
            and_false, if_false, List.dropLast_concat, Option.some.injEq] at hpush
          rw [List.concat_eq_append]
          exact .up name (ih (hpush ▸ hrest))
  · intro h
    induction h with
    | done => rfl
    | down _ ih => exact ih
    | stay _ ih => exact ih
    | @up above path name target _ ih =>
      rw [List.foldlM_cons, push_component, if_neg (by simp), List.dropLast_concat]
      exact ih

theorem foldlM_push_none_iff {target : List Component} {directory : Path} :
    target.foldlM push_component directory = none ↔ Leaves directory target := by
  constructor
  · intro h
    induction target generalizing directory with
    | nil => cases h
    | cons component target ih =>
      cases component with
      | RootDir => exact .root ..
      | CurDir => exact .stay (ih h)
      | Normal name => exact .down (ih h)
      | ParentDir =>
        rcases List.eq_nil_or_concat directory with rfl | ⟨above, name, rfl⟩
        · exact .above _
        · rw [List.concat_eq_append] at h ⊢
          rw [List.foldlM_cons, push_component, if_neg (by simp), List.dropLast_concat] at h
          exact .up name (ih h)
  · intro h
    induction h with
    | root => rfl
    | above => rfl
    | down _ ih => exact ih
    | stay _ ih => exact ih
    | @up above name target _ ih =>
      rw [List.foldlM_cons, push_component, if_neg (by simp), List.dropLast_concat]
      exact ih

/-- The path one step away. -/
def next_path (links : Links) (link : Path) : Option Path :=
  (links.lookup link).bind (normalize_join link.dropLast)

theorem next_path_eq_some {links : Links} {link path : Path} :
    next_path links link = some path ↔ Step links link path := by
  unfold next_path Step
  cases links.lookup link with
  | none => simp
  | some target =>
    simp only [Option.bind_some, Option.some.injEq, exists_eq_left', normalize_join]
    rw [← foldlM_push_iff]
    cases is_absolute target with
    | true => simp
    | false =>
      rcases target.foldlM push_component link.dropLast with _ | _ | ⟨name, path'⟩
      · simp
      · simp only [Bool.false_eq_true, if_false, reduceCtorEq, Option.some.injEq, true_and,
          false_iff, not_and, not_not]
        exact fun h => h.symm
      · simp only [Bool.false_eq_true, if_false, Option.some.injEq, true_and, iff_self_and]
        rintro rfl
        exact List.cons_ne_nil _ _

theorem escapes_iff {links : Links} {link : Path} :
    Escapes links link ↔ link ∈ links ∧ next_path links link = none := by
  unfold next_path Escapes
  rw [← Finmap.lookup_isSome]
  cases links.lookup link with
  | none => simp
  | some target =>
    simp only [Option.bind_some, Option.some.injEq, exists_eq_left', normalize_join,
      Option.isSome_some, true_and]
    rw [← foldlM_push_none_iff, ← foldlM_push_iff]
    cases is_absolute target with
    | true => simp
    | false =>
      rcases target.foldlM push_component link.dropLast with _ | _ | ⟨name, path'⟩ <;> simp

/-! ## The loop -/

theorem resolve_link_succ (links : Links) (turns : ℕ) (link : Path) :
    resolve_link links (turns + 1) link =
      if link ∈ links then
        (next_path links link).elim (.error (.Archive "tar link escapes destination"))
          (resolve_link links turns)
      else .ok link := by
  rw [resolve_link, next_path]
  by_cases hlink : link ∈ links
  · obtain ⟨target, htarget⟩ := Finmap.mem_iff.1 hlink
    rw [if_pos hlink, htarget]
    dsimp only [Option.bind_some]
    cases normalize_join link.dropLast target <;> rfl
  · rw [if_neg hlink, Finmap.lookup_eq_none.2 hlink]

theorem next_path_of_notMem {links : Links} {link : Path} (h : link ∉ links) :
    next_path links link = none := by
  rw [next_path, Finmap.lookup_eq_none.2 h, Option.bind_none]

theorem mem_keys_of_next (links : Links) (link : Path) (h : (next_path links link).isSome) :
    link ∈ links.keys := by
  by_contra hnot
  rw [next_path_of_notMem (mt Finmap.mem_keys.2 hnot)] at h
  cases h

/-- The paths that `turns` turns of the loop come to. -/
def Within (links : Links) (turns : ℕ) (link path : Path) : Prop :=
  ∃ n < turns, orbit (next_path links) n link = some path

theorem within_succ {links : Links} {turns : ℕ} {link path : Path} :
    Within links (turns + 1) link path ↔
      path = link ∨ ∃ next, next_path links link = some next ∧ Within links turns next path := by
  constructor
  · rintro ⟨_ | n, hlt, hn⟩
    · exact .inl (Option.some.inj hn).symm
    · obtain ⟨next, hnext, hn⟩ := Option.bind_eq_some_iff.1 hn
      exact .inr ⟨next, hnext, n, Nat.lt_of_succ_lt_succ hlt, hn⟩
  · rintro (rfl | ⟨next, hnext, n, hlt, hn⟩)
    · exact ⟨0, Nat.succ_pos _, rfl⟩
    · exact ⟨n + 1, Nat.succ_lt_succ hlt, by rw [orbit, hnext, Option.bind_some, hn]⟩

theorem resolve_link_ok_iff {links : Links} {turns : ℕ} {link path : Path} :
    resolve_link links turns link = .ok path ↔ Within links turns link path ∧ path ∉ links := by
  induction turns generalizing link with
  | zero => simp [resolve_link, Within]
  | succ turns ih =>
    rw [resolve_link_succ, within_succ]
    by_cases hlink : link ∈ links
    · rw [if_pos hlink]
      -- a link is never the answer itself
      have hne : path ∉ links → path ≠ link := fun hpath heq => hpath (heq ▸ hlink)
      cases hnext : next_path links link with
      | none =>
        simp only [Option.elim_none, reduceCtorEq, false_and, exists_false, or_false, false_iff,
          not_and]
        rintro rfl
        exact not_not_intro hlink
      | some next =>
        simp only [Option.elim_some, ih, Option.some.injEq, exists_eq_left']
        exact ⟨fun h => ⟨.inr h.1, h.2⟩, fun h => ⟨h.1.resolve_left (hne h.2), h.2⟩⟩
    · rw [if_neg hlink, next_path_of_notMem hlink]
      simp only [Except.ok.injEq, reduceCtorEq, false_and, exists_false, or_false]
      constructor
      · rintro rfl
        exact ⟨rfl, hlink⟩
      · exact fun h => h.1.symm

theorem resolve_link_escape_iff {links : Links} {turns : ℕ} {link : Path} :
    resolve_link links turns link = .error (.Archive "tar link escapes destination") ↔
      ∃ path, Within links turns link path ∧ Escapes links path := by
  simp only [escapes_iff]
  induction turns generalizing link with
  | zero => simp [resolve_link, Within]
  | succ turns ih =>
    rw [resolve_link_succ]
    by_cases hlink : link ∈ links
    · rw [if_pos hlink]
      cases hnext : next_path links link with
      | none =>
        refine ⟨fun _ => ⟨link, within_succ.2 (.inl rfl), hlink, hnext⟩, fun _ => rfl⟩
      | some next =>
        rw [Option.elim_some, ih]
        constructor
        · rintro ⟨path, hpath, hescapes⟩
          exact ⟨path, within_succ.2 (.inr ⟨next, hnext, hpath⟩), hescapes⟩
        · rintro ⟨path, hpath, hmem, hescapes⟩
          rcases within_succ.1 hpath with rfl | ⟨next', hnext', hpath⟩
          · rw [hnext] at hescapes
            cases hescapes
          · -- the step is a function: both are on the same path
            obtain rfl := Option.some.inj (hnext.symm.trans hnext')
            exact ⟨path, hpath, hmem, hescapes⟩
    · rw [if_neg hlink]
      refine ⟨fun h => (by cases h), ?_⟩
      rintro ⟨path, hpath, hmem, -⟩
      rcases within_succ.1 hpath with rfl | ⟨next, hnext, -⟩
      · exact absurd hmem hlink
      · rw [next_path_of_notMem hlink] at hnext
        cases hnext

theorem resolve_link_cycle_iff {links : Links} {turns : ℕ} {link : Path} :
    resolve_link links turns link = .error (.Archive "tar link cycle rejected") ↔
      (orbit (next_path links) turns link).isSome := by
  induction turns generalizing link with
  | zero => simp [resolve_link]
  | succ turns ih =>
    rw [resolve_link_succ, orbit]
    by_cases hlink : link ∈ links
    · rw [if_pos hlink]
      cases next_path links link with
      | none => simp
      | some next => exact ih
    · rw [if_neg hlink, next_path_of_notMem hlink]
      simp

theorem reaches_iff (links : Links) {link path : Path} :
    ReflTransGen (Step links) link path ↔ ∃ n, orbit (next_path links) n link = some path := by
  have hstep : Step links = fun link path => next_path links link = some path :=
    funext fun _ => funext fun _ => propext next_path_eq_some.symm
  rw [hstep, reaches_iff_orbit]

/-- A chain that ends has ended by the last turn of the loop. -/
theorem within_of_stops {links : Links} {link path : Path}
    (h : ReflTransGen (Step links) link path) (hstop : next_path links path = none) :
    Within links (links.keys.card + 1) link path := by
  obtain ⟨n, hn⟩ := (reaches_iff links).1 h
  refine ⟨n, lt_of_not_ge fun hlong => ?_, hn⟩
  -- as long a chain goes on forever
  have hnext := orbit_forever (mem_keys_of_next links) (orbit_le hlong (by rw [hn]; rfl)) (n + 1)
  rw [orbit_succ, hn, Option.bind_some, hstop] at hnext
  cases hnext

theorem reaches_of_within {links : Links} {turns : ℕ} {link path : Path}
    (h : Within links turns link path) : ReflTransGen (Step links) link path := by
  obtain ⟨n, -, hn⟩ := h
  exact (reaches_iff links).2 ⟨n, hn⟩

/-- The steps go on forever when there are as many as turns of the loop. -/
theorem forever_iff {links : Links} {link : Path} :
    (orbit (next_path links) (links.keys.card + 1) link).isSome ↔
      ∃ chain : ℕ → Path, chain 0 = link ∧ ∀ n, Step links (chain n) (chain (n + 1)) := by
  constructor
  · intro h
    choose chain hchain using fun n =>
      Option.isSome_iff_exists.1 (orbit_forever (mem_keys_of_next links) h n)
    refine ⟨chain, (Option.some.inj (hchain 0)).symm, fun n => next_path_eq_some.1 ?_⟩
    rw [← hchain (n + 1), orbit_succ, hchain n, Option.bind_some]
  · rintro ⟨chain, rfl, hchain⟩
    have horbit : ∀ n, orbit (next_path links) n (chain 0) = some (chain n) := by
      intro n
      induction n with
      | zero => rfl
      | succ n ih => rw [orbit_succ, ih, Option.bind_some, next_path_eq_some.2 (hchain n)]
    rw [horbit]
    rfl

/-- What `resolve_link_source` returns for a link: the path outside the map that
    its steps reach, or that one of them escapes, or that they never end. -/
theorem resolve_link_source_exact (links : Links) (link : Path) :
    (∀ path, resolve_link_source link links = .ok path ↔
      ReflTransGen (Step links) link path ∧ path ∉ links) ∧
    (resolve_link_source link links = .error (.Archive "tar link escapes destination") ↔
      ∃ path, ReflTransGen (Step links) link path ∧ Escapes links path) ∧
    (resolve_link_source link links = .error (.Archive "tar link cycle rejected") ↔
      ∃ chain : ℕ → Path, chain 0 = link ∧ ∀ n, Step links (chain n) (chain (n + 1))) := by
  refine ⟨fun path => ?_, ?_, ?_⟩
  · rw [resolve_link_source, resolve_link_ok_iff]
    refine ⟨fun h => ⟨reaches_of_within h.1, h.2⟩, fun h => ⟨?_, h.2⟩⟩
    exact within_of_stops h.1 (next_path_of_notMem h.2)
  · rw [resolve_link_source, resolve_link_escape_iff]
    refine ⟨fun ⟨path, h, he⟩ => ⟨path, reaches_of_within h, he⟩, fun ⟨path, h, he⟩ => ?_⟩
    exact ⟨path, within_of_stops h (escapes_iff.1 he).2, he⟩
  · rw [resolve_link_source, resolve_link_cycle_iff]
    exact forever_iff

end Inferences.Artifacts
