import Inferences.Artifacts.Promotion

/-!
# What setup leaves alone

A run of setup changes the lock, and the entries `current`, `.staging`,
`.previous` and `.runtime-recovery` where they are the installer's. Whatever
else is in the root stays, at these names too (`Untouched`), also when
operations fail and when the run dies.

A test for existence that fails says that nothing is there. Where something is,
a later rename can replace it: so the promotion is right about `.previous` and
`current` unless such a test fails (`misled`), and not else
(`setup_touches_previous`).
-/

namespace Inferences.Artifacts

open Node Program

variable {α : Type} {host : Host} {fault : Op → Option Node → Prop} {names : List String}
  {name : String} {s s₁ s' : Option Node}

/-- An entry that is not the installer's. -/
def foreign (node : Option Node) : Prop := node ≠ none ∧ ¬ managed node

/-- The directories that the installer manages. -/
def managed_names : List String :=
  [CURRENT_DIRECTORY, STAGING_DIRECTORY, PREVIOUS_DIRECTORY, RUNTIME_RECOVERY_DIRECTORY]

/-- All entries of the root are as they were but for the lock and for the
    entries of the installer. -/
def Untouched (s s' : Option Node) : Prop :=
  ∀ name, name ≠ "install.lock" → (name ∈ managed_names → foreign (find [name] s)) →
    find [name] s' = find [name] s

/-- Nothing happened. -/
theorem Untouched.refl (s : Option Node) : Untouched s s := fun _ _ _ => rfl

/-- What is untouched twice is untouched. -/
theorem Untouched.trans {s₂ : Option Node} (h : Untouched s s₁) (h' : Untouched s₁ s₂) :
    Untouched s s₂ := by
  intro name hlock hforeign
  have hsame := h name hlock hforeign
  rw [← hsame]
  exact h' name hlock fun hname => hsame ▸ hforeign hname

/-- Only the entries named, and what is below them, have changed. -/
def Same (names : List String) (s s' : Option Node) : Prop :=
  ∀ name, name ∉ names → find [name] s' = find [name] s

theorem Same.trans {s₂ : Option Node} (h : Same names s s₁) (h' : Same names s₁ s₂) :
    Same names s s₂ := fun name hname => (h' name hname).trans (h name hname)

/-- Changes of the installer's own entries. -/
theorem Same.untouched (h : Same names s s') (hnames : ∀ name ∈ names, name = "install.lock" ∨
    name ∈ managed_names ∧ ¬ foreign (find [name] s)) : Untouched s s' := by
  intro name hlock hforeign
  refine h name fun hname => ?_
  rcases hnames name hname with rfl | ⟨hmanaged, hnot⟩
  · exact hlock rfl
  · exact hnot (hforeign hmanaged)

theorem not_foreign_of_none {node : Option Node} (h : node = none) : ¬ foreign node :=
  fun hf => hf.1 h

theorem not_foreign_of_managed {node : Option Node} (h : managed node) : ¬ foreign node :=
  fun hf => hf.2 h

/-! ## Operations -/

theorem same_alter {parents : Bool} {act : Option Node → Option (Option Node)} {path : Path}
    (hpath : ∃ name ∈ names, ∃ below, path = name :: below)
    (h : alter parents act path s = some s') : Same names s s' := by
  obtain ⟨name, hname, below, rfl⟩ := hpath
  exact fun other hother => find_alter_ne (fun heq : other = name => hother (heq ▸ hname)) h

theorem same_rename {source target : Path}
    (hop : (Op.rename source target).only names) (h : rename_node source target s = some s') :
    Same names s s' := by
  rw [rename_node] at h
  split at h
  · cases h
    exact fun _ _ => rfl
  · obtain ⟨node, -, h⟩ := Option.bind_eq_some_iff.1 h
    split at h
    · obtain ⟨s₁, hremove, hplace⟩ := Option.bind_eq_some_iff.1 h
      exact (same_alter hop.1 hremove).trans (same_alter hop.2 hplace)
    · cases h

/-- An operation below the names is nothing to the others. -/
theorem same_exec {op : Op} (hop : op.only names) :
    Same names s ((machine host).exec op s).2 := by
  cases op with
  | change c path =>
    change Same names s (done s (c.apply path s)).2
    cases happly : c.apply path s with
    | none => exact fun _ _ => rfl
    | some s' => exact same_alter hop happly
  | rename source target =>
    change Same names s (done s (rename_node source target s)).2
    cases hrename : rename_node source target s with
    | none => exact fun _ _ => rfl
    | some s' => exact same_rename hop hrename
  | _ => exact fun _ _ => rfl

/-- Making the root, where there is none. -/
theorem same_create_root (h : Change.create_dir_all.apply [] s = some s') : Same names s s' := by
  cases s with
  | none =>
    cases h
    exact fun _ _ => rfl
  | some node =>
    obtain rfl : s' = some node := create_dir_all_again h
    exact fun _ _ => rfl

/-- Nor is what it did before it failed. -/
theorem same_torn {op : Op} {torn : Option Node} (hop : op.only names)
    (ht : (machine host).torn op s torn) : Same names s torn := by
  rcases ht with rfl | ht
  · exact fun _ _ => rfl
  cases op with
  | change c path =>
    cases c with
    | append bytes =>
      obtain ⟨part, -, happly⟩ := ht
      exact same_alter hop happly
    | remove_dir_all =>
      obtain ⟨_, _, -, -, halter⟩ := ht
      exact same_alter hop halter
    | create_dir_all =>
      obtain ⟨path', hstart, happly⟩ := ht
      obtain ⟨name, hname, below, rfl⟩ := hop
      cases path' with
      | nil => exact same_create_root happly
      | cons first path' =>
        obtain rfl := (List.cons_prefix_cons.1 hstart).1
        exact same_alter ⟨first, hname, path', rfl⟩ happly
    | _ => exact ht.elim
  | _ => exact ht.elim

/-- A run of a program of such operations. -/
theorem same_of_calls {p : Io α} (hp : p.Calls (Op.only names))
    {result : Option (Except ArtifactError α)}
    (h : Faulty (machine host) fault p s result s') : Same names s s' :=
  h.invariant (I := Same names s) (fun _ _ hop hs => hs.trans (same_exec hop))
    (fun _ _ _ hop ht hs => hs.trans (same_torn hop ht)) hp fun _ _ => rfl

/-! ## What a run tells -/

/-- An inspection that succeeds in spite of faults is right. -/
theorem Inspects.of_faulty {f : Path → Io α} (hf : Inspects host f) {directory : Path}
    {result : Option (Except ArtifactError α)}
    (h : Faulty (machine host) fault (f directory) s result s') :
    s' = s ∧ ∀ a, result = some (.ok a) →
      (run (machine host) (f []) (find directory s)).1 = .ok a := by
  obtain ⟨hs, hok⟩ := h.of_strict (fun _ s h => exec_looks h.looks s)
    (fun _ _ _ h ht => torn_looks h.looks ht) (hf.strict directory)
  refine ⟨hs, fun a ha => ?_⟩
  have hrun := hok a ha
  rw [hf.relative] at hrun
  exact congrArg Prod.fst hrun

/-- A check of the marker that succeeds in spite of faults is right. -/
theorem managed_of_assert {directory : Path} {result : Option (Except ArtifactError Unit)}
    (h : Faulty (machine host) fault (assert_managed_directory directory) s result s') :
    s' = s ∧ (result = some (.ok ()) → managed (find directory s)) := by
  obtain ⟨hs, hok⟩ := inspects_assert_managed_directory.of_faulty h
  exact ⟨hs, fun hr => (assert_managed_iff host _).1 (hok () hr)⟩

/-- A test for existence that says no, wrongly or not. -/
theorem absent_of_path_exists {path : Path} {result : Option (Except ArtifactError Bool)}
    (h : Faulty (machine host) fault (path_exists path) s result s') :
    s' = s ∧ (result = some (.ok true) → ((find path s).bind follow).isSome = true) ∧
      (result = some (.ok false) →
        (find path s).bind follow = none ∨ fault (.query .path_exists path) s) := by
  have hread {torn : Option Node} (ht : (machine host).torn (.query .path_exists path) s torn) :
      torn = s := ht.resolve_right id
  cases h with
  | die ht => exact ⟨hread ht, nofun, nofun⟩
  | step h =>
    cases h
    refine ⟨rfl, fun hr => ?_, fun hr => .inl ?_⟩
    · exact Except.ok.inj (Option.some.inj hr)
    · exact Option.isNone_iff_eq_none.1
        (Option.isSome_eq_false_iff.1 (Except.ok.inj (Option.some.inj hr)))
  | fail hfault ht h =>
    cases h
    exact ⟨hread ht, nofun, fun _ => .inr hfault⟩

/-- A change that succeeds was possible, and one that does not changes nothing. -/
theorem faulty_done {result : Option (Except ArtifactError Unit)} (o : Option (Option Node))
    (h : Faulty (machine host) fault (fs (done s o).1) (done s o).2 result s') :
    (result = some (.ok ()) ∧ o = some s') ∨ (result ≠ some (.ok ()) ∧ s' = s) := by
  cases o with
  | none =>
    cases h
    exact .inr ⟨nofun, rfl⟩
  | some s₁ =>
    cases h
    exact .inl ⟨rfl, rfl⟩

/-- A rename is made when it succeeds, and only then. -/
theorem faulty_rename {source target : Path} {result : Option (Except ArtifactError Unit)}
    (h : Faulty (machine host) fault (rename source target) s result s') :
    (result = some (.ok ()) ∧ rename_node source target s = some s') ∨
      (result ≠ some (.ok ()) ∧ s' = s) := by
  have hread {torn : Option Node} (ht : (machine host).torn (.rename source target) s torn) :
      torn = s := ht.resolve_right id
  cases h with
  | die ht => exact .inr ⟨nofun, hread ht⟩
  | step h => exact faulty_done _ h
  | fail hfault ht h =>
    cases h
    exact .inr ⟨nofun, hread ht⟩

/-- A new directory takes the place of nothing. -/
theorem faulty_create_dir {path : Path} {result : Option (Except ArtifactError Unit)}
    (h : Faulty (machine host) fault (change .create_dir path) s result s') :
    (result = some (.ok ()) ∧ find path s = none) ∨ (result ≠ some (.ok ()) ∧ s' = s) := by
  have hread {torn : Option Node} (ht : (machine host).torn (.change .create_dir path) s torn) :
      torn = s := ht.resolve_right id
  cases h with
  | die ht => exact .inr ⟨nofun, hread ht⟩
  | step h =>
    rcases faulty_done _ h with ⟨hok, happly⟩ | hnot
    · refine .inl ⟨hok, ?_⟩
      have hact : Change.create_dir.act (find path s) = some (find path s') :=
        find_alter_self happly
      cases hfind : find path s with
      | none => rfl
      | some node =>
        rw [hfind] at hact
        cases hact
    · exact .inr hnot
  | fail hfault ht h =>
    cases h
    exact .inr ⟨nofun, hread ht⟩

/-- Where a removal succeeded there is nothing. -/
theorem none_of_remove {path : Path} {result : Option (Except ArtifactError Unit)}
    (h : Faulty (machine host) fault (change .remove_dir_all path) s result s')
    (hok : result = some (.ok ())) : find path s' = none := by
  subst hok
  cases h with
  | step h =>
    rcases faulty_done _ h with ⟨-, happly⟩ | ⟨hnot, -⟩
    · have hact : Change.remove_dir_all.act (find path s) = some (find path s') :=
        find_alter_self happly
      revert hact
      cases find path s with
      | none => exact nofun
      | some node =>
        cases node with
        | file | other => exact nofun
        | _ => exact fun hact => (Option.some.inj hact).symm
    · exact absurd rfl hnot
  | fail _ _ h => cases h

/-- Clearing a name: the run stops at what is not the installer's, unless the
    test for existence says that nothing is there. -/
theorem faulty_remove_managed {result : Option (Except ArtifactError Unit)}
    (h : Faulty (machine host) fault (remove_managed_directory_if_present [name]) s result s') :
    (s' = s ∧ (result = some (.ok ()) → (find [name] s).bind follow = none ∨
        fault (.query .path_exists [name]) s)) ∨
      (managed (find [name] s) ∧ Same [name] s s' ∧
        (result = some (.ok ()) → find [name] s' = none)) := by
  unfold remove_managed_directory_if_present at h
  rcases h.of_bind with ⟨rfl, hp⟩ | ⟨e, rfl, hp⟩ | ⟨present, s₁, hp, hrest⟩
  · exact .inl ⟨(absent_of_path_exists hp).1, nofun⟩
  · exact .inl ⟨(absent_of_path_exists hp).1, nofun⟩
  obtain ⟨rfl, -, habsent⟩ := absent_of_path_exists hp
  cases present with
  | false =>
    cases hrest
    exact .inl ⟨rfl, fun _ => habsent rfl⟩
  | true =>
    rw [if_pos rfl] at hrest
    rcases hrest.of_bind with ⟨rfl, hp⟩ | ⟨e, rfl, hp⟩ | ⟨a, s₂, hp, hremove⟩
    · exact .inl ⟨(managed_of_assert hp).1, nofun⟩
    · exact .inl ⟨(managed_of_assert hp).1, nofun⟩
    · obtain ⟨rfl, hmanaged⟩ := managed_of_assert hp
      exact .inr ⟨hmanaged rfl, same_of_calls (only_change (List.mem_singleton_self name)) hremove,
        none_of_remove hremove⟩

/-! ## The promotion -/

/-- The failure of this test for existence misleads the promotion: it says that
    nothing is where a rename between `.previous` and `current` can replace or
    move what is not the installer's. -/
def misled (op : Op) (s : Option Node) : Prop :=
  op = .query .path_exists [PREVIOUS_DIRECTORY] ∧ foreign (find [PREVIOUS_DIRECTORY] s) ∧
      (managed (find [CURRENT_DIRECTORY] s) ∧ find [PREVIOUS_DIRECTORY] s = some (.dir []) ∨
        ∃ node, find [PREVIOUS_DIRECTORY] s = some node ∧
          replaces node (find [CURRENT_DIRECTORY] s) = true) ∨
    op = .query .path_exists [CURRENT_DIRECTORY] ∧ find [CURRENT_DIRECTORY] s = some (.dir [])

/-- The faults that do not mislead. -/
def guided (op : Op) (s : Option Node) : Prop := ¬ misled op s

/-- A rename that is made can replace its target. -/
theorem replaces_of_rename {source target : String} (hne : source ≠ target)
    (h : rename_node [source] [target] s = some s') :
    ∃ node, find [source] s = some node ∧ replaces node (find [target] s) = true := by
  rw [rename_node, if_neg (by simpa using hne)] at h
  obtain ⟨node, hnode, h⟩ := Option.bind_eq_some_iff.1 h
  split at h
  · exact ⟨node, hnode, ‹_›⟩
  · cases h

/-- A directory takes the place of nothing, or of an empty directory. -/
theorem of_replaces_dir {entries : List (String × Node)} {target : Option Node}
    (h : replaces (.dir entries) target = true) : target = none ∨ target = some (.dir []) := by
  unfold replaces at h
  split at h
  · exact .inl rfl
  · exact .inr rfl
  · cases h
  · simp [file_type] at h

/-- Setting `current` aside moves it, or changes nothing. -/
theorem of_set_aside {result : Option (Except ArtifactError Unit)}
    (h : Faulty (machine host) fault (set_aside [CURRENT_DIRECTORY] [PREVIOUS_DIRECTORY]) s result
      s') : (s' = s ∧ (result = some (.ok ()) → (find [CURRENT_DIRECTORY] s).bind follow = none ∨
        fault (.query .path_exists [CURRENT_DIRECTORY]) s)) ∨
      result = some (.ok ()) ∧ managed (find [CURRENT_DIRECTORY] s) ∧
        rename_node [CURRENT_DIRECTORY] [PREVIOUS_DIRECTORY] s = some s' := by
  unfold set_aside at h
  rcases h.of_bind with ⟨rfl, hp⟩ | ⟨e, rfl, hp⟩ | ⟨present, s₁, hp, hrest⟩
  · exact .inl ⟨(absent_of_path_exists hp).1, nofun⟩
  · exact .inl ⟨(absent_of_path_exists hp).1, nofun⟩
  obtain ⟨rfl, -, habsent⟩ := absent_of_path_exists hp
  cases present with
  | false =>
    cases hrest
    exact .inl ⟨rfl, fun _ => habsent rfl⟩
  | true =>
    rw [if_pos rfl] at hrest
    rcases hrest.of_bind with ⟨rfl, hp⟩ | ⟨e, rfl, hp⟩ | ⟨a, s₂, hp, hrename⟩
    · exact .inl ⟨(managed_of_assert hp).1, nofun⟩
    · exact .inl ⟨(managed_of_assert hp).1, nofun⟩
    · obtain ⟨rfl, hmanaged⟩ := managed_of_assert hp
      rcases faulty_rename hrename with ⟨hok, hmoved⟩ | ⟨hnot, rfl⟩
      · exact .inr ⟨hok, hmanaged rfl, hmoved⟩
      · exact .inl ⟨rfl, fun hok => absurd hok hnot⟩

/-- Setting `current` aside, where it cannot be moved. -/
theorem faulty_set_aside {result : Option (Except ArtifactError Unit)}
    (hstuck : managed (find [CURRENT_DIRECTORY] s) →
      rename_node [CURRENT_DIRECTORY] [PREVIOUS_DIRECTORY] s = none)
    (h : Faulty (machine host) fault (set_aside [CURRENT_DIRECTORY] [PREVIOUS_DIRECTORY]) s result
      s') : s' = s ∧ (result = some (.ok ()) → (find [CURRENT_DIRECTORY] s).bind follow = none ∨
        fault (.query .path_exists [CURRENT_DIRECTORY]) s) := by
  rcases of_set_aside h with hsame | ⟨-, hmanaged, hmoved⟩
  · exact hsame
  · rw [hstuck hmanaged] at hmoved
    cases hmoved

/-- Rolling back moves `.previous`, or changes nothing. -/
theorem of_roll_back {result : Option (Except ArtifactError Unit)}
    (h : Faulty (machine host) fault (roll_back [PREVIOUS_DIRECTORY] [CURRENT_DIRECTORY]) s result
      s') : s' = s ∨ ((find [PREVIOUS_DIRECTORY] s).bind follow).isSome = true ∧
        rename_node [PREVIOUS_DIRECTORY] [CURRENT_DIRECTORY] s = some s' := by
  unfold roll_back at h
  rcases h.of_bind with ⟨rfl, hp⟩ | ⟨e, rfl, hp⟩ | ⟨present, s₁, hp, hrest⟩
  · exact .inl (absent_of_path_exists hp).1
  · exact .inl (absent_of_path_exists hp).1
  obtain ⟨rfl, hpresent, -⟩ := absent_of_path_exists hp
  cases present with
  | false =>
    cases hrest
    exact .inl rfl
  | true =>
    rw [if_pos rfl] at hrest
    rcases hrest.of_bind with ⟨rfl, hp⟩ | ⟨e, rfl, hp⟩ | ⟨taken, s₂, hp, hrename⟩
    · exact .inl (absent_of_path_exists hp).1
    · exact .inl (absent_of_path_exists hp).1
    obtain ⟨rfl, -, -⟩ := absent_of_path_exists hp
    cases taken with
    | true =>
      cases hrename
      exact .inl rfl
    | false =>
      -- The result of the rename is ignored, whatever it is.
      have hmove {r : Option (Except ArtifactError Unit)} {s₃ : Option Node}
          (hp : Faulty (machine host) fault
            (rename [PREVIOUS_DIRECTORY] [CURRENT_DIRECTORY]) s₂ r s₃) :
          s₃ = s₂ ∨ ((find [PREVIOUS_DIRECTORY] s₂).bind follow).isSome = true ∧
            rename_node [PREVIOUS_DIRECTORY] [CURRENT_DIRECTORY] s₂ = some s₃ := by
        rcases faulty_rename hp with ⟨-, hmoved⟩ | ⟨-, rfl⟩
        · exact .inr ⟨hpresent rfl, hmoved⟩
        · exact .inl rfl
      change Faulty (machine host) fault (ignore (rename [PREVIOUS_DIRECTORY] [CURRENT_DIRECTORY]))
        s₂ result s' at hrename
      unfold ignore at hrename
      rcases hrename.of_bind with ⟨rfl, hp⟩ | ⟨e, rfl, hp⟩ | ⟨r, s₃, hp, hdone⟩
      · rcases hp.of_attempt with ⟨-, hp⟩ | ⟨r, -, hp⟩ <;> exact hmove hp
      · rcases hp.of_attempt with ⟨-, hp⟩ | ⟨r, -, hp⟩ <;> exact hmove hp
      · cases hdone
        rcases hp.of_attempt with ⟨-, hp⟩ | ⟨r, -, hp⟩ <;> exact hmove hp

/-- Rolling back, where `.previous` cannot be moved. -/
theorem faulty_roll_back {result : Option (Except ArtifactError Unit)}
    (hstuck : ((find [PREVIOUS_DIRECTORY] s).bind follow).isSome = true →
      rename_node [PREVIOUS_DIRECTORY] [CURRENT_DIRECTORY] s = none)
    (h : Faulty (machine host) fault (roll_back [PREVIOUS_DIRECTORY] [CURRENT_DIRECTORY]) s result
      s') : s' = s := by
  rcases of_roll_back h with rfl | ⟨hpresent, hmoved⟩
  · rfl
  · rw [hstuck hpresent] at hmoved
    cases hmoved

/-- A promotion puts nothing in the place of what is not the installer's, and
    moves nothing of it. -/
structure Promotes (s : Option Node) (result : Option (Except ArtifactError Unit))
    (s' : Option Node) : Prop where
  untouched : Untouched s s'
  needs : result = some (.ok ()) → ¬ foreign (find [CURRENT_DIRECTORY] s) ∧
    (foreign (find [PREVIOUS_DIRECTORY] s) → find [CURRENT_DIRECTORY] s = none)

/-- What stands at `.previous` is not the installer's, and its test for existence
    has said that nothing is there: no rename can replace or move it. -/
structure Overlooked (s : Option Node) : Prop where
  aside : managed (find [CURRENT_DIRECTORY] s) →
    rename_node [CURRENT_DIRECTORY] [PREVIOUS_DIRECTORY] s = none
  back : ((find [PREVIOUS_DIRECTORY] s).bind follow).isSome = true →
    rename_node [PREVIOUS_DIRECTORY] [CURRENT_DIRECTORY] s = none

theorem overlooked_of_absent (hforeign : foreign (find [PREVIOUS_DIRECTORY] s))
    (h : (find [PREVIOUS_DIRECTORY] s).bind follow = none ∨
      guided (.query .path_exists [PREVIOUS_DIRECTORY]) s) : Overlooked s := by
  constructor
  · intro hmanaged
    by_contra hrename
    obtain ⟨s', hs'⟩ := Option.ne_none_iff_exists'.1 hrename
    obtain ⟨node, hnode, hreplaces⟩ := replaces_of_rename (by decide) hs'
    obtain ⟨entries, hentries, hmarker⟩ := hmanaged
    obtain rfl := Option.some.inj (hnode.symm.trans hentries)
    have hempty := (of_replaces_dir hreplaces).resolve_left hforeign.1
    rcases h with h | h
    · rw [hempty] at h
      cases h
    · exact h (.inl ⟨rfl, hforeign, .inl ⟨⟨entries, hentries, hmarker⟩, hempty⟩⟩)
  · intro hpresent
    by_contra hrename
    obtain ⟨s', hs'⟩ := Option.ne_none_iff_exists'.1 hrename
    obtain ⟨node, hnode, hreplaces⟩ := replaces_of_rename (by decide) hs'
    rcases h with h | h
    · rw [h] at hpresent
      cases hpresent
    · exact h (.inl ⟨rfl, hforeign, .inr ⟨node, hnode, hreplaces⟩⟩)

/-- The staging directory takes the place of `current`, or the way back is taken. -/
theorem of_take_place {result : Option (Except ArtifactError Unit)}
    (h : Faulty (machine host) fault
      (take_place [STAGING_DIRECTORY] [CURRENT_DIRECTORY] [PREVIOUS_DIRECTORY]) s result s') :
    (result ≠ some (.ok ()) ∧ (s' = s ∨ ∃ r, Faulty (machine host) fault
        (roll_back [PREVIOUS_DIRECTORY] [CURRENT_DIRECTORY]) s r s')) ∨
      ∃ s₁, rename_node [STAGING_DIRECTORY] [CURRENT_DIRECTORY] s = some s₁ ∧
        Faulty (machine host) fault
          (remove_managed_directory_if_present [PREVIOUS_DIRECTORY]) s₁ result s' := by
  unfold take_place at h
  rcases h.of_bind with ⟨rfl, hp⟩ | ⟨e, rfl, hp⟩ | ⟨moved, s₁, hp, hrest⟩
  · rcases hp.of_attempt with ⟨-, hp⟩ | ⟨r, hr, -⟩
    · rcases faulty_rename hp with ⟨hr, -⟩ | ⟨-, rfl⟩
      · cases hr
      · exact .inl ⟨nofun, .inl rfl⟩
    · cases hr
  · rcases hp.of_attempt with ⟨hr, -⟩ | ⟨r, hr, -⟩ <;> cases hr
  rcases hp.of_attempt with ⟨hr, -⟩ | ⟨r, hr, hp⟩
  · cases hr
  cases hr
  rcases faulty_rename hp with ⟨hr, hrename⟩ | ⟨hnot, rfl⟩
  · cases hr
    exact .inr ⟨s₁, hrename, hrest⟩
  · cases moved with
    | ok => exact absurd rfl hnot
    | error e =>
      change Faulty (machine host) fault
        (roll_back [PREVIOUS_DIRECTORY] [CURRENT_DIRECTORY] >>= fun _ => throw e) s₁ result s'
        at hrest
      rcases hrest.of_bind with ⟨rfl, hp⟩ | ⟨e, rfl, hp⟩ | ⟨a, s₂, hp, hthrow⟩
      · exact .inl ⟨nofun, .inr ⟨_, hp⟩⟩
      · exact .inl ⟨nofun, .inr ⟨_, hp⟩⟩
      · cases hthrow
        exact .inl ⟨nofun, .inr ⟨_, hp⟩⟩

/-- Taking the place of `current`, with `.previous` where it stays. -/
theorem faulty_take_place {result : Option (Except ArtifactError Unit)}
    (hstaging : managed (find [STAGING_DIRECTORY] s))
    (hstuck : ((find [PREVIOUS_DIRECTORY] s).bind follow).isSome = true →
      rename_node [PREVIOUS_DIRECTORY] [CURRENT_DIRECTORY] s = none)
    (h : Faulty (machine host) fault
      (take_place [STAGING_DIRECTORY] [CURRENT_DIRECTORY] [PREVIOUS_DIRECTORY]) s result s') :
    (s' = s ∧ result ≠ some (.ok ())) ∨
      (find [CURRENT_DIRECTORY] s = none ∨ find [CURRENT_DIRECTORY] s = some (.dir [])) ∧
        ∃ s₁, Same [STAGING_DIRECTORY, CURRENT_DIRECTORY] s s₁ ∧ Faulty (machine host) fault
          (remove_managed_directory_if_present [PREVIOUS_DIRECTORY]) s₁ result s' := by
  rcases of_take_place h with ⟨hnot, rfl | ⟨r, hback⟩⟩ | ⟨s₁, hrename, hremove⟩
  · exact .inl ⟨rfl, hnot⟩
  · exact .inl ⟨faulty_roll_back hstuck hback, hnot⟩
  · obtain ⟨node, hnode, hreplaces⟩ := replaces_of_rename (by decide) hrename
    obtain ⟨entries, hentries, -⟩ := hstaging
    obtain rfl := Option.some.inj (hnode.symm.trans hentries)
    refine .inr ⟨of_replaces_dir hreplaces, s₁, same_rename ?_ hrename, hremove⟩
    exact ⟨⟨_, .head _, [], rfl⟩, _, .tail _ (.head _), [], rfl⟩

/-- The promotion, when what stands at `.previous` is not the installer's. -/
theorem promotes_of_foreign_previous {result : Option (Except ArtifactError Unit)}
    (hstaging : managed (find [STAGING_DIRECTORY] s))
    (hforeign : foreign (find [PREVIOUS_DIRECTORY] s))
    (h : Faulty (machine host) guided (promote [STAGING_DIRECTORY] [CURRENT_DIRECTORY]) s result
      s') : Promotes s result s' := by
  have hstop (hr : result ≠ some (.ok ())) : Promotes s result s :=
    ⟨.refl s, fun hok => absurd hok hr⟩
  unfold promote at h
  rcases h.of_bind with ⟨rfl, hp⟩ | ⟨e, rfl, hp⟩ | ⟨a, s₁, hp, hrest⟩
  · rcases faulty_remove_managed hp with ⟨rfl, -⟩ | ⟨hmanaged, -, -⟩
    · exact hstop nofun
    · exact absurd hmanaged hforeign.2
  · rcases faulty_remove_managed hp with ⟨rfl, -⟩ | ⟨hmanaged, -, -⟩
    · exact hstop nofun
    · exact absurd hmanaged hforeign.2
  rcases faulty_remove_managed hp with ⟨rfl, habsent⟩ | ⟨hmanaged, -, -⟩
  swap
  · exact absurd hmanaged hforeign.2
  -- `.previous` has been overlooked, and no fault misleads: it cannot be moved or replaced
  have hover := overlooked_of_absent hforeign (habsent rfl)
  rcases hrest.of_bind with ⟨rfl, hp⟩ | ⟨e, rfl, hp⟩ | ⟨a, s₂, hp, htake⟩
  · obtain ⟨rfl, -⟩ := faulty_set_aside hover.aside hp
    exact hstop nofun
  · obtain ⟨rfl, -⟩ := faulty_set_aside hover.aside hp
    exact hstop nofun
  obtain ⟨rfl, hcurrent⟩ := faulty_set_aside hover.aside hp
  rcases faulty_take_place hstaging hover.back htake with ⟨rfl, hr⟩ | ⟨hplace, s₁, hsame, hremove⟩
  · exact hstop hr
  · have hnone : find [CURRENT_DIRECTORY] s₂ = none := by
      refine hplace.resolve_right fun hempty => ?_
      rcases hcurrent rfl with hdead | hguided
      · rw [hempty] at hdead
        cases hdead
      · exact hguided (.inr ⟨rfl, hempty⟩)
    have huntouched : Untouched s₂ s₁ := by
      refine hsame.untouched fun name hname => ?_
      rcases List.mem_cons.1 hname with rfl | hname
      · exact .inr ⟨by decide, not_foreign_of_managed hstaging⟩
      · rw [List.mem_singleton.1 hname]
        exact .inr ⟨by decide, not_foreign_of_none hnone⟩
    have hprevious : find [PREVIOUS_DIRECTORY] s₁ = find [PREVIOUS_DIRECTORY] s₂ :=
      huntouched _ (by decide) fun _ => hforeign
    rcases faulty_remove_managed hremove with ⟨rfl, -⟩ | ⟨hmanaged, -, -⟩
    · exact ⟨huntouched, fun _ => ⟨not_foreign_of_none hnone, fun _ => hnone⟩⟩
    · rw [hprevious] at hmanaged
      exact absurd hmanaged hforeign.2

/-- The promotion, when what stands at `current` is not the installer's. -/
theorem promotes_of_foreign_current {result : Option (Except ArtifactError Unit)}
    (hstaging : managed (find [STAGING_DIRECTORY] s))
    (hprevious : ¬ foreign (find [PREVIOUS_DIRECTORY] s))
    (hforeign : foreign (find [CURRENT_DIRECTORY] s))
    (h : Faulty (machine host) guided (promote [STAGING_DIRECTORY] [CURRENT_DIRECTORY]) s result
      s') : Promotes s result s' := by
  -- `.previous` is the installer's, or free, before and after it is cleared
  have hclear {r : Option (Except ArtifactError Unit)} {s₁ : Option Node}
      (hp : Faulty (machine host) guided
        (remove_managed_directory_if_present [PREVIOUS_DIRECTORY]) s r s₁) :
      Same [PREVIOUS_DIRECTORY] s s₁ ∧ (r = some (.ok ()) →
        find [PREVIOUS_DIRECTORY] s₁ = none ∨ managed (find [PREVIOUS_DIRECTORY] s₁)) := by
    rcases faulty_remove_managed hp with ⟨rfl, -⟩ | ⟨-, hsame, hnone⟩
    · refine ⟨fun _ _ => rfl, fun _ => ?_⟩
      by_contra hnot
      exact hprevious ⟨fun h => hnot (.inl h), fun h => hnot (.inr h)⟩
    · exact ⟨hsame, fun hok => .inl (hnone hok)⟩
  have hstop {r : Option (Except ArtifactError Unit)} {s₁ : Option Node}
      (hsame : Same [PREVIOUS_DIRECTORY] s s₁) (hr : r ≠ some (.ok ())) : Promotes s r s₁ := by
    refine ⟨hsame.untouched fun name hname => ?_, fun hok => absurd hok hr⟩
    rw [List.mem_singleton.1 hname]
    exact .inr ⟨by decide, hprevious⟩
  unfold promote at h
  rcases h.of_bind with ⟨rfl, hp⟩ | ⟨e, rfl, hp⟩ | ⟨a, s₁, hp, hrest⟩
  · exact hstop (hclear hp).1 nofun
  · exact hstop (hclear hp).1 nofun
  obtain ⟨hsame, hown⟩ := hclear hp
  have hcurrent : find [CURRENT_DIRECTORY] s₁ = find [CURRENT_DIRECTORY] s := hsame _ (by decide)
  rw [← hcurrent] at hforeign
  have hstaging : managed (find [STAGING_DIRECTORY] s₁) := by
    rw [hsame _ (by decide)]
    exact hstaging
  have haside : managed (find [CURRENT_DIRECTORY] s₁) →
      rename_node [CURRENT_DIRECTORY] [PREVIOUS_DIRECTORY] s₁ = none :=
    fun hmanaged => absurd hmanaged hforeign.2
  rcases hrest.of_bind with ⟨rfl, hp⟩ | ⟨e, rfl, hp⟩ | ⟨a, s₂, hp, htake⟩
  · obtain ⟨rfl, -⟩ := faulty_set_aside haside hp
    exact hstop hsame nofun
  · obtain ⟨rfl, -⟩ := faulty_set_aside haside hp
    exact hstop hsame nofun
  obtain ⟨rfl, habsent⟩ := faulty_set_aside haside hp
  -- What stands at `current` is no empty directory, as its test has said no.
  have hplace : ¬ (find [CURRENT_DIRECTORY] s₂ = none ∨
      find [CURRENT_DIRECTORY] s₂ = some (.dir [])) := by
    rintro (hnone | hempty)
    · exact hforeign.1 hnone
    · rcases habsent rfl with hdead | hguided
      · rw [hempty] at hdead
        cases hdead
      · exact hguided (.inr ⟨rfl, hempty⟩)
  have hback : ((find [PREVIOUS_DIRECTORY] s₂).bind follow).isSome = true →
      rename_node [PREVIOUS_DIRECTORY] [CURRENT_DIRECTORY] s₂ = none := by
    intro hpresent
    by_contra hrename
    obtain ⟨s', hs'⟩ := Option.ne_none_iff_exists'.1 hrename
    obtain ⟨node, hnode, hreplaces⟩ := replaces_of_rename (by decide) hs'
    rcases hown rfl with hnone | ⟨entries, hentries, -⟩
    · rw [hnone] at hnode
      cases hnode
    · obtain rfl := Option.some.inj (hnode.symm.trans hentries)
      exact hplace (of_replaces_dir hreplaces)
  rcases faulty_take_place hstaging hback htake with ⟨rfl, hr⟩ | ⟨hfree, -⟩
  · exact hstop hsame hr
  · exact absurd hfree hplace

/-- What the promotion does, whatever else fails, when no existence test misleads
    it. -/
theorem promotes {result : Option (Except ArtifactError Unit)}
    (hstaging : managed (find [STAGING_DIRECTORY] s))
    (h : Faulty (machine host) guided (promote [STAGING_DIRECTORY] [CURRENT_DIRECTORY]) s result
      s') : Promotes s result s' := by
  by_cases hprevious : foreign (find [PREVIOUS_DIRECTORY] s)
  · exact promotes_of_foreign_previous hstaging hprevious h
  by_cases hcurrent : foreign (find [CURRENT_DIRECTORY] s)
  · exact promotes_of_foreign_current hstaging hprevious hcurrent h
  · refine ⟨(same_of_calls only_promote h).untouched fun name hname => .inr ?_,
      fun _ => ⟨hcurrent, fun hforeign => absurd hforeign hprevious⟩⟩
    simp only [List.mem_cons, List.not_mem_nil, or_false] at hname
    rcases hname with rfl | rfl | rfl
    · exact ⟨by decide, not_foreign_of_managed hstaging⟩
    · exact ⟨by decide, hcurrent⟩
    · exact ⟨by decide, hprevious⟩

/-! ## The run -/

variable {manifest : ArtifactManifest} {runtime : RuntimeArtifact} {mode : SetupMode}

/-- A sequence leaves alone what its programs do; what it needs to succeed, one
    of them tells. -/
theorem untouched_of_bind {β : Type} {p : Io α} {f : α → Io β} {Need : Prop}
    {result : Option (Except ArtifactError β)}
    (h : Faulty (machine host) fault (p >>= f) s result s')
    (hp : ∀ r s₁, Faulty (machine host) fault p s r s₁ → Untouched s s₁)
    (hf : ∀ a s₁, Faulty (machine host) fault p s (some (.ok a)) s₁ →
      Faulty (machine host) fault (f a) s₁ result s' →
      Untouched s s' ∧ ∀ b, result = some (.ok b) → Need) :
    Untouched s s' ∧ ∀ b, result = some (.ok b) → Need := by
  rcases h.of_bind with ⟨rfl, hfirst⟩ | ⟨e, rfl, hfirst⟩ | ⟨a, s₁, hfirst, hrest⟩
  · exact ⟨hp _ _ hfirst, nofun⟩
  · exact ⟨hp _ _ hfirst, nofun⟩
  · exact hf a s₁ hfirst hrest

theorem same_remove_managed {result : Option (Except ArtifactError Unit)}
    (h : Faulty (machine host) fault (remove_managed_directory_if_present [name]) s result s') :
    Same [name] s s' :=
  same_of_calls (only_remove_managed (List.mem_singleton_self name)) h

/-- Only managed directories are removed. -/
theorem untouched_remove_managed {result : Option (Except ArtifactError Unit)}
    (hname : name ∈ managed_names)
    (h : Faulty (machine host) fault (remove_managed_directory_if_present [name]) s result s') :
    Untouched s s' := by
  rcases faulty_remove_managed h with ⟨rfl, -⟩ | ⟨hmanaged, hsame, -⟩
  · exact .refl _
  · refine hsame.untouched fun other hother => ?_
    rw [List.mem_singleton.1 hother]
    exact .inr ⟨hname, not_foreign_of_managed hmanaged⟩

/-- A run that clears a name and makes a directory there goes on only if nothing
    foreign stood there. -/
theorem not_foreign_of_cleared {a b : Unit} {s₂ : Option Node} (hname : name ∈ managed_names)
    (hlock : name ≠ "install.lock")
    (hclear : Faulty (machine host) fault (remove_managed_directory_if_present [name]) s
      (some (.ok a)) s₁)
    (hmake : Faulty (machine host) fault (change .create_dir [name]) s₁ (some (.ok b)) s₂) :
    ¬ foreign (find [name] s) := by
  intro hforeign
  have hsame := untouched_remove_managed hname hclear name hlock fun _ => hforeign
  rcases faulty_create_dir hmake with ⟨-, hnone⟩ | ⟨hnot, -⟩
  · exact hforeign.1 (hsame.symm.trans hnone)
  · exact hnot rfl

/-- The installation makes its directory at a name where nothing foreign stands,
    and works there from then on. -/
theorem untouched_of_cleared {β : Type} {rest : Io β} {Need : Prop}
    {result : Option (Except ArtifactError β)} (hname : name ∈ managed_names)
    (hlock : name ≠ "install.lock")
    (h : Faulty (machine host) fault (do
      remove_managed_directory_if_present [name]
      change .create_dir [name]
      rest) s result s')
    (hrest : ∀ s₁, Same [name] s s₁ → ¬ foreign (find [name] s) →
      Faulty (machine host) fault rest s₁ result s' →
      Untouched s s' ∧ ∀ b, result = some (.ok b) → Need) :
    Untouched s s' ∧ ∀ b, result = some (.ok b) → Need := by
  refine untouched_of_bind h (fun r s₁ => untouched_remove_managed hname) fun a s₁ hclear h => ?_
  have hsame := same_remove_managed hclear
  have huntouched := untouched_remove_managed hname hclear
  rcases h.of_bind with ⟨rfl, hp⟩ | ⟨e, rfl, hp⟩ | ⟨b, s₂, hmake, h⟩
  · rcases faulty_create_dir hp with ⟨hr, -⟩ | ⟨-, rfl⟩
    · cases hr
    · exact ⟨huntouched, nofun⟩
  · rcases faulty_create_dir hp with ⟨hr, -⟩ | ⟨-, rfl⟩
    · cases hr
    · exact ⟨huntouched, nofun⟩
  · refine hrest s₂ (hsame.trans ?_) (not_foreign_of_cleared hname hlock hclear hmake) h
    exact same_of_calls (only_change (List.mem_singleton_self name)) hmake

/-- The online installation. -/
theorem untouched_install_online {result : Option (Except ArtifactError Unit)}
    (h : Faulty (machine host) guided (install_online host manifest runtime) s result s') :
    Untouched s s' ∧ ∀ b, result = some (.ok b) → ¬ foreign (find [STAGING_DIRECTORY] s) ∧
      ¬ foreign (find [CURRENT_DIRECTORY] s) ∧
      (foreign (find [PREVIOUS_DIRECTORY] s) → find [CURRENT_DIRECTORY] s = none) := by
  refine untouched_of_cleared (by decide) (by decide) h fun s₁ hsame hfree h => ?_
  -- The staging directory is filled.
  have hstop {r : Option (Except ArtifactError Unit)} {s₂ : Option Node} {p : Io Unit}
      (hp : p.Calls (Op.only [STAGING_DIRECTORY]))
      (hrun : Faulty (machine host) guided p s₁ r s₂) : Same [STAGING_DIRECTORY] s s₂ :=
    hsame.trans (same_of_calls hp hrun)
  have huntouched {s₂ : Option Node} (hsame : Same [STAGING_DIRECTORY] s s₂) : Untouched s s₂ := by
    refine hsame.untouched fun name hname => ?_
    rw [List.mem_singleton.1 hname]
    exact .inr ⟨by decide, hfree⟩
  have hfill : (write_marker [STAGING_DIRECTORY] >>= fun _ =>
      fill_staging host manifest runtime [STAGING_DIRECTORY]).Calls
        (Op.only [STAGING_DIRECTORY]) :=
    Calls.bind (only_write_marker (List.mem_singleton_self _)) fun _ =>
      only_fill_staging (List.mem_singleton_self _)
  rw [← bind_assoc'] at h
  rcases h.of_bind with ⟨rfl, hp⟩ | ⟨e, rfl, hp⟩ | ⟨b, s₂, hp, hpublish⟩
  · exact ⟨huntouched (hstop hfill hp), nofun⟩
  · exact ⟨huntouched (hstop hfill hp), nofun⟩
  have hsame := hstop hfill hp
  unfold publish at hpublish
  rcases hpublish.of_bind with ⟨rfl, hp⟩ | ⟨e, rfl, hp⟩ | ⟨b, s₃, hverify, hpromote⟩
  · obtain ⟨rfl, -⟩ := (inspects_verify_current .Full).of_faulty hp
    exact ⟨huntouched hsame, nofun⟩
  · obtain ⟨rfl, -⟩ := (inspects_verify_current .Full).of_faulty hp
    exact ⟨huntouched hsame, nofun⟩
  obtain ⟨rfl, hverified⟩ := (inspects_verify_current .Full).of_faulty hverify
  have hstaging : managed (find [STAGING_DIRECTORY] s₃) := verified.managed (hverified b rfl)
  rcases hpromote.of_bind with ⟨rfl, hp⟩ | ⟨e, rfl, hp⟩ | ⟨b, s₄, hp, hcheck⟩
  · exact ⟨(huntouched hsame).trans (promotes hstaging hp).untouched, nofun⟩
  · exact ⟨(huntouched hsame).trans (promotes hstaging hp).untouched, nofun⟩
  obtain ⟨rfl, -⟩ := (inspects_verify_current .Full).of_faulty hcheck
  have hpromotes := promotes hstaging hp
  have hneeds := hpromotes.needs rfl
  rw [hsame _ (by decide), hsame _ (by decide)] at hneeds
  exact ⟨(huntouched hsame).trans hpromotes.untouched, fun _ _ => ⟨hfree, hneeds⟩⟩

/-- What is kept is in a managed directory. -/
theorem managed_of_check_kept {result : Option (Except ArtifactError InstallState)}
    (h : Faulty (machine host) fault (check_kept host [CURRENT_DIRECTORY] manifest runtime) s result
      s') : s' = s ∧ ∀ state, result = some (.ok state) → managed (find [CURRENT_DIRECTORY] s) := by
  refine ⟨(inspects_check_kept.of_faulty h).1, ?_⟩
  rintro state rfl
  unfold check_kept at h
  rcases h.of_bind with ⟨hr, -⟩ | ⟨e, hr, -⟩ | ⟨a, s₁, hp, -⟩
  · cases hr
  · cases hr
  · exact (managed_of_assert hp).2 rfl

/-- The recovery of the runtime. -/
theorem untouched_recover_runtime {result : Option (Except ArtifactError Unit)}
    (h : Faulty (machine host) fault (recover_runtime host [CURRENT_DIRECTORY] manifest runtime) s
      result s') : Untouched s s' ∧ ∀ b, result = some (.ok b) →
      ¬ foreign (find [CURRENT_DIRECTORY] s) ∧ ¬ foreign (find [RUNTIME_RECOVERY_DIRECTORY] s) := by
  unfold recover_runtime at h
  refine untouched_of_bind h (fun r s₁ hp => ?_) fun state s₁ hkept hrest => ?_
  · obtain ⟨rfl, -⟩ := managed_of_check_kept hp
    exact .refl _
  obtain ⟨rfl, hmanaged⟩ := managed_of_check_kept hkept
  have hcurrent := not_foreign_of_managed (hmanaged state rfl)
  refine untouched_of_cleared (by decide) (by decide) hrest fun s₂ hsame hfree hrun => ?_
  have hexchange : Same [CURRENT_DIRECTORY, RUNTIME_RECOVERY_DIRECTORY] s₂ s' :=
    same_of_calls (only_exchange host runtime _) hrun
  have hall : Same [CURRENT_DIRECTORY, RUNTIME_RECOVERY_DIRECTORY] s₁ s' :=
    Same.trans (fun name hname => hsame name fun h => hname (.tail _ h)) hexchange
  refine ⟨hall.untouched fun name hname => .inr ?_, fun _ _ => ⟨hcurrent, hfree⟩⟩
  rcases List.mem_cons.1 hname with rfl | hname
  · exact ⟨by decide, hcurrent⟩
  · rw [List.mem_singleton.1 hname]
    exact ⟨by decide, hfree⟩

/-- The offline installation. -/
theorem untouched_repair_offline {result : Option (Except ArtifactError Unit)}
    (h : Faulty (machine host) fault (repair_offline host manifest runtime) s result s') :
    Untouched s s' ∧ ∀ b, result = some (.ok b) → ¬ foreign (find [CURRENT_DIRECTORY] s) ∧
      ¬ foreign (find [RUNTIME_RECOVERY_DIRECTORY] s) := by
  unfold repair_offline at h
  refine untouched_of_bind h (fun r s₁ hp => ?_) fun a s₁ hrecover hverify => ?_
  · obtain ⟨r', -, hp⟩ := hp.of_map_err
    exact (untouched_recover_runtime hp).1
  obtain ⟨r', hr', hp⟩ := hrecover.of_map_err
  obtain ⟨r, -, hcheck⟩ := hverify.of_map_err
  obtain ⟨rfl, -⟩ := (inspects_verify_current .Full).of_faulty hcheck
  obtain ⟨huntouched, hneeds⟩ := untouched_recover_runtime hp
  refine ⟨huntouched, fun _ _ => ?_⟩
  cases r' with
  | none => cases hr'
  | some r' =>
    cases r' with
    | error e => cases hr'
    | ok b => exact hneeds b rfl

/-- The names that the mode needs are the installer's, or free; `.previous` is
    needed to set `current` aside. A complete installation needs none. -/
def names_free (host : Host) (manifest : ArtifactManifest) (runtime : RuntimeArtifact)
    (mode : SetupMode) (s : Option Node) : Prop :=
  verified host manifest runtime (find [CURRENT_DIRECTORY] s) ∨
    match mode with
    | .Online => ¬ foreign (find [STAGING_DIRECTORY] s) ∧ ¬ foreign (find [CURRENT_DIRECTORY] s) ∧
        (foreign (find [PREVIOUS_DIRECTORY] s) → find [CURRENT_DIRECTORY] s = none)
    | .Offline => ¬ foreign (find [CURRENT_DIRECTORY] s) ∧
        ¬ foreign (find [RUNTIME_RECOVERY_DIRECTORY] s)

theorem names_free.congr (h : names_free host manifest runtime mode s₁)
    (hsame : ∀ name ∈ managed_names, find [name] s₁ = find [name] s) :
    names_free host manifest runtime mode s := by
  unfold names_free at h ⊢
  rw [hsame _ (by decide), hsame STAGING_DIRECTORY (by decide),
    hsame PREVIOUS_DIRECTORY (by decide), hsame RUNTIME_RECOVERY_DIRECTORY (by decide)] at h
  exact h

/-- The work of the setup touches nothing that is not its own. -/
theorem untouched_verify_or_install {result : Option (Except ArtifactError Unit)}
    (h : Faulty (machine host) guided (verify_or_install host mode manifest runtime) s result s') :
    Untouched s s' ∧ ∀ b, result = some (.ok b) → names_free host manifest runtime mode s := by
  rw [verify_or_install_eq] at h
  have hlook {r : Option (Except ArtifactError (Except ArtifactError Unit))} {s₁ : Option Node}
      (hp : Faulty (machine host) guided (attempt
        (verify_current host [CURRENT_DIRECTORY] manifest runtime .Full) : Io _) s r s₁) :
      s₁ = s ∧ (r = some (.ok (.ok ())) →
        verified host manifest runtime (find [CURRENT_DIRECTORY] s)) := by
    rcases hp.of_attempt with ⟨rfl, hcheck⟩ | ⟨r', rfl, hcheck⟩
    · exact ⟨((inspects_verify_current .Full).of_faulty hcheck).1, nofun⟩
    · obtain ⟨hs, hok⟩ := (inspects_verify_current .Full).of_faulty hcheck
      refine ⟨hs, fun hr => hok () ?_⟩
      rw [Except.ok.inj (Option.some.inj hr)]
  refine untouched_of_bind h (fun r s₁ hp => ?_) fun checked s₁ hp hrest => ?_
  · obtain ⟨rfl, -⟩ := hlook hp
    exact .refl _
  obtain ⟨rfl, hverified⟩ := hlook hp
  cases checked with
  | ok =>
    cases hrest
    exact ⟨.refl _, fun _ _ => .inl (hverified rfl)⟩
  | error e =>
    cases mode with
    | Online =>
      obtain ⟨huntouched, hneeds⟩ := untouched_install_online hrest
      exact ⟨huntouched, fun b hb => .inr (hneeds b hb)⟩
    | Offline =>
      obtain ⟨huntouched, hneeds⟩ := untouched_repair_offline hrest
      exact ⟨huntouched, fun b hb => .inr (hneeds b hb)⟩

/-- Opening the root makes it, where there is none, and the lock. -/
theorem same_open_root {result : Option (Except ArtifactError Unit)}
    (h : Faulty (machine host) fault open_root s result s') : Same ["install.lock"] s s' := by
  have hcalls : open_root.Calls fun op =>
      op.only ["install.lock"] ∨ op = .change .create_dir_all [] := by
    refine Calls.bind ?_ fun _ => Calls.bind ?_ fun _ => ⟨.inl trivial, calls_fs⟩
    · refine Calls.bind (Calls.attempt ⟨.inl trivial, calls_fs⟩) fun metadata => ?_
      cases metadata with
      | ok => trivial
      | error => exact ⟨.inr rfl, calls_fs⟩
    · exact ⟨.inl ⟨_, .head _, [], rfl⟩, calls_fs⟩
  refine h.invariant (I := Same ["install.lock"] s) (fun op s₁ hop hs => hs.trans ?_)
    (fun op s₁ torn hop ht hs => hs.trans ?_) hcalls fun _ _ => rfl
  · rcases hop with hop | rfl
    · exact same_exec hop
    · change Same _ s₁ (done s₁ (Change.create_dir_all.apply [] s₁)).2
      cases happly : Change.create_dir_all.apply [] s₁ with
      | none => exact fun _ _ => rfl
      | some s₂ => exact same_create_root happly
  · rcases hop with hop | rfl
    · exact same_torn hop ht
    · rcases ht with rfl | ⟨path', hstart, happly⟩
      · exact fun _ _ => rfl
      · obtain rfl := List.prefix_nil.1 hstart
        exact same_create_root happly

/-- A run of setup keeps to what is the installer's: no other entry of the root
    is made, changed or removed, and no entry at one of its names that is not
    its own; if the run needs such a name, it fails. -/
structure KeepsToItsOwn (host : Host) (mode : SetupMode) (s : Option Node)
    (result : Option (Except ArtifactError InstallStatus)) (s' : Option Node) : Prop where
  others : ∀ name, name ≠ "install.lock" → name ∉ managed_names →
    find [name] s' = find [name] s
  foreign : ∀ name ∈ managed_names, foreign (find [name] s) → find [name] s' = find [name] s
  needs : ∀ status, result = some (.ok status) → ∃ manifest target runtime,
    parse_manifest host = .ok manifest ∧ host.host_target = some target ∧
      select_runtime manifest target = .ok runtime ∧ names_free host manifest runtime mode s

/-- The run under the lock, from the root that has been opened. -/
theorem untouched_open {result : Option (Except ArtifactError InstallStatus)}
    {finish : Io InstallStatus} (hfinish : ∃ r, finish = .done r)
    (h : Faulty (machine host) guided (open_root >>= fun _ =>
      verify_or_install host mode manifest runtime >>= fun _ => finish) s result s') :
    Untouched s s' ∧ ∀ b, result = some (.ok b) → names_free host manifest runtime mode s := by
  have hopen {r : Option (Except ArtifactError Unit)} {s₁ : Option Node}
      (hp : Faulty (machine host) guided open_root s r s₁) : Untouched s s₁ :=
    (same_open_root hp).untouched fun name hname => .inl (List.mem_singleton.1 hname)
  refine untouched_of_bind h (fun r s₁ => hopen) fun _ s₁ hp hrest => ?_
  have hsame : ∀ name ∈ managed_names, find [name] s₁ = find [name] s :=
    fun name hname => same_open_root hp name (by rintro hlock; revert name; decide)
  have hinstall : Untouched s₁ s' ∧ ∀ b, result = some (.ok b) →
      names_free host manifest runtime mode s₁ := by
    refine untouched_of_bind hrest (fun r s₂ hp => (untouched_verify_or_install hp).1)
      fun a s₂ hp hdone => ?_
    obtain ⟨huntouched, hneeds⟩ := untouched_verify_or_install hp
    obtain ⟨r, rfl⟩ := hfinish
    cases hdone
    exact ⟨huntouched, fun _ _ => hneeds a rfl⟩
  exact ⟨(hopen hp).trans hinstall.1, fun b hb => (hinstall.2 b hb).congr hsame⟩

/-- Unless the failure of a test for existence misleads the promotion, a run of
    setup keeps to what is the installer's. -/
theorem setup_keeps_to_its_own {result : Option (Except ArtifactError InstallStatus)}
    (h : Faulty (machine host) guided (setup host mode) s result s') :
    KeepsToItsOwn host mode s result s' := by
  rcases setup_cases host mode with
    ⟨e, hsetup⟩ | ⟨manifest, target, runtime, r, hparsed, htarget, hselected, hsetup⟩
  · rw [hsetup] at h
    cases h with
    | done => exact ⟨fun _ _ _ => rfl, fun _ _ _ => rfl, nofun⟩
  · rw [hsetup] at h
    obtain ⟨huntouched, hneeds⟩ := untouched_open ⟨r, rfl⟩ h
    refine ⟨fun name hlock hname => huntouched name hlock fun h => absurd h hname,
      fun name hname hforeign => huntouched name ?_ fun _ => hforeign, fun status hok => ?_⟩
    · rintro rfl
      revert hname
      decide
    · exact ⟨manifest, target, runtime, hparsed, htarget, hselected, hneeds status hok⟩

theorem setup_keeps_to_its_own_small_root : KeepsToItsOwn small_host .Online small_root
    (some (run (machine small_host) (setup small_host .Online) small_root).1)
    (run (machine small_host) (setup small_host .Online) small_root).2 :=
  setup_keeps_to_its_own (.of_run _ _)

/-- The small root, with an empty directory at `.previous`. -/
def crowded_root : Option Node :=
  (Change.create_dir.apply [PREVIOUS_DIRECTORY] small_root).join

/-- When its test for existence fails, the empty directory is replaced, and what
    has replaced it is removed. -/
theorem setup_touches_previous : ∃ result s',
    Faulty (machine small_host) (fun _ _ => True) (setup small_host .Online) crowded_root
        result s' ∧
      ¬ KeepsToItsOwn small_host .Online crowded_root result s' := by
  refine ⟨_, _, .of_falter (fun _ _ => trivial) (fun _ _ => Or.inl rfl) 54 _ _, fun h => ?_⟩
  have hforeign : foreign (find [PREVIOUS_DIRECTORY] crowded_root) := by
    refine ⟨nofun, ?_⟩
    rintro ⟨entries, hentries, content, hcontent, -⟩
    cases hentries
    cases hcontent
  have hgone : find [PREVIOUS_DIRECTORY] (falter (machine small_host) 54
      (setup small_host .Online) crowded_root).2 = none :=
    Option.isNone_iff_eq_none.1 (by decide +kernel)
  have hkept := h.foreign _ (by decide) hforeign
  rw [hgone] at hkept
  exact hforeign.1 hkept.symm

end Inferences.Artifacts
