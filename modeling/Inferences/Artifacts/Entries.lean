import Inferences.Artifacts.Checks

/-!
# The entries of the artifact root

What the operations of the installer do to the entries of its root, and which
entries they leave alone.
-/

namespace Inferences.Artifacts

open Node Program

variable {α β : Type} {host : Host} {entries : List (String × Node)}

/-- The artifact root with these entries. -/
abbrev root (entries : List (String × Node)) : Option Node := some (.dir entries)

/-! ## Runs on the root -/

/-- A query answers from the entry that its path goes through. -/
theorem run_query (q : Query) (path : Path) (k : q.Res → Io α) (s : Option Node) :
    run (machine host) (.call (.query q path) k) s =
      run (machine host) (k (q.answer (find path s))) s := rfl

theorem run_path_exists (path : Path) (s : Option Node) :
    run (machine host) (path_exists path) s = (.ok ((find path s).bind follow).isSome, s) := rfl

/-- A change of an entry that can be made. -/
theorem run_change {c : Change} {path : Path} {s s' : Option Node} (h : c.apply path s = some s') :
    run (machine host) (change c path) s = (.ok (), s') := by
  change run (machine host) (fs (done s (c.apply path s)).1) (done s (c.apply path s)).2 = _
  rw [h]
  rfl

/-- A change of an entry that cannot be made. -/
theorem run_change_error {c : Change} {path : Path} {s : Option Node} (h : c.apply path s = none) :
    run (machine host) (change c path) s = (.error .Filesystem, s) := by
  change run (machine host) (fs (done s (c.apply path s)).1) (done s (c.apply path s)).2 = _
  rw [h]
  rfl

/-- A rename between two entries that can be made. -/
theorem run_rename {source target : Path} {s s' : Option Node}
    (h : rename_node source target s = some s') :
    run (machine host) (rename source target) s = (.ok (), s') := by
  change run (machine host) (fs (done s (rename_node source target s)).1)
    (done s (rename_node source target s)).2 = _
  rw [h]
  rfl

theorem run_rename_error {source target : Path} {s : Option Node}
    (h : rename_node source target s = none) :
    run (machine host) (rename source target) s = (.error .Filesystem, s) := by
  change run (machine host) (fs (done s (rename_node source target s)).1)
    (done s (rename_node source target s)).2 = _
  rw [h]
  rfl

theorem lift_ok_bind (a : α) (f : α → Io β) : lift (.ok a) >>= f = f a := rfl

theorem calls_fs {P : Op → Prop} (r : IoResult α) : (fs r).Calls P := by
  cases r <;> trivial

/-- A change of an entry of the root. -/
theorem apply_root (c : Change) (name : String) (entries : List (String × Node)) :
    c.apply [name] (root entries) =
      (c.act (entries.lookup name)).map fun node => root (put entries name node) :=
  alter_cons_dir ..

/-- A rename of an entry of the root. -/
theorem rename_root {source target : String} (h : source ≠ target)
    (entries : List (String × Node)) :
    rename_node [source] [target] (root entries) = (entries.lookup source).bind fun node =>
      if replaces node (entries.lookup target) then
        some (root (put (put entries source none) target (some node)))
      else none := by
  rw [rename_node, if_neg (by simpa using h)]
  simp only [find_cons_dir, find_nil]
  cases entries.lookup source with
  | none => rfl
  | some node =>
    have hremove : alter false (fun _ => some none) [source] (root entries) =
        some (root (put entries source none)) := alter_cons_dir ..
    have hplace : alter false (fun _ => some (some node)) [target]
        (root (put entries source none)) =
          some (root (put (put entries source none) target (some node))) := alter_cons_dir ..
    cases hreplaces : replaces node (entries.lookup target) with
    | false => simp [hreplaces]
    | true => simp [hreplaces, hremove, hplace]

/-! ## Checks of an entry of the root -/

variable {manifest : ArtifactManifest} {runtime : RuntimeArtifact} {name : String}

theorem managed.run (host : Host) (h : managed (entries.lookup name)) :
    run (machine host) (assert_managed_directory [name]) (root entries) = (.ok (), root entries) :=
  inspects_assert_managed_directory.run_ok ((assert_managed_iff host _).2 h)

theorem run_assert_managed_error (host : Host) (h : ¬ managed (entries.lookup name)) : ∃ e,
    run (machine host) (assert_managed_directory [name]) (root entries) =
      (.error e, root entries) :=
  inspects_assert_managed_directory.run_error fun _ hok => h ((assert_managed_iff host _).1 hok)

/-- What is verified passes the verification, at any name. -/
theorem verified.run (h : verified host manifest runtime (entries.lookup name)) :
    run (machine host) (verify_current host [name] manifest runtime .Full) (root entries) =
      (.ok (), root entries) :=
  (inspects_verify_current .Full).run_ok h

/-- What passes the verification is verified. -/
theorem verified_of_run {s' : Option Node}
    (h : run (machine host) (verify_current host [name] manifest runtime .Full) (root entries) =
      (.ok (), s')) : s' = root entries ∧ verified host manifest runtime (entries.lookup name) := by
  refine ⟨(inspects_verify_current .Full).frame h, ?_⟩
  rw [(inspects_verify_current .Full).relative] at h
  exact congrArg Prod.fst h

theorem run_verify_error (h : ¬ verified host manifest runtime (entries.lookup name)) : ∃ e,
    run (machine host) (verify_current host [name] manifest runtime .Full) (root entries) =
      (.error e, root entries) :=
  (inspects_verify_current .Full).run_error fun _ hok => h hok

theorem managed.follow {node : Option Node} (h : managed node) :
    (node.bind Node.follow).isSome = true := by
  obtain ⟨entries, rfl, -⟩ := h
  rfl

theorem run_remove_absent
    (h : ((entries.lookup name).bind follow).isSome = false) :
    run (machine host) (remove_managed_directory_if_present [name]) (root entries) =
      (.ok (), root entries) := by
  rw [remove_managed_directory_if_present, run_bind, run_path_exists, find_cons_dir, find_nil, h]
  rfl

/-- The installer removes a directory of its own. -/
theorem run_remove_managed (h : managed (entries.lookup name)) :
    run (machine host) (remove_managed_directory_if_present [name]) (root entries) =
      (.ok (), root (put entries name none)) := by
  rw [remove_managed_directory_if_present, run_bind, run_path_exists, find_cons_dir, find_nil,
    h.follow]
  simp only [if_true]
  rw [run_bind_ok _ (managed.run host h)]
  refine run_change ?_
  obtain ⟨below, hbelow, -⟩ := h
  rw [apply_root, hbelow]
  rfl

/-- It refuses to remove anything else. -/
theorem run_remove_other (host : Host)
    (h : ((entries.lookup name).bind follow).isSome = true)
    (hmanaged : ¬ managed (entries.lookup name)) :
    ∃ e, run (machine host) (remove_managed_directory_if_present [name]) (root entries) =
      (.error e, root entries) := by
  rw [remove_managed_directory_if_present, run_bind, run_path_exists, find_cons_dir, find_nil, h]
  obtain ⟨e, he⟩ := run_assert_managed_error host hmanaged
  simp only [if_true]
  rw [run_bind_error _ he]
  exact ⟨e, rfl⟩

/-! ## Filling a directory -/

/-- The operation changes entries of the directory `directory` that are among
    `names`, and looks at that directory and at the paths `reads`. -/
def Op.fills (directory : String) (names : List String) (reads : List Path) : Op → Prop
  | query _ path => path ∈ reads ∨ ∃ below, path = directory :: below
  | change _ path => ∃ name ∈ names, ∃ below, path = directory :: name :: below
  | rename source target =>
    (∃ name ∈ names, ∃ below, source = directory :: name :: below) ∧
      ∃ name ∈ names, ∃ below, target = directory :: name :: below
  | _ => True

/-- The root has the directory, which has the entries `below` but for `names`,
    and otherwise the entries `entries`. -/
def Filled (directory : String) (names : List String) (entries below : List (String × Node))
    (s : Option Node) : Prop :=
  ∃ entries' below', s = root entries' ∧ entries'.lookup directory = some (.dir below') ∧
    (∀ name, name ≠ directory → entries'.lookup name = entries.lookup name) ∧
    ∀ name, name ∉ names → below'.lookup name = below.lookup name

variable {directory : String} {names : List String} {reads : List Path}
  {below : List (String × Node)} {s s' : Option Node}

theorem filled_alter {parents : Bool} {act : Option Node → Option (Option Node)} {path : Path}
    (hpath : ∃ name ∈ names, ∃ below, path = directory :: name :: below)
    (h : Filled directory names entries below s) (halter : alter parents act path s = some s') :
    Filled directory names entries below s' := by
  obtain ⟨name, hname, path, rfl⟩ := hpath
  obtain ⟨entries', below', rfl, hdir, hframe, hbelow⟩ := h
  rw [alter_cons_dir, hdir, alter_cons_dir] at halter
  obtain ⟨node, hnode, rfl⟩ := Option.map_eq_some_iff.1 halter
  obtain ⟨node', -, rfl⟩ := Option.map_eq_some_iff.1 hnode
  refine ⟨_, put below' name node', rfl, lookup_put_self .., fun other hother => ?_,
    fun other hother => ?_⟩
  · rw [lookup_put_ne _ hother]
    exact hframe other hother
  · rw [lookup_put_ne _ fun e : other = name => hother (e ▸ hname)]
    exact hbelow other hother

/-- What fills a directory leaves the other entries of the root as they were. -/
theorem filled_exec (host : Host) {op : Op} (hop : op.fills directory names reads)
    (h : Filled directory names entries below s) :
    Filled directory names entries below ((machine host).exec op s).2 := by
  cases op with
  | change c path =>
    change Filled directory names entries below (done s (c.apply path s)).2
    cases happly : c.apply path s with
    | none => exact h
    | some s' => exact filled_alter hop h happly
  | rename source target =>
    change Filled directory names entries below (done s (rename_node source target s)).2
    cases hrename : rename_node source target s with
    | none => exact h
    | some s' =>
      rw [rename_node] at hrename
      split at hrename
      · cases hrename
        exact h
      · obtain ⟨node, -, hrename⟩ := Option.bind_eq_some_iff.1 hrename
        split at hrename
        · obtain ⟨s₁, hremove, hplace⟩ := Option.bind_eq_some_iff.1 hrename
          exact filled_alter hop.2 (filled_alter hop.1 h hremove) hplace
        · cases hrename
  | _ => exact h

/-- So does what it did before it failed. -/
theorem filled_torn (host : Host) {op : Op} {torn : Option Node}
    (hop : op.fills directory names reads)
    (ht : (machine host).torn op s torn) (h : Filled directory names entries below s) :
    Filled directory names entries below torn := by
  rcases ht with rfl | ht
  · exact h
  cases op with
  | change c path =>
    cases c with
    | append bytes =>
      obtain ⟨part, -, happly⟩ := ht
      exact filled_alter hop h happly
    | remove_dir_all =>
      obtain ⟨_, _, -, -, halter⟩ := ht
      exact filled_alter hop h halter
    | create_dir_all =>
      obtain ⟨path', hstart, happly⟩ := ht
      obtain ⟨name, hname, path, rfl⟩ := hop
      obtain ⟨entries', below', rfl, hdir, hframe, hbelow⟩ := h
      -- the parents that are there already stay as they are
      match path' with
      | [] =>
        cases happly
        exact ⟨entries', below', rfl, hdir, hframe, hbelow⟩
      | [first] =>
        obtain rfl := (List.cons_prefix_cons.1 hstart).1
        rw [apply_root, hdir] at happly
        cases happly
        refine ⟨_, below', rfl, lookup_put_self .., fun other hother => ?_, hbelow⟩
        rw [lookup_put_ne _ hother]
        exact hframe other hother
      | first :: second :: path' =>
        obtain ⟨hfirst, hrest⟩ := List.cons_prefix_cons.1 hstart
        obtain ⟨hsecond, -⟩ := List.cons_prefix_cons.1 hrest
        exact filled_alter ⟨name, hname, path', by rw [hfirst, hsecond]⟩
          ⟨entries', below', rfl, hdir, hframe, hbelow⟩ happly
    | _ => exact ht.elim
  | _ => exact ht.elim

/-- Two roots that operations which fill the directory cannot tell apart. -/
structure Alike (directory : String) (reads : List Path) (s s' : Option Node) : Prop where
  isRoot : (∃ entries, s = root entries) ∧ ∃ entries, s' = root entries
  inside : find [directory] s = find [directory] s'
  outside : ∀ path ∈ reads, find path s = find path s'

variable {s₁ s₂ : Option Node}

theorem alike_alter (hreads : ∀ path ∈ reads, ∃ name below, name ≠ directory ∧ path = name :: below)
    {parents : Bool} {act : Option Node → Option (Option Node)} {below : Path}
    (h : Alike directory reads s₁ s₂) :
    (alter parents act (directory :: below) s₁ = none ∧
      alter parents act (directory :: below) s₂ = none) ∨
    ∃ s₁' s₂', alter parents act (directory :: below) s₁ = some s₁' ∧
      alter parents act (directory :: below) s₂ = some s₂' ∧ Alike directory reads s₁' s₂' := by
  obtain ⟨⟨⟨entries₁, rfl⟩, entries₂, rfl⟩, hinside, houtside⟩ := h
  rw [find_cons_dir, find_cons_dir, find_nil, find_nil] at hinside
  rw [alter_cons_dir, alter_cons_dir, hinside]
  cases alter parents act below (entries₂.lookup directory) with
  | none => exact .inl ⟨rfl, rfl⟩
  | some node =>
    refine .inr ⟨_, _, rfl, rfl, ⟨⟨_, rfl⟩, _, rfl⟩, ?_, fun path hpath => ?_⟩
    · simp
    · obtain ⟨name, below, hname, rfl⟩ := hreads path hpath
      have hread := houtside _ hpath
      simp only [find_cons_dir] at hread ⊢
      rwa [lookup_put_ne _ hname, lookup_put_ne _ hname]

theorem Alike.find (h : Alike directory reads s₁ s₂) (below : Path) :
    find (directory :: below) s₁ = find (directory :: below) s₂ := by
  rw [← List.singleton_append, find_append, find_append, h.inside]

theorem alike_rename
    (hreads : ∀ path ∈ reads, ∃ name below, name ≠ directory ∧ path = name :: below)
    (h : Alike directory reads s₁ s₂) (source target : Path) :
    (rename_node (directory :: source) (directory :: target) s₁ = none ∧
      rename_node (directory :: source) (directory :: target) s₂ = none) ∨
    ∃ s₁' s₂', rename_node (directory :: source) (directory :: target) s₁ = some s₁' ∧
      rename_node (directory :: source) (directory :: target) s₂ = some s₂' ∧
      Alike directory reads s₁' s₂' := by
  simp only [rename_node, h.find source, h.find target]
  split
  · exact .inr ⟨s₁, s₂, rfl, rfl, h⟩
  cases Node.find (directory :: source) s₂ with
  | none => exact .inl ⟨rfl, rfl⟩
  | some node =>
    simp only [Option.bind_eq_bind, Option.bind_some]
    split
    · rcases alike_alter hreads h with ⟨h₁, h₂⟩ | ⟨s₁', s₂', h₁, h₂, h'⟩
      · rw [h₁, h₂]
        exact .inl ⟨rfl, rfl⟩
      · rw [h₁, h₂]
        exact alike_alter hreads h'
    · exact .inl ⟨rfl, rfl⟩

/-- What fills a directory does the same in two trees that are alike there. -/
theorem alike_exec (host : Host) {op : Op}
    (hreads : ∀ path ∈ reads, ∃ name below, name ≠ directory ∧ path = name :: below)
    (hop : op.fills directory names reads) (h : Alike directory reads s₁ s₂) :
    ((machine host).exec op s₁).1 = ((machine host).exec op s₂).1 ∧
      Alike directory reads ((machine host).exec op s₁).2 ((machine host).exec op s₂).2 := by
  cases op with
  | query q path =>
    refine ⟨?_, h⟩
    change q.answer (find path s₁) = q.answer (find path s₂)
    rcases hop with hpath | ⟨below, rfl⟩
    · rw [h.outside path hpath]
    · rw [h.find below]
  | change c path =>
    obtain ⟨name, -, below, rfl⟩ := hop
    change (done s₁ (c.apply _ s₁)).1 = (done s₂ (c.apply _ s₂)).1 ∧
      Alike directory reads (done s₁ (c.apply _ s₁)).2 (done s₂ (c.apply _ s₂)).2
    rcases alike_alter hreads h with ⟨h₁, h₂⟩ | ⟨s₁', s₂', h₁, h₂, h'⟩
    · rw [Change.apply, Change.apply, h₁, h₂]
      exact ⟨rfl, h⟩
    · rw [Change.apply, Change.apply, h₁, h₂]
      exact ⟨rfl, h'⟩
  | rename source target =>
    obtain ⟨⟨name, -, below, rfl⟩, name', -, below', rfl⟩ := hop
    change (done s₁ (rename_node _ _ s₁)).1 = (done s₂ (rename_node _ _ s₂)).1 ∧
      Alike directory reads (done s₁ (rename_node _ _ s₁)).2 (done s₂ (rename_node _ _ s₂)).2
    rcases alike_rename hreads h (name :: below) (name' :: below') with
      ⟨h₁, h₂⟩ | ⟨s₁', s₂', h₁, h₂, h'⟩
    · rw [h₁, h₂]
      exact ⟨rfl, h⟩
    · rw [h₁, h₂]
      exact ⟨rfl, h'⟩
  | service _ => exact ⟨rfl, h⟩
  | send _ => exact ⟨rfl, h⟩
  | recv _ => exact ⟨rfl, h⟩

/-- A program that fills the directory does the same from both. -/
theorem alike_run (host : Host) {p : Io α}
    (hreads : ∀ path ∈ reads, ∃ name below, name ≠ directory ∧ path = name :: below)
    (hp : p.Calls (Op.fills directory names reads)) (h : Alike directory reads s₁ s₂) :
    (run (machine host) p s₁).1 = (run (machine host) p s₂).1 ∧
      Alike directory reads (run (machine host) p s₁).2 (run (machine host) p s₂).2 := by
  induction p generalizing s₁ s₂ with
  | done result => exact ⟨rfl, h⟩
  | call op next ih =>
    obtain ⟨hanswer, hstate⟩ := alike_exec host hreads hp.1 h
    rw [run_call, run_call, hanswer]
    exact ih _ (hp.2 _) hstate

end Inferences.Artifacts
