import Inferences.Artifacts.Extraction
import Inferences.Artifacts.Install

/-!
# What a recovery makes

The offline mode extracts the runtime again, from the archive in `current`.
What comes of it depends on that archive only (`recovered_with_runtime`), so it
can be made again whatever is left of the old runtime, and whether `current` then
verifies (`recovers`) does not depend on that either.
-/

namespace Inferences.Artifacts

open Node Program

variable {α : Type} {host : Host} {manifest : ArtifactManifest} {runtime : RuntimeArtifact}
  {entries : List (String × Node)}

/-! ## Paths below `current` -/

/-- The plain name between two slashes, if it is one. -/
def plain_name (part : String) : Option String :=
  if part = "" ∨ part = "." ∨ part = ".." then none else some part

theorem join_eq (directory : Path) (path : String) : join directory path =
    directory ++ ((path.toList.splitOn '/').map String.ofList).filterMap plain_name := by
  rw [join, components, List.filterMap_append, List.filterMap_filterMap]
  refine congrArg (directory ++ ·) ((congrArg (_ ++ ·) (congrArg (List.filterMap · _)
    (funext fun part => (?_ : _ = plain_name part)))).trans ?_)
  · unfold plain_name
    split_ifs <;> simp_all [Component.normal]
  · generalize List.filterMap plain_name _ = rest
    split <;> rfl

/-- The first component of a path that starts with a plain name. -/
theorem join_cons {name : String} (hname : name.toList.any (· == '/') = false)
    (hplain : plain_name name = some name) (path : String) :
    join [] (name ++ "/" ++ path) = name :: join [] path := by
  have hsplit : (name ++ "/" ++ path).toList.splitOn '/' =
      name.toList :: path.toList.splitOn '/' := by
    rw [String.toList_append, String.toList_append, List.append_assoc]
    have hnone : ∀ c ∈ name.toList, (c == '/') = false :=
      fun c hc => Bool.eq_false_iff.2 (List.any_eq_false.1 hname c hc)
    exact List.splitOnP_append_cons_of_forall_mem hnone '/' rfl path.toList
  rw [join_eq, join_eq, hsplit, List.map_cons, String.ofList_toList,
    List.filterMap_cons_some hplain]
  rfl

/-- The archive is below the downloads. -/
theorem join_downloads (path : String) :
    join [] ("downloads/" ++ path) = "downloads" :: join [] path := by
  have hslash : "downloads/" = "downloads" ++ "/" := by decide
  rw [hslash]
  exact join_cons (by decide) (by decide) path

/-- The model is below its directory. -/
theorem join_model (path : String) : join [] ("model/" ++ path) = "model" :: join [] path := by
  have hslash : "model/" = "model" ++ "/" := by decide
  rw [hslash]
  exact join_cons (by decide) (by decide) path

/-- The executable is below the runtime. -/
theorem join_runtime (path : String) :
    join [] ("runtime/" ++ path) = "runtime" :: join [] path := by
  have hslash : "runtime/" = "runtime" ++ "/" := by decide
  rw [hslash]
  exact join_cons (by decide) (by decide) path

/-- A record that fits the manifest names its files. -/
theorem validate_state_ok {state state' : InstallState}
    (h : validate_state state manifest runtime = .ok state') : state' = state ∧
      state.runtime_archive = "downloads/" ++ runtime.filename ∧
      state.runtime_executable = "runtime/" ++ runtime.executable ∧
      state.model_file = "model/" ++ manifest.model.filename := by
  rw [validate_state] at h
  split at h
  · cases h
  · rename_i hfine
    simp only [Bool.or_eq_true, not_or, decide_eq_true_eq, Decidable.not_not, ne_eq] at hfine
    cases h
    exact ⟨rfl, by tauto, by tauto, by tauto⟩

/-! ## What the recovery keeps -/

/-- An installation that can be recovered: its archive and its model are intact. -/
def kept (host : Host) (manifest : ArtifactManifest) (runtime : RuntimeArtifact)
    (node : Option Node) : Prop :=
  ∃ state, (run (machine host) (check_kept host [] manifest runtime) node).1 = .ok state

/-- The operation looks at a directory, and not at its runtime. -/
def Op.avoids : Op → Prop
  | query .symlink_metadata [] => True
  | query _ (name :: _) => name ≠ "runtime"
  | _ => False

/-- The directory with another runtime. -/
def with_runtime (node : Option Node) (runtime_node : Option Node) : Option Node :=
  match node with
  | some (.dir below) => some (.dir (put below "runtime" runtime_node))
  | node => node

/-- Another runtime is no change of anything else. -/
theorem find_with_runtime {name : String} (h : name ≠ "runtime") (below : Path)
    (node runtime_node : Option Node) :
    find (name :: below) (with_runtime node runtime_node) = find (name :: below) node := by
  unfold with_runtime
  split
  · rw [find_cons_dir, find_cons_dir, lookup_put_ne _ h]
  · rfl

/-- Such operations do not tell runtimes apart. -/
theorem run_with_runtime {p : Io α} (hp : p.Calls Op.avoids) (node runtime_node : Option Node) :
    (run (machine host) p (with_runtime node runtime_node)).1 = (run (machine host) p node).1 := by
  induction p with
  | done result => rfl
  | call op next ih =>
    obtain ⟨hop, hnext⟩ := hp
    cases op with
    | query q path =>
      have hanswer : q.answer (find path (with_runtime node runtime_node)) =
          q.answer (find path node) := by
        cases path with
        | cons name below =>
          have hname : name ≠ "runtime" := by cases q <;> exact hop
          rw [find_with_runtime hname]
        | nil =>
          cases q with
          | symlink_metadata =>
            unfold with_runtime
            split <;> rfl
          | _ => exact hop.elim
      rw [run_query, run_query, hanswer]
      exact ih _ (hnext _)
    | _ => exact hop.elim

theorem avoids_read {name : String} {below : Path} (h : name ≠ "runtime") :
    (read (name :: below)).Calls Op.avoids :=
  ⟨h, fun r => by cases r <;> trivial⟩

theorem avoids_verify_file {directory below : Path} {name path : String} (hname : name ≠ "runtime")
    (hpath : join directory path = name :: below) (expected_size : Nat)
    (expected_sha256 kind : String) : (verify_file host (join directory path) expected_size
      expected_sha256 .Full kind).Calls Op.avoids := by
  rw [verify_file, hpath]
  refine Calls.bind ⟨hname, fun r => by cases r <;> trivial⟩ fun metadata =>
    Calls.bind trivial fun _ => ?_
  simp only [if_true]
  exact (avoids_read hname).bind fun _ => trivial

theorem avoids_assert_managed : (assert_managed_directory []).Calls Op.avoids := by
  unfold assert_managed_directory read_to_string
  refine Calls.bind ⟨trivial, fun r => by cases r <;> trivial⟩ fun metadata =>
    Calls.bind trivial fun _ => Calls.bind (Calls.bind ?_ fun _ => trivial) fun _ => trivial
  exact avoids_read (by decide)

/-- The checks of the archive and the model do not look at the runtime. -/
theorem avoids_check_kept : (check_kept host [] manifest runtime).Calls Op.avoids := by
  unfold check_kept read_and_validate_state
  refine avoids_assert_managed.bind fun _ => ?_
  rw [bind_assoc']
  refine (avoids_read (by decide)).bind fun bytes => ?_
  cases host.from_slice bytes with
  | none => trivial
  | some state =>
    dsimp only
    cases hstate : validate_state state manifest runtime with
    | error e => trivial
    | ok state' =>
      obtain ⟨hsame, harchive, -, hmodel⟩ := validate_state_ok hstate
      have hfirst := join_downloads runtime.filename
      have hsecond := join_model manifest.model.filename
      rw [← harchive, ← hsame] at hfirst
      rw [← hmodel, ← hsame] at hsecond
      rw [lift, done_ok_bind]
      exact (avoids_verify_file (by decide) hfirst ..).bind fun _ =>
        (avoids_verify_file (by decide) hsecond ..).bind fun _ => trivial

/-- The record of an installation that is kept names its parts as the manifest does. -/
theorem kept_state {directory : Path} {state : InstallState} {s : Option Node}
    (h : (run (machine host) (check_kept host directory manifest runtime) s).1 = .ok state) :
    state.runtime_archive = "downloads/" ++ runtime.filename ∧
      state.runtime_executable = "runtime/" ++ runtime.executable := by
  obtain ⟨-, s₁, -, h⟩ := (run_bind_eq_ok _).1 (Prod.ext h rfl)
  obtain ⟨state', s₂, hread, h⟩ := (run_bind_eq_ok _).1 h
  obtain ⟨-, s₃, -, h⟩ := (run_bind_eq_ok _).1 h
  obtain ⟨-, s₄, -, h⟩ := (run_bind_eq_ok _).1 h
  cases h
  obtain ⟨bytes, s₅, -, hread⟩ := (run_bind_eq_ok _).1 hread
  cases hdecoded : host.from_slice bytes with
  | none =>
    rw [hdecoded] at hread
    cases hread
  | some decoded =>
    rw [hdecoded] at hread
    obtain ⟨hsame, harchive, hexecutable, -⟩ := validate_state_ok (congrArg Prod.fst hread)
    rw [hsame]
    exact ⟨harchive, hexecutable⟩

/-- Another runtime is no change of what is kept. -/
theorem kept_with_runtime (node runtime_node : Option Node) :
    kept host manifest runtime (with_runtime node runtime_node) ↔
      kept host manifest runtime node := by
  rw [kept, kept, run_with_runtime avoids_check_kept]

theorem kept.managed {node : Option Node} (h : kept host manifest runtime node) :
    managed node := by
  obtain ⟨state, h⟩ := h
  obtain ⟨_, s₁, hassert, -⟩ := (run_bind_eq_ok _).1 (Prod.ext h rfl)
  exact (assert_managed_iff host node).1 (congrArg Prod.fst hassert)

/-- The part of `verify_current` that looks at the runtime. -/
def verify_runtime (host : Host) (directory : Path) (runtime : RuntimeArtifact)
    (state : InstallState) : Io Unit := do
  let executable_metadata ← symlink_metadata (join directory state.runtime_executable)
  fail_if (executable_metadata.file_type = .symlink || executable_metadata.file_type ≠ .file)
    (.Integrity "runtime")
  verify_runtime_tree host (join directory state.runtime_archive) (directory ++ ["runtime"])
    runtime

/-- The verification is that of what is kept, and then of the runtime. -/
theorem verify_current_eq (directory : Path) :
    verify_current host directory manifest runtime .Full =
      check_kept host directory manifest runtime >>= verify_runtime host directory runtime := by
  rw [check_kept]
  simp only [bind_assoc', pure_bind']
  rfl

/-! ## The recovered runtime -/

/-- Where the archive of the runtime is kept. -/
def archive_path (runtime : RuntimeArtifact) : Path :=
  join [CURRENT_DIRECTORY] ("downloads/" ++ runtime.filename)

theorem archive_path_eq (runtime : RuntimeArtifact) :
    archive_path runtime = CURRENT_DIRECTORY :: "downloads" :: join [] runtime.filename :=
  congrArg (CURRENT_DIRECTORY :: ·) (join_downloads runtime.filename)

/-- What comes of extracting the runtime again, with `current` as it is. -/
def recovered (host : Host) (runtime : RuntimeArtifact) (current : Option Node) :
    Except ArtifactError Unit × Option Node :=
  let out := run (machine host)
    (fill_recovery host runtime [RUNTIME_RECOVERY_DIRECTORY] (archive_path runtime))
    (root (put [(RUNTIME_RECOVERY_DIRECTORY, marked)] CURRENT_DIRECTORY current))
  (out.1, find [RUNTIME_RECOVERY_DIRECTORY, "runtime"] out.2)

/-- The recovery reads nothing but the archive. -/
theorem alike_recovery (runtime : RuntimeArtifact) (entries entries' : List (String × Node))
    (hinside : entries.lookup RUNTIME_RECOVERY_DIRECTORY =
      entries'.lookup RUNTIME_RECOVERY_DIRECTORY)
    (hcurrent : ∀ below, find ("downloads" :: below) (entries.lookup CURRENT_DIRECTORY) =
      find ("downloads" :: below) (entries'.lookup CURRENT_DIRECTORY)) :
    Alike RUNTIME_RECOVERY_DIRECTORY [archive_path runtime] (root entries) (root entries') := by
  refine ⟨⟨⟨_, rfl⟩, _, rfl⟩, hinside, fun path hpath => ?_⟩
  obtain rfl := List.mem_singleton.1 hpath
  rw [archive_path_eq]
  exact hcurrent _

theorem reads_archive : ∀ path ∈ [archive_path runtime], ∃ name below,
    name ≠ RUNTIME_RECOVERY_DIRECTORY ∧ path = name :: below := by
  intro path hpath
  obtain rfl := List.mem_singleton.1 hpath
  exact ⟨_, _, by decide, archive_path_eq runtime⟩

theorem calls_fill_recovery (host : Host) (runtime : RuntimeArtifact) :
    (fill_recovery host runtime [RUNTIME_RECOVERY_DIRECTORY] (archive_path runtime)).Calls
      (Op.fills RUNTIME_RECOVERY_DIRECTORY ["runtime"] [archive_path runtime]) :=
  (strict_fill_recovery host runtime _ _).calls

/-- The recovered runtime does not depend on the runtime that is there. -/
theorem recovered_with_runtime (current runtime_node : Option Node) :
    recovered host runtime (with_runtime current runtime_node) =
      recovered host runtime current := by
  have halike := alike_recovery runtime
    (put [(RUNTIME_RECOVERY_DIRECTORY, marked)] CURRENT_DIRECTORY
      (with_runtime current runtime_node))
    (put [(RUNTIME_RECOVERY_DIRECTORY, marked)] CURRENT_DIRECTORY current)
    (by rw [lookup_put_ne _ (by decide), lookup_put_ne _ (by decide)])
    (fun below => by rw [lookup_put_self, lookup_put_self, find_with_runtime (by decide)])
  obtain ⟨hresult, hstate⟩ := alike_run host reads_archive (calls_fill_recovery host runtime) halike
  exact Prod.ext hresult (hstate.find ["runtime"])

/-- What filling the recovery directory does to the root. -/
theorem run_fill_recovery (host : Host) (runtime : RuntimeArtifact)
    (h : entries.lookup RUNTIME_RECOVERY_DIRECTORY = some marked) :
    ∃ entries' below, run (machine host)
        (fill_recovery host runtime [RUNTIME_RECOVERY_DIRECTORY] (archive_path runtime))
        (root entries) =
          ((recovered host runtime (entries.lookup CURRENT_DIRECTORY)).1, root entries') ∧
      entries'.lookup RUNTIME_RECOVERY_DIRECTORY = some (.dir below) ∧
      below.lookup "runtime" = (recovered host runtime (entries.lookup CURRENT_DIRECTORY)).2 ∧
      managed (some (.dir below)) ∧
      ∀ name, name ≠ RUNTIME_RECOVERY_DIRECTORY → entries'.lookup name = entries.lookup name := by
  have hfilled := (calls_fill_recovery host runtime).run_invariant (fun _ _ => filled_exec host)
    (filled_self h)
  have halike := alike_recovery runtime entries
    (put [(RUNTIME_RECOVERY_DIRECTORY, marked)] CURRENT_DIRECTORY
      (entries.lookup CURRENT_DIRECTORY))
    (by rw [h, lookup_put_ne _ (by decide)]; simp)
    (fun below => by rw [lookup_put_self])
  obtain ⟨hresult, hstate⟩ := alike_run host reads_archive (calls_fill_recovery host runtime) halike
  have hmanaged := hfilled.managed (by decide) managed_marked
  obtain ⟨entries', below, hs, hdir, hframe, -⟩ := hfilled
  have hinside := hstate.find ["runtime"]
  rw [hs, find_cons_dir, hdir] at hinside
  rw [hs, find_cons_dir, find_nil, hdir] at hmanaged
  exact ⟨entries', below, Prod.ext hresult hs, hdir, hinside, hmanaged, hframe⟩

/-! ## Verification of what is recovered -/

theorem fail_if_ok {condition : Bool} {e : ArtifactError} {s s' : Option Node}
    (h : run (machine host) (fail_if condition e) s = (.ok (), s')) :
    s' = s ∧ condition = false := by
  cases condition with
  | false =>
    cases h
    exact ⟨rfl, rfl⟩
  | true => cases h

theorem archive_tree_digests_ok {archive : Path} {files : Digests} {s s' : Option Node}
    (h : run (machine host) (archive_tree_digests host archive runtime) s = (.ok files, s')) :
    s' = s ∧ ∃ file, (find archive s).bind follow = some (.file file) ∧
      tree_digests host runtime file = .ok files := by
  obtain ⟨file, s₁, hread, hrest⟩ := (run_bind_eq_ok _).1 h
  obtain ⟨rfl, hfile⟩ := read_ok hread
  obtain ⟨_, s₂, hservice, hlift⟩ := (run_bind_eq_ok _).1 hrest
  cases hservice
  exact ⟨(congrArg Prod.snd hlift).symm, file, hfile, congrArg Prod.fst hlift⟩

/-- The digests are those of the archive that is read. -/
theorem run_archive_tree_digests (host : Host) (runtime : RuntimeArtifact)
    {archive : Path} {file : Bytes} {s : Option Node}
    (h : (find archive s).bind follow = some (.file file)) :
    run (machine host) (archive_tree_digests host archive runtime) s =
      (tree_digests host runtime file, s) := by
  have hread : run (machine host) (read archive) s = (.ok file, s) := by
    rw [read, run_query, (read_answer _ _).2 h]
    rfl
  rw [archive_tree_digests, run_bind_ok _ hread]
  rfl

/-- With the runtime that the recovery makes, `current` verifies. -/
def recovers (host : Host) (manifest : ArtifactManifest) (runtime : RuntimeArtifact)
    (current : Option Node) : Prop :=
  verified host manifest runtime (with_runtime current (recovered host runtime current).2)

/-- Another runtime is no change of what the recovery makes. -/
theorem recovers_with_runtime (current runtime_node : Option Node) :
    recovers host manifest runtime (with_runtime current runtime_node) ↔
      recovers host manifest runtime current := by
  have hagain :
      with_runtime (with_runtime current runtime_node) (recovered host runtime current).2 =
        with_runtime current (recovered host runtime current).2 := by
    cases current with
    | none => rfl
    | some node =>
      cases node with
      | dir below => simp only [with_runtime, put_put]
      | _ => rfl
  rw [recovers, recovers, recovered_with_runtime, hagain]

/-- What the recovery makes is a plain tree. -/
theorem recovered_ok {current : Option Node}
    (h : (recovered host runtime current).1 = .ok ()) : ∃ tree,
    (recovered host runtime current).2 = some tree ∧ plain_dir (some tree) := by
  obtain ⟨_, s₁, hcreate, hrest⟩ := (run_bind_eq_ok _).1 (Prod.ext h rfl)
  obtain ⟨_, s₂, hextract, hthere⟩ := (run_bind_eq_ok _).1 hrest
  obtain ⟨there, s₃, his_file, hfail⟩ := (run_bind_eq_ok _).1 hthere
  cases his_file
  have hlast := (fail_if_ok hfail).1
  -- the new directory, beside `current` as it is
  have hroot : (put [(RUNTIME_RECOVERY_DIRECTORY, marked)] CURRENT_DIRECTORY current).lookup
      RUNTIME_RECOVERY_DIRECTORY = some marked := by
    rw [lookup_put_ne _ (by decide)]
    simp
  have hempty : find [RUNTIME_RECOVERY_DIRECTORY, "runtime"] s₁ = some (.dir []) := by
    have hcreated := find_alter (show alter false Change.create_dir.act
      ([RUNTIME_RECOVERY_DIRECTORY, "runtime"] ++ []) _ = some s₁ from change_ok hcreate)
    rw [find_cons_dir, hroot] at hcreated
    exact (Option.some.inj hcreated).symm
  obtain ⟨-, -, ⟨entries, htree, hdir⟩, -⟩ := extract_runtime_ok hempty hextract
  have hresult : (recovered host runtime current).2 = some (.dir entries) := by
    rw [← htree]
    exact congrArg (find _) hlast
  exact ⟨_, hresult, entries, rfl, hdir⟩

theorem find_runtime {current : Option Node} (h : managed current) (runtime_node : Option Node) :
    find ["runtime"] (with_runtime current runtime_node) = runtime_node := by
  obtain ⟨below, rfl, -⟩ := h
  exact lookup_put_self ..

end Inferences.Artifacts
