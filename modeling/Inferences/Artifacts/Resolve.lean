import Inferences.Artifacts.RuntimeTree

/-!
# What is ready, and what is served

`inspect` says whether an installation is ready; `resolve_installed` gives the
server the paths of it. Both verify `current`, and the second also asks that
the canonical paths of the runtime and of the model lie below that of
`current`.

A link stands with what it leads to in the tree. Where that is, the tree does
not say: `Places` has it, for the links of a root and for the root itself.
-/

namespace Inferences.Artifacts

open Node Program

/-! ## Canonical paths -/

/-- A symbolic link stands there. -/
def is_link : Option Node → Bool
  | some (.link _) | some .dead_link => true
  | _ => false

/-- The canonical paths of a root and of what its links lead to. -/
structure Places where
  root : List String
  target : Path → List String

/-- From the canonical path of `walked`, that of a path below it. -/
def Places.locate_from (places : Places) (s : Option Node) (walked : Path) (here : List String) :
    Path → List String
  | [] => here
  | name :: path =>
    let next := walked ++ [name]
    places.locate_from s next
      (if is_link (find next s) then places.target next else here ++ [name]) path

/-- Where a path below the root leads to. -/
def Places.locate (places : Places) (s : Option Node) (path : Path) : List String :=
  places.locate_from s [] places.root path

/-- `fs::canonicalize`. -/
def canonicalize (places : Places) (s : Option Node) (path : Path) :
    Except ArtifactError (List String) :=
  if present (find path s) then .ok (places.locate s path) else .error .Filesystem

/-! ## The two verdicts -/

/-- The report on an installation that did not verify. -/
def InstallStatus.not_ready (profile target reason : String) : InstallStatus where
  schema_version := 1
  profile
  target
  status := "not_ready"
  runtime := "not_ready"
  model := "not_ready"
  reason := some reason

/-- The report on what is installed. -/
def inspect (host : Host) (verification : Verification) (s : Option Node) : InstallStatus :=
  match parse_manifest host with
  | .error _ => .not_ready "unknown" "unknown" "manifest_invalid"
  | .ok manifest =>
    let profile := (profile_name manifest).toOption.getD "unknown"
    match host.host_target with
    | none => .not_ready profile "unsupported" "unsupported_platform"
    | some target =>
      match select_runtime manifest target with
      | .error _ => .not_ready profile target "runtime_unavailable"
      | .ok runtime =>
        let target := (target_name runtime).toOption.getD target
        match (run (machine host)
          (verify_current host [CURRENT_DIRECTORY] manifest runtime verification) s).1 with
        | .ok () => .ready profile target
        | .error _ => .not_ready profile target "artifacts_missing_or_invalid"

/-- The paths of a verified installation. -/
structure InstalledArtifacts where
  profile : String
  target : String
  runtime_directory : List String
  runtime_executable : List String
  model_file : List String

/-- `runtime_executable.parent()`. -/
def parent (path : List String) : Option (List String) :=
  if path = [] then none else some path.dropLast

/-- The part of `resolve_installed` that follows the verification. -/
def resolve_paths (places : Places) (s : Option Node) (state : InstallState) :
    Except ArtifactError (List String × List String × List String) := do
  let canonical_current ← canonicalize places s [CURRENT_DIRECTORY]
  let runtime_executable ←
    canonicalize places s (join [CURRENT_DIRECTORY] state.runtime_executable)
  let model_file ← canonicalize places s (join [CURRENT_DIRECTORY] state.model_file)
  let runtime_directory ← (parent runtime_executable).elim
    (.error (.Manifest "runtime executable has no directory")) .ok
  if !canonical_current.isPrefixOf runtime_executable
      || !canonical_current.isPrefixOf model_file
      || !canonical_current.isPrefixOf runtime_directory then
    .error (.Manifest "installed paths escape managed root")
  else .ok (runtime_directory, runtime_executable, model_file)

/-- The paths of the installation, when it verifies. -/
def resolve_installed (host : Host) (places : Places) (verification : Verification)
    (s : Option Node) : Except ArtifactError InstalledArtifacts := do
  let manifest ← parse_manifest host
  let target ← host.host_target.elim (.error .UnsupportedPlatform) .ok
  let runtime ← select_runtime manifest target
  let current := [CURRENT_DIRECTORY]
  (run (machine host) (verify_current host current manifest runtime verification) s).1
  let state ← (run (machine host) (read_and_validate_state host current manifest runtime) s).1
  let (runtime_directory, runtime_executable, model_file) ← resolve_paths places s state
  return {
    profile := ← profile_name manifest
    target := ← target_name runtime
    runtime_directory, runtime_executable, model_file }

/-! ## Walking without links -/

section

variable {places : Places} {s s' : Option Node} {walked path : Path} {here : List String}

/-- Where no link is met, the canonical path is the path. -/
theorem locate_from_of_no_link
    (h : ∀ below, below <+: path → below ≠ [] → is_link (find (walked ++ below) s) = false) :
    places.locate_from s walked here path = here ++ path := by
  induction path generalizing walked here with
  | nil => exact (List.append_nil here).symm
  | cons name path ih =>
    have hhead : is_link (find (walked ++ [name]) s) = false :=
      h [name] (List.prefix_append [name] path) (List.cons_ne_nil _ _)
    rw [Places.locate_from, hhead, if_neg Bool.false_ne_true, ih, List.append_assoc]
    · rfl
    · intro below hbelow hne
      rw [List.append_assoc]
      exact h (name :: below) (List.cons_prefix_cons.2 ⟨rfl, hbelow⟩) (List.cons_ne_nil _ _)

/-- A path in two parts leads on from where the first leads. -/
theorem locate_from_append (path path' : Path) :
    places.locate_from s walked here (path ++ path') =
      places.locate_from s (walked ++ path) (places.locate_from s walked here path) path' := by
  induction path generalizing walked here with
  | nil => rw [List.nil_append, List.append_nil, Places.locate_from]
  | cons name path ih =>
    rw [List.cons_append, Places.locate_from, ih, Places.locate_from, List.append_assoc]
    rfl

/-- Where the same links are met, the canonical paths are the same. -/
theorem locate_from_congr (h : ∀ below, below <+: path → below ≠ [] →
      is_link (find (walked ++ below) s') = is_link (find (walked ++ below) s)) :
    places.locate_from s' walked here path = places.locate_from s walked here path := by
  induction path generalizing walked here with
  | nil => rfl
  | cons name path ih =>
    rw [Places.locate_from, Places.locate_from,
      h [name] (List.prefix_append [name] path) (List.cons_ne_nil _ _)]
    refine ih fun below hbelow _ => ?_
    rw [List.append_assoc]
    exact h (name :: below) (List.cons_prefix_cons.2 ⟨rfl, hbelow⟩) (List.cons_ne_nil _ _)

/-- In a tree without links, no path meets one. -/
theorem is_link_regular {node : Node} (h : Regular node) (path : Path) :
    is_link (find path (some node)) = false := by
  induction path generalizing node with
  | nil => cases h <;> rfl
  | cons name path ih =>
    cases h with
    | file content => exact congrArg is_link (find_none path)
    | @dir entries hentries =>
      rw [find_cons_dir]
      cases hlookup : entries.lookup name with
      | none => exact congrArg is_link (find_none path)
      | some node =>
        obtain ⟨before, after, rfl, -⟩ := List.lookup_eq_some_iff.1 hlookup
        exact ih (hentries (name, node) (by simp))

end

/-! ## When paths are resolved -/

variable {host : Host} {manifest : ArtifactManifest} {runtime : RuntimeArtifact} {places : Places}
  {s s' : Option Node} {verification : Verification} {state : InstallState}

/-- The executable of the runtime. -/
def executable_path (runtime : RuntimeArtifact) : Path :=
  join [CURRENT_DIRECTORY] ("runtime/" ++ runtime.executable)

/-- The file of the model. -/
def model_path (manifest : ArtifactManifest) : Path :=
  join [CURRENT_DIRECTORY] ("model/" ++ manifest.model.filename)

/-- What the source calls an installed path that does not escape. -/
def Inside (places : Places) (s : Option Node) (path : Path) : Prop :=
  places.locate s [CURRENT_DIRECTORY] <+: places.locate s path

/-- The directory of the executable is below `current`, and so is the model. -/
structure WithinCurrent (places : Places) (manifest : ArtifactManifest) (runtime : RuntimeArtifact)
    (s : Option Node) : Prop where
  runtime : places.locate s [CURRENT_DIRECTORY] <+:
    (places.locate s (executable_path runtime)).dropLast
  model : Inside places s (model_path manifest)

/-- What `setup` and its checks pick before they look at the root. -/
def Picks (host : Host) (manifest : ArtifactManifest) (runtime : RuntimeArtifact) : Prop :=
  parse_manifest host = .ok manifest ∧ ∃ target, host.host_target = some target ∧
    select_runtime manifest target = .ok runtime

/-- The manifest has a profile and a target that are known. -/
def Named (manifest : ArtifactManifest) (runtime : RuntimeArtifact) : Prop :=
  (∃ profile, profile_name manifest = .ok profile) ∧ ∃ target, target_name runtime = .ok target

/-- The installation verifies. -/
def verified_at (host : Host) (manifest : ArtifactManifest) (runtime : RuntimeArtifact)
    (verification : Verification) (s : Option Node) : Prop :=
  (run (machine host)
    (verify_current host [CURRENT_DIRECTORY] manifest runtime verification) s).1 = .ok ()

/-- The full verification, with no host in sight. -/
theorem verified_at_full :
    verified_at host manifest runtime .Full s ↔
      verified host manifest runtime (find [CURRENT_DIRECTORY] s) := by
  rw [verified_at, (inspects_verify_current .Full).relative, verified]

/-- A file that verifies is there. -/
theorem present_of_verify_file {path : Path} {expected_size : Nat}
    {expected_sha256 kind : String}
    (h : run (machine host) (verify_file host path expected_size expected_sha256 verification
      kind) s = (.ok (), s')) : present (find path s) = true := by
  obtain ⟨found, s₁, hmetadata, -⟩ := (run_bind_eq_ok _).1 h
  rw [metadata, run_query] at hmetadata
  unfold present
  cases hfollow : (find path s).bind follow with
  | none =>
    rw [Query.answer, hfollow] at hmetadata
    cases hmetadata
  | some node => rfl

theorem present_of_symlink_metadata {path : Path} {found : Metadata}
    (h : run (machine host) (symlink_metadata path) s = (.ok found, s'))
    (hfile : found.file_type = .file) : present (find path s) = true := by
  rw [symlink_metadata, run_query] at h
  cases hfind : find path s with
  | none =>
    rw [Query.answer, hfind] at h
    cases h
  | some node =>
    rw [Query.answer, hfind] at h
    obtain rfl := Except.ok.inj (congrArg Prod.fst h)
    cases node with
    | file content => rfl
    | _ => cases hfile

/-- The record that is read names the parts as the manifest does. -/
theorem read_state {directory : Path}
    (h : run (machine host) (read_and_validate_state host directory manifest runtime) s =
      (.ok state, s')) : s' = s ∧
    state.runtime_executable = "runtime/" ++ runtime.executable ∧
    state.model_file = "model/" ++ manifest.model.filename := by
  refine ⟨inspects_read_and_validate_state.frame h, ?_⟩
  obtain ⟨bytes, s₁, -, hread⟩ := (run_bind_eq_ok _).1 h
  cases hdecoded : host.from_slice bytes with
  | none =>
    rw [hdecoded] at hread
    cases hread
  | some decoded =>
    rw [hdecoded] at hread
    obtain ⟨rfl, -, hexecutable, hmodel⟩ := validate_state_ok (congrArg Prod.fst hread)
    exact ⟨hexecutable, hmodel⟩

/-- What a verification at either level has seen. -/
theorem verified_at.parts (h : verified_at host manifest runtime verification s) :
    ∃ state, run (machine host)
        (read_and_validate_state host [CURRENT_DIRECTORY] manifest runtime) s = (.ok state, s) ∧
      join [CURRENT_DIRECTORY] state.runtime_executable = executable_path runtime ∧
      join [CURRENT_DIRECTORY] state.model_file = model_path manifest ∧
      managed (find [CURRENT_DIRECTORY] s) ∧
      present (find (executable_path runtime) s) = true ∧
      present (find (model_path manifest) s) = true := by
  -- check by check, none of which changes anything
  obtain ⟨_, s₁, hassert, h⟩ := (run_bind_eq_ok _).1 (Prod.ext h rfl)
  obtain rfl := inspects_assert_managed_directory.frame hassert
  rw [inspects_assert_managed_directory.relative] at hassert
  have hmanaged := (assert_managed_iff host _).1 (congrArg Prod.fst hassert)
  obtain ⟨state, s₂, hstate, h⟩ := (run_bind_eq_ok _).1 h
  obtain ⟨rfl, hexecutable, hmodel⟩ := read_state hstate
  obtain ⟨_, s₃, harchive, h⟩ := (run_bind_eq_ok _).1 h
  obtain rfl := (inspects_verify_file ..).frame harchive
  obtain ⟨_, s₄, hfile, h⟩ := (run_bind_eq_ok _).1 h
  have hpresent := present_of_verify_file hfile
  obtain rfl := (inspects_verify_file ..).frame hfile
  obtain ⟨found, s₅, hfound, h⟩ := (run_bind_eq_ok _).1 h
  obtain ⟨_, s₆, hregular, -⟩ := (run_bind_eq_ok _).1 h
  have hfile : found.file_type = .file := by
    have hcondition := (fail_if_ok hregular).2
    simpa using (Bool.or_eq_false_iff.1 hcondition).2
  have hthere := present_of_symlink_metadata hfound hfile
  rw [hexecutable] at hthere
  rw [hmodel] at hpresent
  exact ⟨state, hstate, congrArg _ hexecutable, congrArg _ hmodel, hmanaged, hthere, hpresent⟩

/-- A managed directory is no link. -/
theorem managed.is_link {node : Option Node} (h : managed node) : is_link node = false := by
  obtain ⟨entries, rfl, -⟩ := h
  rfl

/-- A managed installation is in its place. -/
theorem locate_current (h : managed (find [CURRENT_DIRECTORY] s)) :
    places.locate s [CURRENT_DIRECTORY] = places.root ++ [CURRENT_DIRECTORY] := by
  refine locate_from_of_no_link fun below hbelow hne => ?_
  rcases List.prefix_cons_iff.1 hbelow with rfl | ⟨rest, rfl, hrest⟩
  · exact absurd rfl hne
  · obtain rfl := List.prefix_nil.1 hrest
    exact h.is_link

/-- The paths of an installation are resolved when they are below `current`. -/
theorem resolve_paths_iff (hcurrent : managed (find [CURRENT_DIRECTORY] s))
    (hexecutable : present (find (executable_path runtime) s) = true)
    (hmodel : present (find (model_path manifest) s) = true)
    (hjoin : join [CURRENT_DIRECTORY] state.runtime_executable = executable_path runtime)
    (hjoin' : join [CURRENT_DIRECTORY] state.model_file = model_path manifest) :
    (∃ paths, resolve_paths places s state = .ok paths) ↔
      WithinCurrent places manifest runtime s := by
  have hwithin : WithinCurrent places manifest runtime s ↔
      places.locate s [CURRENT_DIRECTORY] <+:
        (places.locate s (executable_path runtime)).dropLast ∧
      places.locate s [CURRENT_DIRECTORY] <+: places.locate s (model_path manifest) :=
    ⟨fun h => ⟨h.runtime, h.model⟩, fun h => ⟨h.1, h.2⟩⟩
  rw [hwithin, resolve_paths, canonicalize, canonicalize, canonicalize, hjoin, hjoin',
    if_pos hcurrent.present, if_pos hexecutable, if_pos hmodel, locate_current hcurrent]
  simp only [parent, Bind.bind, Except.bind]
  generalize places.locate s (executable_path runtime) = executable
  generalize places.locate s (model_path manifest) = model
  by_cases hempty : executable = []
  · rw [if_pos hempty, hempty]
    refine iff_of_false (fun ⟨_, h⟩ => (by cases h)) fun h => ?_
    exact absurd (List.prefix_nil.1 h.1) (by simp)
  · rw [if_neg hempty]
    simp only [Option.elim_some]
    split
    · rename_i hescapes
      refine iff_of_false (fun ⟨_, h⟩ => (by cases h)) fun h => ?_
      -- the executable is below `current` when its directory is
      have hexecutable := h.1.trans (List.dropLast_prefix executable)
      rw [List.isPrefixOf_iff_prefix.2 h.1, List.isPrefixOf_iff_prefix.2 h.2,
        List.isPrefixOf_iff_prefix.2 hexecutable] at hescapes
      cases hescapes
    · rename_i hinside
      refine iff_of_true ⟨_, rfl⟩ ?_
      simp only [Bool.or_eq_true, not_or, Bool.not_eq_true', Bool.not_eq_false,
        List.isPrefixOf_iff_prefix] at hinside
      exact ⟨hinside.2, hinside.1.2⟩

/-- When a verified installation has its paths resolved. -/
theorem verified_at.resolve_iff (h : verified_at host manifest runtime verification s)
    (hpicks : Picks host manifest runtime) :
    (∃ artifacts, resolve_installed host places verification s = .ok artifacts) ↔
      Named manifest runtime ∧ WithinCurrent places manifest runtime s := by
  obtain ⟨hparsed, target, htarget, hselected⟩ := hpicks
  obtain ⟨state, hstate, hjoin, hjoin', hcurrent, hexecutable, hmodel⟩ := h.parts
  have hpaths : (∃ paths, resolve_paths places s state = .ok paths) ↔
      WithinCurrent places manifest runtime s :=
    resolve_paths_iff hcurrent hexecutable hmodel hjoin hjoin'
  rw [← hpaths]
  have hverify : (run (machine host)
    (verify_current host [CURRENT_DIRECTORY] manifest runtime verification) s).1 = .ok () := h
  simp only [resolve_installed, Bind.bind, Except.bind, hparsed, htarget, Option.elim_some,
    hselected, hverify, hstate]
  have hfails : ∀ e, ¬ ∃ artifacts,
      (.error e : Except ArtifactError InstalledArtifacts) = .ok artifacts :=
    fun _ ⟨_, h⟩ => by cases h
  -- The paths come first, then the names of the profile and of the target.
  cases resolve_paths places s state with
  | error e =>
    refine iff_of_false (hfails e) ?_
    rintro ⟨_, _, h⟩
    cases h
  | ok paths =>
    simp only
    cases hprofile : profile_name manifest with
    | error e =>
      refine iff_of_false (hfails e) ?_
      rintro ⟨⟨⟨_, h⟩, -⟩, -⟩
      rw [hprofile] at h
      cases h
    | ok profile =>
      cases hname : target_name runtime with
      | error e =>
        refine iff_of_false (hfails e) ?_
        rintro ⟨⟨-, _, h⟩, -⟩
        rw [hname] at h
        cases h
      | ok name => exact iff_of_true ⟨_, rfl⟩ ⟨⟨⟨_, hprofile⟩, _, hname⟩, _, rfl⟩

/-- Nothing is ready, and nothing resolved, where nothing is picked. -/
theorem picks_or_neither (host : Host) (places : Places) (verification : Verification)
    (s : Option Node) : (∃ manifest runtime, Picks host manifest runtime) ∨
      (inspect host verification s).status ≠ "ready" ∧
        ∀ artifacts, resolve_installed host places verification s ≠ .ok artifacts := by
  unfold inspect resolve_installed
  cases hparsed : parse_manifest host with
  | error e => exact .inr ⟨by simp [InstallStatus.not_ready], nofun⟩
  | ok manifest =>
    cases htarget : host.host_target with
    | none => exact .inr ⟨by simp [InstallStatus.not_ready], nofun⟩
    | some target =>
      cases hselected : select_runtime manifest target with
      | error e =>
        refine .inr ⟨by simp [hselected, InstallStatus.not_ready], fun artifacts => ?_⟩
        simp only [Bind.bind, Except.bind, Option.elim_some, hselected]
        exact nofun
      | ok runtime => exact .inl ⟨manifest, runtime, hparsed, target, htarget, hselected⟩

/-- `inspect` reports ready exactly when `current` verifies. -/
theorem Picks.inspect_iff (h : Picks host manifest runtime) :
    (inspect host verification s).status = "ready" ↔
      verified_at host manifest runtime verification s := by
  obtain ⟨hparsed, target, htarget, hselected⟩ := h
  simp only [inspect, hparsed, htarget, hselected, verified_at]
  cases (run (machine host)
    (verify_current host [CURRENT_DIRECTORY] manifest runtime verification) s).1 with
  | ok => exact iff_of_true rfl rfl
  | error e =>
    refine iff_of_false ?_ nofun
    simp [InstallStatus.not_ready]

theorem Picks.resolve_verified (h : Picks host manifest runtime) {artifacts : InstalledArtifacts}
    (hresolve : resolve_installed host places verification s = .ok artifacts) :
    verified_at host manifest runtime verification s := by
  obtain ⟨hparsed, target, htarget, hselected⟩ := h
  simp only [resolve_installed, Bind.bind, Except.bind, hparsed, htarget, Option.elim_some,
    hselected] at hresolve
  rw [verified_at]
  cases hverify : (run (machine host)
      (verify_current host [CURRENT_DIRECTORY] manifest runtime verification) s).1 with
  | ok => rfl
  | error e =>
    rw [hverify] at hresolve
    cases hresolve

/-- One manifest and one runtime are picked. -/
theorem Picks.unique {manifest' : ArtifactManifest} {runtime' : RuntimeArtifact}
    (h : Picks host manifest runtime) (h' : Picks host manifest' runtime') :
    manifest' = manifest ∧ runtime' = runtime := by
  obtain ⟨hparsed, target, htarget, hselected⟩ := h
  obtain ⟨hparsed', target', htarget', hselected'⟩ := h'
  obtain rfl := Except.ok.inj (hparsed.symm.trans hparsed')
  obtain rfl := Option.some.inj (htarget.symm.trans htarget')
  exact ⟨rfl, Except.ok.inj (hselected'.symm.trans hselected)⟩

/-- An installation that verifies, if there is one, is where `current` is. -/
def Resolvable (host : Host) (places : Places) (verification : Verification) (s : Option Node) :
    Prop :=
  ∀ manifest runtime, Picks host manifest runtime →
    verified_at host manifest runtime verification s →
      Named manifest runtime ∧ WithinCurrent places manifest runtime s

/-- The two verdicts differ exactly when what verifies is led out of `current`. -/
theorem inspect_matches_iff (host : Host) (places : Places) (verification : Verification)
    (s : Option Node) :
    ((inspect host verification s).status = "ready" ↔
      ∃ artifacts, resolve_installed host places verification s = .ok artifacts) ↔
      Resolvable host places verification s := by
  rcases picks_or_neither host places verification s with
    ⟨manifest, runtime, hpicks⟩ | ⟨hinspect, hresolve⟩
  · rw [hpicks.inspect_iff]
    constructor
    · rintro h manifest' runtime' hpicks' hverified
      obtain ⟨rfl, rfl⟩ := hpicks.unique hpicks'
      exact (hverified.resolve_iff hpicks).1 (h.1 hverified)
    · intro h
      refine ⟨fun hverified => (hverified.resolve_iff hpicks).2 (h _ _ hpicks hverified), ?_⟩
      rintro ⟨artifacts, hresolve⟩
      exact hpicks.resolve_verified hresolve
  · refine iff_of_true (iff_of_false hinspect fun ⟨_, h⟩ => hresolve _ h) ?_
    intro manifest runtime hpicks hverified
    exact absurd (hpicks.inspect_iff.2 hverified) hinspect

/-! ## The installer makes no links -/

/-- No link and no special file is in the tree, if there is a tree. -/
def NoLinks (s : Option Node) : Prop := ∀ node, s = some node → Regular node

theorem NoLinks.lookup {entries : List (String × Node)} (h : Regular (.dir entries))
    (name : String) : NoLinks (entries.lookup name) := by
  intro node hnode
  cases h with
  | dir hentries =>
    obtain ⟨before, after, rfl, -⟩ := List.lookup_eq_some_iff.1 hnode
    exact hentries (name, node) (by simp)

theorem NoLinks.put {entries : List (String × Node)} (h : Regular (.dir entries)) {name : String}
    {node : Option Node} (hnode : NoLinks node) : Regular (.dir (put entries name node)) := by
  cases h with
  | dir hentries =>
    have hfilter : ∀ entry ∈ entries.filter (·.1 ≠ name), Regular entry.2 :=
      fun entry hentry => hentries entry (List.mem_of_mem_filter hentry)
    cases node with
    | none => exact .dir hfilter
    | some node =>
      refine .dir fun entry hentry => ?_
      rcases List.mem_append.1 hentry with hentry | hentry
      · exact hfilter entry hentry
      · obtain rfl := List.mem_singleton.1 hentry
        exact hnode node rfl

/-- Below a tree without links there are none. -/
theorem NoLinks.find (h : NoLinks s) (path : Path) : NoLinks (find path s) := by
  induction path generalizing s with
  | nil => exact h
  | cons name path ih =>
    refine ih fun node hnode => ?_
    obtain ⟨parent, rfl, hentry⟩ := Option.bind_eq_some_iff.1 hnode
    have hparent := h parent rfl
    cases hparent with
    | file content => cases hentry
    | dir hentries => exact NoLinks.lookup (.dir hentries) name node hentry

/-- A change that makes no link leaves none. -/
theorem NoLinks.alter {parents : Bool} {change : Option Node → Option (Option Node)}
    (hchange : ∀ node node', NoLinks node → change node = some node' → NoLinks node')
    {path : Path} (hs : NoLinks s) (h : alter parents change path s = some s') : NoLinks s' := by
  induction path generalizing s s' with
  | nil => exact hchange s s' hs h
  | cons name path ih =>
    -- the change below a directory without links, there or to be made
    have hbelow : ∀ {entries : List (String × Node)}, Regular (.dir entries) →
        ((Node.dir entries).update name (Node.alter parents change path)).map some = some s' →
        NoLinks s' := by
      intro entries hentries hupdate
      obtain ⟨_, hwritten, rfl⟩ := Option.map_eq_some_iff.1 hupdate
      obtain ⟨below, hnode, rfl⟩ := Option.map_eq_some_iff.1 hwritten
      rintro _ ⟨⟩
      exact NoLinks.put hentries (ih (NoLinks.lookup hentries name) hnode)
    cases s with
    | none =>
      rw [Node.alter] at h
      split at h
      · exact hbelow (.dir fun _ hentry => absurd hentry List.not_mem_nil) h
      · cases h
    | some node =>
      have hnode := hs node rfl
      cases hnode with
      | file content => cases h
      | dir hentries => exact hbelow (.dir hentries) h

theorem NoLinks.overwrite {f : Bytes → Bytes} {node node' : Node} (h : Regular node)
    (ho : overwrite f node = some node') : Regular node' := by
  cases h with
  | file content =>
    cases ho
    exact .file _
  | dir hentries => cases ho

theorem NoLinks.act {c : Change} {node node' : Option Node} (h : NoLinks node)
    (ha : c.act node = some node') : NoLinks node' := by
  have hempty : Regular (.dir []) := .dir fun _ hentry => absurd hentry List.not_mem_nil
  cases node with
  | none =>
    cases c with
    | create_dir | create_dir_all =>
      cases ha
      rintro _ ⟨⟩
      exact hempty
    | open_lock | create =>
      cases ha
      rintro _ ⟨⟩
      exact .file []
    | append bytes | remove_dir_all | remove_file => cases ha
  | some node =>
    have hnode := h node rfl
    cases c with
    | create_dir => cases ha
    | create_dir_all =>
      rw [create_dir_all_again ha]
      exact h
    | open_lock | create | append bytes =>
      obtain ⟨written, hwritten, rfl⟩ := Option.map_eq_some_iff.1 ha
      rintro _ ⟨⟩
      exact NoLinks.overwrite hnode hwritten
    | remove_dir_all | remove_file =>
      cases hnode <;> cases ha
      exact nofun

/-- No operation makes a link. -/
theorem NoLinks.exec (op : Op) (hs : NoLinks s) : NoLinks ((machine host).exec op s).2 := by
  cases op with
  | query q path => exact hs
  | service what => exact hs
  | send url => exact hs
  | recv r => exact hs
  | change c path =>
    change NoLinks (done s (c.apply path s)).2
    cases happly : c.apply path s with
    | none => exact hs
    | some s' => exact hs.alter (fun _ _ => NoLinks.act) happly
  | rename source target =>
    change NoLinks (done s (rename_node source target s)).2
    cases hrename : rename_node source target s with
    | none => exact hs
    | some s' =>
      unfold rename_node at hrename
      split at hrename
      · cases hrename
        exact hs
      · obtain ⟨node, hnode, hrename⟩ := Option.bind_eq_some_iff.1 hrename
        split at hrename
        · -- what is moved is taken away, then put where it goes
          obtain ⟨s₁, hremoved, hplaced⟩ := Option.bind_eq_some_iff.1 hrename
          have hremoved := hs.alter (fun _ _ _ h => by cases h; exact nofun) hremoved
          refine hremoved.alter (fun _ _ _ h => ?_) hplaced
          cases h
          exact hnode ▸ hs.find source
        · cases hrename

/-- Whatever the installer does to a tree without links, it makes none. -/
theorem NoLinks.run {α : Type} (p : Io α) (hs : NoLinks s) :
    NoLinks (run (machine host) p s).2 := by
  induction p generalizing s with
  | done result => exact hs
  | call op next ih => exact ih _ (hs.exec op)

/-! ## What setup leaves -/

variable {entries : List (String × Node)} {mode : SetupMode} {profile target : String}

theorem executable_path_eq (runtime : RuntimeArtifact) :
    executable_path runtime = [CURRENT_DIRECTORY] ++ "runtime" :: join [] runtime.executable :=
  congrArg ([CURRENT_DIRECTORY] ++ ·) (join_runtime runtime.executable)

theorem model_path_eq (manifest : ArtifactManifest) :
    model_path manifest = [CURRENT_DIRECTORY] ++ "model" :: join [] manifest.model.filename :=
  congrArg ([CURRENT_DIRECTORY] ++ ·) (join_model manifest.model.filename)

/-- Below an entry of `current` without links, the canonical path goes on as the path. -/
theorem locate_below {name : String} {tree : Node}
    (htree : find [CURRENT_DIRECTORY, name] s = some tree) (hregular : Regular tree)
    (path : Path) : places.locate s ([CURRENT_DIRECTORY] ++ name :: path) =
      places.locate s [CURRENT_DIRECTORY] ++ name :: path := by
  rw [Places.locate, locate_from_append]
  refine locate_from_of_no_link fun below hbelow hne => ?_
  rcases List.prefix_cons_iff.1 hbelow with rfl | ⟨rest, rfl, -⟩
  · exact absurd rfl hne
  · have hfind : find ([] ++ [CURRENT_DIRECTORY] ++ name :: rest) s = find rest (some tree) := by
      rw [← htree, ← find_append]
      rfl
    rw [hfind]
    exact is_link_regular hregular rest

/-- A full verification has walked through the runtime, which has no links. -/
theorem verified.runtime_regular {node : Option Node} (h : verified host manifest runtime node) :
    ∃ tree, find ["runtime"] node = some tree ∧ Regular tree := by
  rw [verified, verify_current_eq] at h
  obtain ⟨state, s₁, hkept, htail⟩ := (run_bind_eq_ok _).1 (Prod.ext h rfl)
  obtain rfl := inspects_check_kept.frame hkept
  obtain ⟨metadata, s₂, hmetadata, hrest⟩ := (run_bind_eq_ok _).1 htail
  obtain rfl := (inspects_symlink_metadata (join [] state.runtime_executable)).frame hmetadata
  obtain ⟨_, s₃, hregular, htree⟩ := (run_bind_eq_ok _).1 hrest
  obtain ⟨rfl, -⟩ := fail_if_ok hregular
  obtain ⟨files, s₄, hdigests, hcompare⟩ := (run_bind_eq_ok _).1 htree
  obtain ⟨rfl, -⟩ := archive_tree_digests_ok hdigests
  have hok := (compare_tree_iff host ["runtime"] (join [] runtime.executable) files s₄).1
    (congrArg Prod.fst hcompare)
  obtain ⟨-, tree, hfind, hcollect⟩ := hok
  exact ⟨tree, hfind, regular_of_collect tree hcollect⟩

/-- After a full verification, only the model may be led out of `current`. -/
theorem withinCurrent_iff (h : verified host manifest runtime (find [CURRENT_DIRECTORY] s)) :
    WithinCurrent places manifest runtime s ↔ Inside places s (model_path manifest) := by
  obtain ⟨tree, htree, hregular⟩ := h.runtime_regular
  rw [← find_append] at htree
  refine ⟨fun h => h.model, fun hmodel => ⟨?_, hmodel⟩⟩
  rw [executable_path_eq, locate_below htree hregular,
    List.dropLast_append_of_ne_nil (List.cons_ne_nil _ _)]
  exact List.prefix_append _ _

/-- The model stays inside, or outside, when its links are as they were. -/
theorem inside_congr (hcurrent : is_link (find [CURRENT_DIRECTORY] s') =
      is_link (find [CURRENT_DIRECTORY] s))
    (hmodel : ∀ below, find (CURRENT_DIRECTORY :: "model" :: below) s' =
      find (CURRENT_DIRECTORY :: "model" :: below) s) :
    Inside places s' (model_path manifest) ↔ Inside places s (model_path manifest) := by
  have hlinks : ∀ below, below <+: model_path manifest → below ≠ [] →
      is_link (find ([] ++ below) s') = is_link (find ([] ++ below) s) := by
    rw [model_path_eq]
    intro below hbelow hne
    rcases List.prefix_cons_iff.1 hbelow with rfl | ⟨rest, rfl, hrest⟩
    · exact absurd rfl hne
    rcases List.prefix_cons_iff.1 hrest with rfl | ⟨deeper, rfl, -⟩
    · exact hcurrent
    · exact congrArg is_link (hmodel deeper)
  have hstart : [CURRENT_DIRECTORY] <+: model_path manifest := by
    rw [model_path_eq]
    exact List.prefix_append _ _
  rw [Inside, Inside, Places.locate, Places.locate, Places.locate, Places.locate,
    locate_from_congr hlinks,
    locate_from_congr fun below hbelow => hlinks below (hbelow.trans hstart)]

/-- What is staged has no links. -/
theorem noLinks_staged (host : Host) (manifest : ArtifactManifest) (runtime : RuntimeArtifact) :
    NoLinks (staged host manifest runtime).2 := by
  have hmarked : Regular marked := .dir fun entry hentry => by
    obtain rfl := List.mem_singleton.1 hentry
    exact .file _
  have hroot : NoLinks (root [(STAGING_DIRECTORY, marked)]) := by
    rintro _ ⟨⟩
    refine .dir fun entry hentry => ?_
    obtain rfl := List.mem_singleton.1 hentry
    exact hmarked
  exact (hroot.run _).find [STAGING_DIRECTORY]

/-- What an installation leaves at `current` is what it has staged. -/
theorem run_stage_and_publish
    (h : run (machine host) (stage_and_publish host manifest runtime) (root entries) =
      (.ok (), s')) : find [CURRENT_DIRECTORY] s' = (staged host manifest runtime).2 := by
  -- nothing is staged yet, or the staging directory could not be made
  have hnone : entries.lookup STAGING_DIRECTORY = none := by
    by_contra hsome
    rw [stage_and_publish, run_bind_error _ (run_create_dir_error hsome)] at h
    cases h
  have hmarker := run_write_marker host (lookup_put_self entries STAGING_DIRECTORY
    (some (.dir [])))
  rw [put_put] at hmarker
  obtain ⟨entries₁, hfill, hstaged, -, -⟩ := run_fill_staging host manifest runtime
    (lookup_put_self entries STAGING_DIRECTORY (some marked))
  rw [stage_and_publish, run_bind_ok _ (run_create_dir hnone), run_bind_ok _ hmarker] at h
  obtain ⟨_, s₂, hfilled, hpublish⟩ := (run_bind_eq_ok _).1 h
  rw [hfill] at hfilled
  obtain rfl := congrArg Prod.snd hfilled
  by_cases hpossible : verified host manifest runtime (entries₁.lookup STAGING_DIRECTORY) ∧
      promotable (entries₁.lookup CURRENT_DIRECTORY) (entries₁.lookup PREVIOUS_DIRECTORY)
  · obtain ⟨entries₂, hrun, hcurrent⟩ := run_publish_ok hpossible.1 hpossible.2
    rw [hrun] at hpublish
    obtain rfl := congrArg Prod.snd hpublish
    exact hcurrent.trans hstaged
  · obtain ⟨e, entries₂, hrun, -⟩ := run_publish_error hpossible
    rw [hrun] at hpublish
    cases hpublish

theorem run_install_online
    (h : run (machine host) (install_online host manifest runtime) (root entries) =
      (.ok (), s')) : find [CURRENT_DIRECTORY] s' = (staged host manifest runtime).2 := by
  change run (machine host) (remove_managed_directory_if_present [STAGING_DIRECTORY] >>= fun _ =>
    stage_and_publish host manifest runtime) (root entries) = _ at h
  by_cases hmanaged : managed (entries.lookup STAGING_DIRECTORY)
  · rw [run_bind_ok _ (run_remove_managed hmanaged)] at h
    exact run_stage_and_publish h
  · cases hpresent : present (entries.lookup STAGING_DIRECTORY) with
    | true =>
      obtain ⟨e, he⟩ := run_remove_other host hpresent hmanaged
      rw [run_bind_error _ he] at h
      cases h
    | false =>
      rw [run_bind_ok _ (run_remove_absent hpresent)] at h
      exact run_stage_and_publish h

/-- A repair changes nothing below `current` but the runtime. -/
theorem run_repair_offline
    (h : run (machine host) (repair_offline host manifest runtime) (root entries) =
      (.ok (), s')) :
    ∃ node, find [CURRENT_DIRECTORY] s' = with_runtime (entries.lookup CURRENT_DIRECTORY) node := by
  obtain ⟨_, s₁, hrecover, hverify⟩ := (run_bind_eq_ok _).1 h
  rw [run_map_err] at hrecover hverify
  have hs' : s' = s₁ := by
    rw [(inspects_verify_current .Full).relative] at hverify
    exact (congrArg Prod.snd hverify).symm
  subst hs'
  obtain ⟨entries₁, hs₁, ⟨-, hlookup, -⟩ | ⟨⟨e, he⟩, -⟩⟩ :=
    recovers_runtime host manifest runtime entries
  · have hstate := congrArg Prod.snd hrecover
    rw [hs₁] at hstate
    obtain rfl := hstate
    exact ⟨_, hlookup⟩
  · rw [he] at hrecover
    cases hrecover

/-- An installation that a run of `setup` takes over has its model in `current`. -/
def KeptInside (host : Host) (places : Places) (mode : SetupMode) (s : Option Node) : Prop :=
  ∀ manifest runtime, Picks host manifest runtime →
    mode = .Offline ∨ verified host manifest runtime (find [CURRENT_DIRECTORY] s) →
      Inside places s (model_path manifest)

/-- A repair leaves the model where it was. -/
theorem repair_offline_inside (places : Places)
    (h : run (machine host) (repair_offline host manifest runtime) (root entries) =
      (.ok (), s')) :
    verified host manifest runtime (find [CURRENT_DIRECTORY] s') ∧
      (Inside places s' (model_path manifest) ↔
        Inside places (root entries) (model_path manifest)) := by
  obtain ⟨node, hnode⟩ := run_repair_offline h
  constructor
  · obtain ⟨entries', hs', ⟨-, hdone, -⟩ | ⟨⟨e, he⟩, -⟩⟩ :=
      repairs_offline host manifest runtime entries
    · obtain rfl := hs'.symm.trans (congrArg Prod.snd h)
      exact hdone
    · cases (congrArg Prod.fst h).symm.trans he
  · refine inside_congr ?_ fun below => ?_
    · rw [hnode]
      change _ = is_link (entries.lookup CURRENT_DIRECTORY)
      unfold with_runtime
      split
      · rename_i heq
        rw [heq]
        rfl
      · rfl
    · have hbelow := find_with_runtime (by decide : "model" ≠ "runtime") below
        (entries.lookup CURRENT_DIRECTORY) node
      rw [← hnode, ← find_append] at hbelow
      exact hbelow

/-- An installation puts the model in a new `current`, which has no links. -/
theorem install_online_inside (places : Places)
    (h : run (machine host) (install_online host manifest runtime) (root entries) =
      (.ok (), s')) :
    verified host manifest runtime (find [CURRENT_DIRECTORY] s') ∧
      Inside places s' (model_path manifest) := by
  have hstaged := run_install_online h
  have hdone : verified host manifest runtime (find [CURRENT_DIRECTORY] s') := by
    obtain ⟨entries', hs', ⟨-, hdone, -⟩ | ⟨⟨e, he⟩, -⟩⟩ :=
      installs_online host manifest runtime entries
    · obtain rfl := hs'.symm.trans (congrArg Prod.snd h)
      exact hdone
    · cases (congrArg Prod.fst h).symm.trans he
  refine ⟨hdone, ?_⟩
  obtain ⟨below, hcurrent, -⟩ := hdone.managed
  have hregular : NoLinks (find [CURRENT_DIRECTORY] s') :=
    hstaged ▸ noLinks_staged host manifest runtime
  -- no link on the way to the model
  have hwalk : ∀ deeper, deeper <+: "model" :: join [] manifest.model.filename → deeper ≠ [] →
      is_link (find ([] ++ [CURRENT_DIRECTORY] ++ deeper) s') = false := by
    intro deeper _ _
    rw [List.nil_append, find_append, hcurrent]
    exact is_link_regular (hregular _ hcurrent) deeper
  rw [Inside, Places.locate, Places.locate, model_path_eq, locate_from_append,
    locate_from_of_no_link hwalk]
  exact List.prefix_append _ _

/-- The part of `setup` under the lock leaves a verified installation, whose model
    stands as before if it was taken over. -/
theorem verify_or_install_inside (places : Places)
    (h : run (machine host) (verify_or_install host mode manifest runtime) (root entries) =
      (.ok (), s')) :
    verified host manifest runtime (find [CURRENT_DIRECTORY] s') ∧
      (Inside places s' (model_path manifest) ↔
        (mode = .Offline ∨ verified host manifest runtime (entries.lookup CURRENT_DIRECTORY) →
          Inside places (root entries) (model_path manifest))) := by
  by_cases hverified : verified host manifest runtime (entries.lookup CURRENT_DIRECTORY)
  · rw [run_verify_or_install_verified hverified] at h
    obtain rfl := congrArg Prod.snd h
    exact ⟨hverified, ⟨fun hinside _ => hinside, fun hinside => hinside (.inr hverified)⟩⟩
  · rw [run_verify_or_install hverified] at h
    cases mode with
    | Offline =>
      obtain ⟨hdone, hsame⟩ := repair_offline_inside places h
      exact ⟨hdone, hsame.trans ⟨fun hinside _ => hinside, fun hinside => hinside (.inl rfl)⟩⟩
    | Online =>
      obtain ⟨hdone, hinside⟩ := install_online_inside places h
      exact ⟨hdone, iff_of_true hinside fun hkept =>
        absurd hkept (not_or.2 ⟨nofun, hverified⟩)⟩

/-- Whether what `setup` calls ready can be served. -/
theorem setup_matches_iff (places : Places)
    (h : run (machine host) (setup host mode) s = (.ok (.ready profile target), s')) :
    (∃ artifacts, resolve_installed host places .Full s' = .ok artifacts) ↔
      KeptInside host places mode s := by
  have hready : ready host mode s := ⟨profile, target, congrArg Prod.fst h⟩
  obtain ⟨manifest, runtime, profile', target', hchosen⟩ := hready.chosen
  have hpicks : Picks host manifest runtime := ⟨hchosen.parsed, hchosen.selected⟩
  have hnamed : Named manifest runtime := ⟨⟨_, hchosen.profiled⟩, _, hchosen.targeted⟩
  obtain ⟨entries, hroot, hlock, -⟩ := (ready_iff hchosen).1 hready
  obtain ⟨node, hopen, -⟩ := run_open_root host hroot hlock
  rw [setup_eq hchosen, run_bind_ok _ hopen] at h
  obtain ⟨_, s₁, hinstall, h⟩ := (run_bind_eq_ok _).1 h
  obtain rfl : s₁ = s' := congrArg Prod.snd h
  obtain ⟨hdone, hiff⟩ := verify_or_install_inside places hinstall
  -- the lock file is no part of `current`
  have hcurrent : (put entries "install.lock" node).lookup CURRENT_DIRECTORY =
      entries.lookup CURRENT_DIRECTORY := lookup_put_ne entries (by decide) node
  have hfind : ∀ path, find (CURRENT_DIRECTORY :: path) (root (put entries "install.lock" node)) =
      find (CURRENT_DIRECTORY :: path) s := by
    intro path
    rw [hroot.find, find_cons_dir, hcurrent]
  have hinside : Inside places (root (put entries "install.lock" node)) (model_path manifest) ↔
      Inside places s (model_path manifest) :=
    inside_congr (congrArg is_link (hfind [])) fun below => hfind ("model" :: below)
  rw [(verified_at_full.2 hdone).resolve_iff hpicks, and_iff_right hnamed, withinCurrent_iff hdone,
    hiff, hinside, hcurrent, ← find_nil (entries.lookup CURRENT_DIRECTORY), ← hroot.find]
  constructor
  · rintro hkept manifest' runtime' hpicks'
    obtain ⟨rfl, rfl⟩ := hpicks.unique hpicks'
    exact hkept
  · exact fun hkept => hkept manifest runtime hpicks

/-- The verdict of `inspect`, and that of `setup`, match that of `resolve_installed`
    exactly where no link leads what verifies out of `current`. -/
theorem readiness_matches_iff (host : Host) (places : Places) (s : Option Node) :
    (∀ verification, ((inspect host verification s).status = "ready" ↔
        ∃ artifacts, resolve_installed host places verification s = .ok artifacts) ↔
      Resolvable host places verification s) ∧
    ∀ mode profile target s',
      run (machine host) (setup host mode) s = (.ok (.ready profile target), s') →
        ((∃ artifacts, resolve_installed host places .Full s' = .ok artifacts) ↔
          KeptInside host places mode s) :=
  ⟨fun verification => inspect_matches_iff host places verification s,
    fun _ _ _ _ => setup_matches_iff places⟩

/-! ## A model on another disk -/

theorem parse_manifest_eq (h : parse_manifest host = .ok manifest) :
    host.embedded_manifest = some manifest := by
  unfold parse_manifest at h
  cases hembedded : host.embedded_manifest with
  | none =>
    rw [hembedded] at h
    cases h
  | some found =>
    simp only [hembedded, Option.elim_some, Bind.bind, Except.bind] at h
    cases hvalid : validate_manifest host found with
    | error e =>
      rw [hvalid] at h
      cases h
    | ok =>
      rw [hvalid] at h
      rw [Except.ok.inj h]

/-- The root at `/srv/artifacts`, whose links lead to another disk. -/
def small_places : Places where
  root := ["srv", "artifacts"]
  target _ := ["mnt", "model.gguf"]

theorem readiness_matches_small_root : ∃ artifacts, resolve_installed small_host small_places .Full
    (run (machine small_host) (setup small_host .Offline) small_root).2 = .ok artifacts := by
  obtain ⟨profile, target, hready⟩ := ready_small_root
  have hrun : run (machine small_host) (setup small_host .Offline) small_root =
      (.ok (.ready profile target),
        (run (machine small_host) (setup small_host .Offline) small_root).2) := by
    rw [← hready]
  refine ((readiness_matches_iff small_host small_places small_root).2 .Offline profile target _
    hrun).2 fun manifest runtime hpicks _ => ?_
  obtain rfl := Option.some.inj (parse_manifest_eq hpicks.1)
  exact List.isPrefixOf_iff_prefix.1 (by decide +kernel)

/-- The small root, with a link for its model. -/
def redirected_root : Option Node := root [(CURRENT_DIRECTORY, .dir [
  (MANAGED_MARKER, .file MANAGED_MARKER_VALUE.toUTF8.toList),
  ("downloads", .dir [("llama-b10964-bin-ubuntu-x64.tar.gz", .file small_archive)]),
  ("model", .dir [("qwen2.5-0.5b-instruct-q4_k_m.gguf", .link (.file small_model))]),
  (STATE_FILE, .file (pretty small_state ++ "\n").toUTF8.data.toList)])]

/-- `setup` and `inspect` report ready, and nothing is resolved. -/
theorem readiness_differs : ready small_host .Offline redirected_root ∧
    let s' := (run (machine small_host) (setup small_host .Offline) redirected_root).2
    ∀ verification, (inspect small_host verification s').status = "ready" ∧
      ∀ artifacts, resolve_installed small_host small_places verification s' ≠ .ok artifacts := by
  have hrefused : ∀ {r : Except ArtifactError InstalledArtifacts}, r.toBool = false →
      ∀ artifacts, r ≠ .ok artifacts := by
    rintro _ h artifacts rfl
    cases h
  -- one evaluation of the set-up for all that is asked about it
  have hverdicts :
      let out := run (machine small_host) (setup small_host .Offline) redirected_root
      out.1 = .ok (.ready "qwen2.5-0.5b-instruct-q4-k-m" "x86_64-unknown-linux-gnu") ∧
      (inspect small_host .Fast out.2).status = "ready" ∧
      (inspect small_host .Full out.2).status = "ready" ∧
      (resolve_installed small_host small_places .Fast out.2).toBool = false ∧
      (resolve_installed small_host small_places .Full out.2).toBool = false := by
    decide +kernel
  obtain ⟨hready, hfast, hfull, hfast_refused, hfull_refused⟩ := hverdicts
  refine ⟨⟨_, _, hready⟩, fun verification => ?_⟩
  cases verification with
  | Fast => exact ⟨hfast, hrefused hfast_refused⟩
  | Full => exact ⟨hfull, hrefused hfull_refused⟩

end Inferences.Artifacts
