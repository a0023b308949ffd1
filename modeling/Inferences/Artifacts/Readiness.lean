import Inferences.Artifacts.Repair

/-!
# When setup returns ready

`setup` returns ready from a root if and only if the root is a directory, or
is not there, its lock can be opened, and what is below it is enough for the
mode (`ready_iff`).
-/

namespace Inferences.Artifacts

open Node Program

variable {host : Host} {manifest : ArtifactManifest} {runtime : RuntimeArtifact}
  {entries : List (String × Node)} {mode : SetupMode} {profile target : String}
  {s : Option Node}

/-- A run of `setup` in which every operation does what it should returns `ready`. -/
def ready (host : Host) (mode : SetupMode) (s : Option Node) : Prop :=
  ∃ profile target, (run (machine host) (setup host mode) s).1 = .ok (.ready profile target)

/-- What `setup` knows before it looks at its root. -/
structure Chosen (host : Host) (manifest : ArtifactManifest) (runtime : RuntimeArtifact)
    (profile target : String) : Prop where
  parsed : parse_manifest host = .ok manifest
  selected : ∃ host_target, host.host_target = some host_target ∧
    select_runtime manifest host_target = .ok runtime
  profiled : profile_name manifest = .ok profile
  targeted : target_name runtime = .ok target

/-- The parts of `setup` that come before the first look at `current`. -/
def open_root : Io Unit := do
  ensure_root
  change .open_lock ["install.lock"]
  service .lock_exclusive

theorem setup_eq (h : Chosen host manifest runtime profile target) :
    setup host mode = do
      open_root
      verify_or_install host mode manifest runtime
      return .ready profile target := by
  obtain ⟨hparsed, ⟨host_target, htarget, hselected⟩, hprofiled, htargeted⟩ := h
  rw [setup, hparsed, htarget]
  simp only [lift, done_ok_bind, Option.elim, hselected, hprofiled, htargeted, open_root,
    bind_assoc']

/-- A run of `setup` fails before it looks at the root, or knows what to install. -/
theorem setup_cases (host : Host) (mode : SetupMode) :
    (∃ e, setup host mode = .done (.error e)) ∨ ∃ manifest target runtime result,
      parse_manifest host = .ok manifest ∧ host.host_target = some target ∧
        select_runtime manifest target = .ok runtime ∧ setup host mode =
          open_root >>= fun _ => verify_or_install host mode manifest runtime >>= fun _ =>
            .done result := by
  unfold setup
  cases hparsed : parse_manifest host with
  | error e => exact .inl ⟨e, rfl⟩
  | ok manifest =>
    rw [lift_ok_bind]
    cases htarget : host.host_target with
    | none => exact .inl ⟨_, rfl⟩
    | some target =>
      rw [Option.elim_some, lift_ok_bind]
      cases hselected : select_runtime manifest target with
      | error e => exact .inl ⟨e, rfl⟩
      | ok runtime =>
        have hfinish : ∃ result, (do
            let profile ← lift (profile_name manifest)
            return .ready profile (← lift (target_name runtime)) : Io InstallStatus) =
              .done result := by
          cases profile_name manifest with
          | error e => exact ⟨_, rfl⟩
          | ok profile =>
            cases target_name runtime with
            | error e => exact ⟨_, rfl⟩
            | ok target => exact ⟨_, rfl⟩
        obtain ⟨result, hresult⟩ := hfinish
        refine .inr ⟨manifest, target, runtime, result, rfl, rfl, hselected, ?_⟩
        rw [lift_ok_bind, open_root, ← hresult]
        simp only [bind_assoc']

theorem ready.chosen (h : ready host mode s) :
    ∃ manifest runtime profile target, Chosen host manifest runtime profile target := by
  obtain ⟨_, _, h⟩ := h
  obtain ⟨manifest, s₁, hparsed, h⟩ := (run_bind_eq_ok _).1 (Prod.ext h rfl)
  obtain ⟨host_target, s₂, htarget, h⟩ := (run_bind_eq_ok _).1 h
  obtain ⟨runtime, s₃, hselected, h⟩ := (run_bind_eq_ok _).1 h
  obtain ⟨_, s₄, -, h⟩ := (run_bind_eq_ok _).1 h
  obtain ⟨_, s₅, -, h⟩ := (run_bind_eq_ok _).1 h
  obtain ⟨_, s₆, -, h⟩ := (run_bind_eq_ok _).1 h
  obtain ⟨_, s₇, -, h⟩ := (run_bind_eq_ok _).1 h
  obtain ⟨profile, s₈, hprofiled, h⟩ := (run_bind_eq_ok _).1 h
  obtain ⟨target, s₉, htargeted, -⟩ := (run_bind_eq_ok _).1 h
  refine ⟨manifest, runtime, profile, target, congrArg Prod.fst hparsed, ⟨host_target, ?_,
    congrArg Prod.fst hselected⟩, congrArg Prod.fst hprofiled, congrArg Prod.fst htargeted⟩
  cases hhost : host.host_target with
  | none =>
    rw [hhost] at htarget
    cases htarget
  | some host_target =>
    rw [hhost] at htarget
    cases htarget
    rfl

/-! ## The root and its lock -/

/-- What is below the root, also when the root is not there yet. -/
def rooted (s : Option Node) (entries : List (String × Node)) : Prop :=
  (s = none ∧ entries = []) ∨ s = root entries

theorem rooted.unique {entries' : List (String × Node)} (h : rooted s entries)
    (h' : rooted s entries') : entries = entries' := by
  rcases h with ⟨rfl, rfl⟩ | rfl <;> rcases h' with ⟨h, rfl⟩ | h <;> cases h <;> rfl

/-- What is below the root, link or directory, is below its entries. -/
theorem rooted.find (h : rooted s entries) (name : String) (path : Path) :
    Node.find (name :: path) s = Node.find path (entries.lookup name) := by
  rcases h with ⟨rfl, rfl⟩ | rfl
  · rfl
  · exact find_cons_dir name path entries

/-- The lock can be opened, or made. -/
def lockable (entries : List (String × Node)) : Prop :=
  (Change.open_lock.act (entries.lookup "install.lock")).isSome = true

/-- A file that can be opened can be opened again. -/
theorem open_lock_again {node node' : Option Node} (h : Change.open_lock.act node = some node') :
    (Change.open_lock.act node').isSome = true := by
  cases node with
  | none =>
    cases h
    rfl
  | some node =>
    obtain ⟨node', hnode, rfl⟩ := Option.map_eq_some_iff.1 h
    simp only [Change.act, overwrite_overwrite node hnode, Option.isSome_map]
    exact Option.isSome_of_eq_some hnode

/-- A directory that is made where something is leaves it as it was. -/
theorem create_dir_all_again {node : Node} {node' : Option Node}
    (h : Change.create_dir_all.act (some node) = some node') : node' = some node := by
  rw [Change.act] at h
  split at h
  · exact (Option.some.inj h).symm
  · cases h

theorem run_ensure_root (h : rooted s entries) :
    run (machine host) ensure_root s = (.ok (), root entries) := by
  rcases h with ⟨rfl, rfl⟩ | rfl <;> rfl

theorem run_open_root (host : Host) (h : rooted s entries) (hlock : lockable entries) :
    ∃ node, run (machine host) open_root s = (.ok (), root (put entries "install.lock" node)) ∧
      lockable (put entries "install.lock" node) := by
  obtain ⟨node, hnode⟩ := Option.isSome_iff_exists.1 hlock
  refine ⟨node, ?_, ?_⟩
  · rw [open_root, run_bind_ok _ (run_ensure_root h)]
    have hopen : Change.open_lock.apply ["install.lock"] (root entries) =
        some (root (put entries "install.lock" node)) := by
      rw [apply_root, hnode]
      rfl
    rw [run_bind_ok _ (run_change hopen)]
    rfl
  · rw [lockable, lookup_put_self]
    exact open_lock_again hnode

theorem run_open_root_error (host : Host) (h : ¬ ∃ entries, rooted s entries ∧ lockable entries) :
    ∃ e s', run (machine host) open_root s = (.error e, s') := by
  by_cases hroot : ∃ entries, rooted s entries
  · obtain ⟨entries, hroot⟩ := hroot
    have hopen : Change.open_lock.apply ["install.lock"] (root entries) = none := by
      rw [apply_root, Option.not_isSome_iff_eq_none.1 fun hlock => h ⟨entries, hroot, hlock⟩]
      rfl
    rw [open_root, run_bind_ok _ (run_ensure_root hroot),
      run_bind_error _ (run_change_error hopen)]
    exact ⟨_, _, rfl⟩
  · cases s with
    | none => exact absurd ⟨[], .inl ⟨rfl, rfl⟩⟩ hroot
    | some node =>
      cases node with
      | dir entries => exact absurd ⟨entries, .inr rfl⟩ hroot
      | _ => exact ⟨_, _, rfl⟩

/-! ## Below the root -/

/-- What is below the root is enough for the mode. -/
def lasting (host : Host) (manifest : ArtifactManifest) (runtime : RuntimeArtifact)
    (mode : SetupMode) (entries : List (String × Node)) : Prop :=
  verified host manifest runtime (entries.lookup CURRENT_DIRECTORY) ∨
    match mode with
    | .Online => installable host manifest runtime entries
    | .Offline => repairable host manifest runtime entries

/-- The part of `setup` for a root whose `current` does not verify. -/
def install (host : Host) (manifest : ArtifactManifest) (runtime : RuntimeArtifact) :
    SetupMode → Io Unit
  | .Offline => repair_offline host manifest runtime
  | .Online => install_online host manifest runtime

theorem verify_or_install_eq : verify_or_install host mode manifest runtime =
    (verify_current host [CURRENT_DIRECTORY] manifest runtime .Full).attempt >>= fun
      | .ok () => pure ()
      | .error (_ : ArtifactError) => install host manifest runtime mode := by
  cases mode <;> rfl

theorem run_verify_or_install
    (hverified : ¬ verified host manifest runtime (entries.lookup CURRENT_DIRECTORY)) :
    run (machine host) (verify_or_install host mode manifest runtime) (root entries) =
      run (machine host) (install host manifest runtime mode) (root entries) := by
  obtain ⟨e, he⟩ := run_verify_error hverified
  rw [verify_or_install_eq, run_bind, run_attempt, he]

theorem run_verify_or_install_verified
    (hverified : verified host manifest runtime (entries.lookup CURRENT_DIRECTORY)) :
    run (machine host) (verify_or_install host mode manifest runtime) (root entries) =
      (.ok (), root entries) := by
  rw [verify_or_install_eq, run_bind, run_attempt, hverified.run]
  rfl

theorem verify_or_install_ok_iff (host : Host) (manifest : ArtifactManifest)
    (runtime : RuntimeArtifact) (mode : SetupMode) (entries : List (String × Node)) :
    (run (machine host) (verify_or_install host mode manifest runtime) (root entries)).1 = .ok () ↔
      lasting host manifest runtime mode entries := by
  by_cases hverified : verified host manifest runtime (entries.lookup CURRENT_DIRECTORY)
  · rw [run_verify_or_install_verified hverified]
    exact ⟨fun _ => .inl hverified, fun _ => rfl⟩
  · rw [run_verify_or_install hverified]
    unfold lasting
    rw [or_iff_right hverified]
    cases mode with
    | Online => exact install_online_ok_iff host manifest runtime entries
    | Offline => exact repair_offline_ok_iff host manifest runtime entries

/-- Only four entries matter. -/
theorem lasting_congr {entries' : List (String × Node)}
    (hcurrent : entries'.lookup CURRENT_DIRECTORY = entries.lookup CURRENT_DIRECTORY)
    (hstaging : entries'.lookup STAGING_DIRECTORY = entries.lookup STAGING_DIRECTORY)
    (hprevious : entries'.lookup PREVIOUS_DIRECTORY = entries.lookup PREVIOUS_DIRECTORY)
    (hrecovery : entries'.lookup RUNTIME_RECOVERY_DIRECTORY =
      entries.lookup RUNTIME_RECOVERY_DIRECTORY) :
    lasting host manifest runtime mode entries' ↔ lasting host manifest runtime mode entries := by
  cases mode <;>
    simp only [lasting, installable, repairable, hcurrent, hstaging, hprevious, hrecovery]

theorem lasting_put_lock (node : Option Node) :
    lasting host manifest runtime mode (put entries "install.lock" node) ↔
      lasting host manifest runtime mode entries :=
  lasting_congr (lookup_put_ne _ (by decide) _) (lookup_put_ne _ (by decide) _)
    (lookup_put_ne _ (by decide) _) (lookup_put_ne _ (by decide) _)

/-- When `setup` returns ready. -/
theorem ready_iff (h : Chosen host manifest runtime profile target) :
    ready host mode s ↔ ∃ entries, rooted s entries ∧ lockable entries ∧
      lasting host manifest runtime mode entries := by
  rw [ready, setup_eq h]
  by_cases hroot : ∃ entries, rooted s entries ∧ lockable entries
  · obtain ⟨entries, hroot, hlock⟩ := hroot
    obtain ⟨node, hopen, -⟩ := run_open_root host hroot hlock
    have hiff := verify_or_install_ok_iff host manifest runtime mode
      (put entries "install.lock" node)
    rw [lasting_put_lock] at hiff
    rw [run_bind_ok _ hopen, run_bind]
    constructor
    · rintro ⟨_, _, h⟩
      refine ⟨entries, hroot, hlock, hiff.1 ?_⟩
      split at h
      · rename_i heq
        rw [heq]
      · cases h
    · rintro ⟨entries', hroot', -, h⟩
      obtain rfl := hroot.unique hroot'
      refine ⟨profile, target, ?_⟩
      have hok := hiff.2 h
      split
      · rfl
      · rename_i heq
        rw [heq] at hok
        cases hok
  · obtain ⟨e, s', hopen⟩ := run_open_root_error host hroot
    rw [run_bind_error _ hopen]
    refine ⟨fun ⟨_, _, h⟩ => (by cases h), ?_⟩
    rintro ⟨entries, hr, hl, -⟩
    exact absurd ⟨entries, hr, hl⟩ hroot

/-! ## A small archive -/

/-- A compressed tar archive with the file `llama-b10964/llama-server`, which
    has one byte. -/
def small_archive : Bytes := [
    31, 139, 8, 0, 0, 0, 0, 0, 2, 255, 203, 201, 73, 204, 77, 212, 77, 50, 52, 176, 52, 51,
    209, 207, 1, 115, 138, 83, 139, 202, 82, 139, 24, 168, 7, 12, 128, 192, 220, 212, 20, 76,
    3, 1, 58, 13, 4, 134, 72, 108, 160, 184, 161, 145, 161, 153, 41, 131, 130, 1, 3, 29, 64,
    105, 113, 73, 98, 17, 208, 122, 134, 145, 9, 234, 25, 70, 193, 40, 24, 5, 163, 96, 20,
    140, 68, 0, 0, 194, 80, 40, 68, 0, 8, 0, 0]

/-- The entry of the small archive. -/
def small_entry : ArchiveEntry where
  path := some [.Normal "llama-b10964", .Normal "llama-server"]
  entry_type := .file
  link_name := .ok none
  content := [127]
  intact := true

/-- A model of four bytes. -/
def small_model : Bytes := [71, 71, 85, 70]

/-- Where the manifest has the runtime for Linux. -/
def runtime_url : String :=
  "https://github.com/ggml-org/llama.cpp/releases/download/b10964/" ++
    "llama-b10964-bin-ubuntu-x64.tar.gz"

/-- Where the manifest has the model. -/
def model_url : String :=
  "https://huggingface.co/Qwen/Qwen2.5-0.5B-Instruct-GGUF/resolve/" ++
    "9217f5db79a29953eb74d5343926648285ec7e67/qwen2.5-0.5b-instruct-q4_k_m.gguf?download=true"

/-- The manifest, with the sizes and digests of the small archive and model. -/
def small_manifest : ArtifactManifest where
  schema_version := 1
  product := "impossible-inferences-artifacts"
  profile_id := "qwen2.5-0.5b-instruct-q4-k-m"
  model := {
    repository := "Qwen/Qwen2.5-0.5B-Instruct-GGUF"
    revision := "9217f5db79a29953eb74d5343926648285ec7e67"
    filename := "qwen2.5-0.5b-instruct-q4_k_m.gguf"
    url := model_url
    size := 4
    sha256 := "b83633aa785344791618f2fddf131b010ea04912a60430760b070bad293f65bd"
    license := "Apache-2.0"
    license_url := "https://huggingface.co/Qwen/Qwen2.5-0.5B-Instruct-GGUF/blob/" ++
      "9217f5db79a29953eb74d5343926648285ec7e67/LICENSE" }
  runtime := {
    project := "ggml-org/llama.cpp"
    release_tag := "b10964"
    semantic_version := "v0.4.1"
    source_commit := "b29c606e28a01b1bc8c1351026a0fa6e616bf6c4"
    license := "MIT"
    license_url := "https://github.com/ggml-org/llama.cpp/blob/" ++
      "b29c606e28a01b1bc8c1351026a0fa6e616bf6c4/LICENSE"
    platforms := [
      { target := "x86_64-pc-windows-msvc"
        archive_format := .Zip
        filename := "llama-b10964-bin-win-cpu-x64.zip"
        url := "https://github.com/ggml-org/llama.cpp/releases/download/b10964/" ++
          "llama-b10964-bin-win-cpu-x64.zip"
        size := 18427629
        sha256 := "917f39c076402c421224824607397af20f53625a60defc20e8dd22446bf4c5d7"
        strip_prefix := ""
        executable := "llama-server.exe" },
      { target := "x86_64-unknown-linux-gnu"
        archive_format := .TarGz
        filename := "llama-b10964-bin-ubuntu-x64.tar.gz"
        url := runtime_url
        size := 95
        sha256 := "a9515cc7859a427f5f7e6343a95c43a568c23debf7e4d11839db7e930a755e74"
        strip_prefix := "llama-b10964"
        executable := "llama-server" }] }

/-- `serde_json::to_vec_pretty`, for strings that need no escapes. -/
def pretty (state : InstallState) : String :=
  let field (name value : String) := ",\n  \"" ++ name ++ "\": \"" ++ value ++ "\""
  "\x7b\n  \"schema_version\": " ++ toString state.schema_version ++
    field "product" state.product ++ field "profile_id" state.profile_id ++
    field "target" state.target ++ field "runtime_release" state.runtime_release ++
    field "runtime_sha256" state.runtime_sha256 ++ field "model_revision" state.model_revision ++
    field "model_sha256" state.model_sha256 ++ field "runtime_archive" state.runtime_archive ++
    field "runtime_executable" state.runtime_executable ++
    field "model_file" state.model_file ++ "\n\x7d"

/-- The record of its installation. -/
def small_state : InstallState where
  schema_version := 1
  product := "impossible-inferences-artifacts"
  profile_id := "qwen2.5-0.5b-instruct-q4-k-m"
  target := "x86_64-unknown-linux-gnu"
  runtime_release := "b10964"
  runtime_sha256 := "a9515cc7859a427f5f7e6343a95c43a568c23debf7e4d11839db7e930a755e74"
  model_revision := "9217f5db79a29953eb74d5343926648285ec7e67"
  model_sha256 := "b83633aa785344791618f2fddf131b010ea04912a60430760b070bad293f65bd"
  runtime_archive := "downloads/llama-b10964-bin-ubuntu-x64.tar.gz"
  runtime_executable := "runtime/llama-server"
  model_file := "model/qwen2.5-0.5b-instruct-q4_k_m.gguf"

/-- A host whose network has the small archive and model. What the other
    packages make of these bytes is what they are. -/
def small_host : Host where
  embedded_manifest := some small_manifest
  host_target := some "x86_64-unknown-linux-gnu"
  parse_url url :=
    if url.startsWith "https://huggingface.co/" then some ⟨"https", some "huggingface.co"⟩
    else if url.startsWith "https://github.com/" then some ⟨"https", some "github.com"⟩
    else none
  sha256 bytes :=
    if bytes = small_archive then
      "a9515cc7859a427f5f7e6343a95c43a568c23debf7e4d11839db7e930a755e74"
    else if bytes = small_model then
      "b83633aa785344791618f2fddf131b010ea04912a60430760b070bad293f65bd"
    else "620bfdaa346b088fb49998d92f19a7eaf6bfc2fb0aee015753966da1028cb731"
  to_vec_pretty state := some (pretty state).toUTF8.data.toList
  from_slice bytes :=
    if bytes = (pretty small_state ++ "\n").toUTF8.data.toList then some small_state else none
  zip _ := none
  tar bytes :=
    if bytes = small_archive then
      some [some small_entry]
    else none
  send url :=
    if url = runtime_url then .ok ⟨some 95, [.ok small_archive]⟩
    else if url = model_url then .ok ⟨some 4, [.ok small_model]⟩
    else .error ()

end Inferences.Artifacts
