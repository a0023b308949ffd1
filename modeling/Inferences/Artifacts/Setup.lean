import Inferences.Artifacts.Archive

/-!
# Setup

`setup` leaves a verified installation in the directory `current` of the
artifact root. When what is there does not verify, the online mode downloads
and extracts everything into a staging directory, verifies it and promotes it;
the offline mode extracts the runtime again, from the archive that was kept.

The directories that the installer removes carry a marker: one without it is
not the installer's, and is left alone (`assert_managed_directory`).
-/

namespace Inferences.Artifacts

/-- The artifact root is a directory, made when it is not there. -/
def ensure_root : Io Unit := do
  match ← (symlink_metadata []).attempt with
  | .ok metadata =>
    fail_if (metadata.file_type = .symlink || metadata.file_type ≠ .dir)
      (.Manifest "artifact root is not a directory")
  | .error (_ : ArtifactError) => change .create_dir_all []

/-! ## Managed directories -/

/-- The directory is marked as managed. -/
def write_marker (directory : Path) : Io Unit := do
  change .create (directory ++ [MANAGED_MARKER])
  change (.append MANAGED_MARKER_VALUE.toUTF8.toList) (directory ++ [MANAGED_MARKER])

/-- `std::str::from_utf8`. -/
def from_utf8 (bytes : Bytes) : Option String := String.fromUTF8? ⟨bytes.toArray⟩

/-- `fs::read_to_string`. -/
def read_to_string (path : Path) : Io String := do
  let bytes ← read path
  lift ((from_utf8 bytes).elim (.error .Filesystem) .ok)

/-- The path is a directory with the marker in it. -/
def assert_managed_directory (directory : Path) : Io Unit := do
  let metadata ← symlink_metadata directory
  fail_if (metadata.file_type = .symlink || metadata.file_type ≠ .dir)
    (.Manifest "managed path is redirected")
  let marker ← read_to_string (directory ++ [MANAGED_MARKER])
  fail_if (marker ≠ MANAGED_MARKER_VALUE) (.Manifest "managed directory marker is invalid")

/-- A directory is removed only when it is managed. -/
def remove_managed_directory_if_present (directory : Path) : Io Unit := do
  if ← path_exists directory then
    assert_managed_directory directory
    change .remove_dir_all directory

/-! ## Verification -/

/-- A file of the expected size and, when asked to, of the expected digest. -/
def verify_file (host : Host) (path : Path) (expected_size : Nat) (expected_sha256 : String)
    (verification : Verification) (kind : String) : Io Unit := do
  let metadata ← metadata path
  fail_if (metadata.file_type ≠ .file || metadata.len ≠ expected_size) (.Integrity kind)
  if verification = .Full then
    let content ← read path
    fail_if (host.sha256 content ≠ expected_sha256) (.Integrity kind)

/-- The record of the installation, when it fits the manifest. -/
def read_and_validate_state (host : Host) (directory : Path) (manifest : ArtifactManifest)
    (runtime : RuntimeArtifact) : Io InstallState := do
  let state_bytes ← read (directory ++ [STATE_FILE])
  match host.from_slice state_bytes with
  | none => throw (.Manifest "install state cannot be decoded")
  | some state => lift (validate_state state manifest runtime)

/-- The directory holds the installation that the manifest describes. -/
def verify_current (host : Host) (directory : Path) (manifest : ArtifactManifest)
    (runtime : RuntimeArtifact) (verification : Verification) : Io Unit := do
  assert_managed_directory directory
  let state ← read_and_validate_state host directory manifest runtime
  verify_file host (join directory state.runtime_archive) runtime.size runtime.sha256 verification
    "runtime"
  verify_file host (join directory state.model_file) manifest.model.size manifest.model.sha256
    verification "model"
  let executable_metadata ← symlink_metadata (join directory state.runtime_executable)
  fail_if (executable_metadata.file_type = .symlink || executable_metadata.file_type ≠ .file)
    (.Integrity "runtime")
  if verification = .Full then
    verify_runtime_tree host (join directory state.runtime_archive) (directory ++ ["runtime"])
      runtime

/-! ## Downloads -/

/-- `u64::checked_add`. -/
def u64_checked_add (a b : Nat) : Option Nat := if a + b < 2 ^ 64 then some (a + b) else none

/-- `client.get(url).send()?.error_for_status()?`. -/
def send (url : String) : Io Response := .call (.send url) fun
  | .ok response => pure response
  | .error () => throw .Download

/-- The loop of `download_verified`: the body is read and written to `temporary`. -/
def download_body (temporary : Path) (expected_size : Nat) (kind : String) :
    Bytes → List (IoResult Bytes) → Io Bytes
  | received, [] => pure received
  | received, result :: reads => .call (.recv result) fun
    | .error () => throw .Filesystem
    | .ok [] => pure received
    | .ok buffer =>
      match u64_checked_add received.length buffer.length with
      | none => throw (.Integrity kind)
      | some length =>
        if expected_size < length then throw (.Integrity kind)
        else do
          change (.append buffer) temporary
          download_body temporary expected_size kind (received ++ buffer) reads

/-- `destination.with_extension("part")`. -/
def part_path (destination : Path) : Path :=
  destination.dropLast ++ (destination.getLast?.map (with_extension · "part")).toList

/-- A download is moved to its destination when size and digest are as expected. -/
def download_verified (host : Host) (url : String) (destination : Path) (expected_size : Nat)
    (expected_sha256 kind : String) : Io Unit := do
  lift (validate_https host url)
  let response ← send url
  fail_if (response.content_length.any (· ≠ expected_size)) (.Integrity kind)
  let temporary := part_path destination
  change .create temporary
  let received ← download_body temporary expected_size kind [] response.reads
  service .flush
  service .sync_all
  if received.length ≠ expected_size || host.sha256 received ≠ expected_sha256 then
    ignore (change .remove_file temporary)
    throw (.Integrity kind)
  else rename temporary destination

/-! ## Installing -/

/-- The record of the installation is written. -/
def write_state (host : Host) (directory : Path) (state : InstallState) : Io Unit := do
  match host.to_vec_pretty state with
  | none => throw (.Manifest "install state cannot be encoded")
  | some bytes =>
    change .create (directory ++ [STATE_FILE])
    change (.append (bytes ++ "\n".toUTF8.toList)) (directory ++ [STATE_FILE])
    service .sync_all

/-- The record of an installation. -/
def install_state (manifest : ArtifactManifest) (runtime : RuntimeArtifact) : InstallState where
  schema_version := 1
  product := manifest.product
  profile_id := manifest.profile_id
  target := runtime.target
  runtime_release := manifest.runtime.release_tag
  runtime_sha256 := runtime.sha256
  model_revision := manifest.model.revision
  model_sha256 := manifest.model.sha256
  runtime_archive := "downloads/" ++ runtime.filename
  runtime_executable := "runtime/" ++ runtime.executable
  model_file := "model/" ++ manifest.model.filename

/-- The part of `setup` that fills the new directory `staging`. -/
def fill_staging (host : Host) (manifest : ArtifactManifest) (runtime : RuntimeArtifact)
    (staging : Path) : Io Unit := do
  let downloads := staging ++ ["downloads"]
  let runtime_directory := staging ++ ["runtime"]
  let model_directory := staging ++ ["model"]
  change .create_dir downloads
  change .create_dir runtime_directory
  change .create_dir model_directory
  let runtime_archive := join downloads runtime.filename
  let model_file := join model_directory manifest.model.filename
  (service .build_client).map_err fun _ => .Download
  download_verified host runtime.url runtime_archive runtime.size runtime.sha256 "runtime"
  download_verified host manifest.model.url model_file manifest.model.size manifest.model.sha256
    "model"
  extract_runtime host runtime runtime_archive runtime_directory
  fail_if (!(← is_file (join runtime_directory runtime.executable)))
    (.Archive "runtime executable is missing")
  write_state host staging (install_state manifest runtime)

/-- The part of `promote` that moves `current` to `previous`. -/
def set_aside (current previous : Path) : Io Unit := do
  if ← path_exists current then
    assert_managed_directory current
    rename current previous

/-- The part of `promote` that moves `previous` back. -/
def roll_back (previous current : Path) : Io Unit := do
  if ← path_exists previous then
    if !(← path_exists current) then
      ignore (rename previous current)

/-- The part of `promote` that moves the staging directory to `current`. -/
def take_place (staging current previous : Path) : Io Unit := do
  match ← (rename staging current).attempt with
  | .error error =>
    roll_back previous current
    throw error
  | .ok () => remove_managed_directory_if_present previous

/-- The staging directory takes the place of the installation. -/
def promote (staging current : Path) : Io Unit := do
  let previous := [PREVIOUS_DIRECTORY]
  remove_managed_directory_if_present previous
  set_aside current previous
  take_place staging current previous

/-- The part of `recover_runtime` that makes the directory `recovery`, with the
    runtime of the archive in it. -/
def fill_recovery (host : Host) (runtime : RuntimeArtifact) (recovery runtime_archive : Path) :
    Io Unit := do
  let recovered_runtime := recovery ++ ["runtime"]
  change .create_dir recovered_runtime
  extract_runtime host runtime runtime_archive recovered_runtime
  fail_if (!(← is_file (join recovered_runtime runtime.executable)))
    (.Archive "runtime executable is missing")

/-- The part of `recover_runtime` that makes sure of the archive and the model. -/
def check_kept (host : Host) (current : Path) (manifest : ArtifactManifest)
    (runtime : RuntimeArtifact) : Io InstallState := do
  assert_managed_directory current
  let state ← read_and_validate_state host current manifest runtime
  verify_file host (join current state.runtime_archive) runtime.size runtime.sha256 .Full "runtime"
  verify_file host (join current state.model_file) manifest.model.size manifest.model.sha256 .Full
    "model"
  return state

/-- The part of `recover_runtime` that removes the old runtime. -/
def remove_runtime (installed_runtime : Path) : Io Unit := do
  if ← path_exists installed_runtime then
    let metadata ← symlink_metadata installed_runtime
    fail_if (metadata.file_type = .symlink || metadata.file_type ≠ .dir)
      (.Manifest "installed runtime path is redirected")
    change .remove_dir_all installed_runtime

/-- The runtime is extracted again from the archive of the installation. -/
def recover_runtime (host : Host) (current : Path) (manifest : ArtifactManifest)
    (runtime : RuntimeArtifact) : Io Unit := do
  let state ← check_kept host current manifest runtime
  let recovery := [RUNTIME_RECOVERY_DIRECTORY]
  remove_managed_directory_if_present recovery
  change .create_dir recovery
  write_marker recovery
  fill_recovery host runtime recovery (join current state.runtime_archive)
  remove_runtime (current ++ ["runtime"])
  rename (recovery ++ ["runtime"]) (current ++ ["runtime"])
  remove_managed_directory_if_present recovery

/-- The parts of `setup` that need `current` not to verify. -/
def repair_offline (host : Host) (manifest : ArtifactManifest) (runtime : RuntimeArtifact) :
    Io Unit := do
  (recover_runtime host [CURRENT_DIRECTORY] manifest runtime).map_err fun _ => .OfflineUnavailable
  (verify_current host [CURRENT_DIRECTORY] manifest runtime .Full).map_err fun _ =>
    .OfflineUnavailable

/-- The part of `setup` that puts the new installation in place. -/
def publish (host : Host) (manifest : ArtifactManifest) (runtime : RuntimeArtifact) : Io Unit := do
  verify_current host [STAGING_DIRECTORY] manifest runtime .Full
  promote [STAGING_DIRECTORY] [CURRENT_DIRECTORY]
  verify_current host [CURRENT_DIRECTORY] manifest runtime .Full

/-- A whole installation, made aside and then promoted. -/
def install_online (host : Host) (manifest : ArtifactManifest) (runtime : RuntimeArtifact) :
    Io Unit := do
  let staging := [STAGING_DIRECTORY]
  remove_managed_directory_if_present staging
  change .create_dir staging
  write_marker staging
  fill_staging host manifest runtime staging
  publish host manifest runtime

/-- The part of `setup` that is done under the lock. -/
def verify_or_install (host : Host) (mode : SetupMode) (manifest : ArtifactManifest)
    (runtime : RuntimeArtifact) : Io Unit := do
  match ← (verify_current host [CURRENT_DIRECTORY] manifest runtime .Full).attempt with
  | .ok () => return
  | .error (_ : ArtifactError) =>
    match mode with
    | .Offline => repair_offline host manifest runtime
    | .Online => install_online host manifest runtime

/-- The setup: what is installed is verified, else repaired or installed. -/
def setup (host : Host) (mode : SetupMode) : Io InstallStatus := do
  let manifest ← lift (parse_manifest host)
  let target ← lift (host.host_target.elim (.error .UnsupportedPlatform) .ok)
  let runtime ← lift (select_runtime manifest target)
  ensure_root
  change .open_lock ["install.lock"]
  service .lock_exclusive
  verify_or_install host mode manifest runtime
  return .ready (← lift (profile_name manifest)) (← lift (target_name runtime))

end Inferences.Artifacts
