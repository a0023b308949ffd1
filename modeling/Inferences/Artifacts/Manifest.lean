import Inferences.FileTree
import Mathlib

/-!
# The manifest of the curated artifacts

The program carries its manifest with it: one model and a runtime archive for
each target. What the parsers of other packages make of their input is a
parameter (`Host`), as are the network and the SHA-256 digest.
-/

namespace Inferences.Artifacts

/-- The file that marks a directory as the installer's own. -/
def MANAGED_MARKER : String := ".impossible-inferences-managed"

def MANAGED_MARKER_VALUE : String := "impossible-inferences-artifacts-v1\n"

/-- The file that says what is installed. -/
def STATE_FILE : String := "install-state.json"

/-- The directories of the artifact root: the installation, the one being made, the
    one it takes the place of, and a runtime being restored. -/
def CURRENT_DIRECTORY : String := "current"

def STAGING_DIRECTORY : String := ".staging"

def PREVIOUS_DIRECTORY : String := ".previous"

def RUNTIME_RECOVERY_DIRECTORY : String := ".runtime-recovery"

/-- Whether the setup may use the network. -/
inductive SetupMode
  | Online
  | Offline
  deriving DecidableEq

/-- Whether a verification also compares the runtime with its archive. -/
inductive Verification
  | Fast
  | Full
  deriving DecidableEq

/-- What `inspect` reports. -/
structure InstallStatus where
  schema_version : Nat
  profile : String
  target : String
  status : String
  runtime : String
  model : String
  reason : Option String
  deriving DecidableEq

/-- The report on an installation that was verified. -/
def InstallStatus.ready (profile target : String) : InstallStatus where
  schema_version := 1
  profile
  target
  status := "ready"
  runtime := "installed"
  model := "installed"
  reason := none

/-- The errors of the installer. -/
inductive ArtifactError
  | Filesystem
  | Manifest (message : String)
  | UnsupportedPlatform
  | Download
  | Integrity (kind : String)
  | Archive (message : String)
  | OfflineUnavailable
  deriving DecidableEq

/-- The model, and where it is downloaded from. -/
structure ModelArtifact where
  repository : String
  revision : String
  filename : String
  url : String
  size : Nat
  sha256 : String
  license : String
  license_url : String

/-- The formats of a runtime archive. -/
inductive ArchiveFormat
  | Zip
  | TarGz

/-- The runtime archive of one target. -/
structure RuntimeArtifact where
  target : String
  archive_format : ArchiveFormat
  filename : String
  url : String
  size : Nat
  sha256 : String
  strip_prefix : String
  executable : String

/-- The runtime, with an archive for each target. -/
structure RuntimeManifest where
  project : String
  release_tag : String
  semantic_version : String
  source_commit : String
  license : String
  license_url : String
  platforms : List RuntimeArtifact

/-- The manifest: the model and the runtime of one profile. -/
structure ArtifactManifest where
  schema_version : Nat
  product : String
  profile_id : String
  model : ModelArtifact
  runtime : RuntimeManifest

/-- The content of `STATE_FILE`. -/
structure InstallState where
  schema_version : Nat
  product : String
  profile_id : String
  target : String
  runtime_release : String
  runtime_sha256 : String
  model_revision : String
  model_sha256 : String
  runtime_archive : String
  runtime_executable : String
  model_file : String

/-! ## Paths -/

/-- A component of a path. -/
inductive Component
  | RootDir
  | CurDir
  | ParentDir
  | Normal (value : String)
  deriving DecidableEq

/-- `Path::components`: empty parts are dropped, and so is a `.` anywhere but
    at the start. -/
def components (path : String) : List Component :=
  let parts := (path.toList.splitOn '/').map String.ofList
  let component (part : String) : Option Component :=
    if part = "" || part = "." then none
    else if part = ".." then some .ParentDir
    else some (.Normal part)
  (match parts with
    | "" :: _ :: _ => [.RootDir]
    | "." :: _ => [.CurDir]
    | _ => []) ++ parts.filterMap component

/-- The name that a component is, if it is one. -/
def Component.normal : Component → Option String
  | Normal value => some value
  | _ => none

/-- The path that leads nowhere but down, if it is not empty. -/
def safe_relative (path : List Component) : Option Path :=
  if path = [] then none else path.mapM Component.normal

/-- `directory.join(path)`, for a relative path of plain names. -/
def join (directory : Path) (path : String) : Path :=
  directory ++ (components path).filterMap Component.normal

/-- `with_extension`, of a file name. -/
def with_extension (name extension : String) : String :=
  match (name.toList.splitOn '.').dropLast with
  | [] => name ++ "." ++ extension
  | [[]] => name ++ "." ++ extension
  | stem => String.ofList (['.'].intercalate stem) ++ "." ++ extension

/-! ## Other packages -/

/-- The types of the entries of an archive, as far as they are told apart. -/
inductive EntryType
  | dir
  | file
  | symlink
  | other
  deriving DecidableEq

/-- An entry of an archive, as its reader yields it: its content as far as it
    can be read, and whether that is all of it. `unpacks_dir` says that the tar
    reader unpacks it as a directory, whatever its type, as it does with an entry
    that has no ustar header and whose name ends in a slash. -/
structure ArchiveEntry where
  path : Option (List Component)
  entry_type : EntryType
  link_name : Except Unit (Option (List Component))
  content : Bytes
  intact : Bool
  unpacks_dir : Bool := false

/-- A parsed URL, as far as the validation looks at it. -/
structure Url where
  scheme : String
  host : Option String

/-- A response of the network: what the reads of its body yield. -/
structure Response where
  content_length : Option Nat
  reads : List (Except Unit Bytes)

/-- What the program is built with, and what it runs on. -/
structure Host where
  embedded_manifest : Option ArtifactManifest
  host_target : Option String
  parse_url : String → Option Url
  sha256 : Bytes → String
  to_vec_pretty : InstallState → Option Bytes
  from_slice : Bytes → Option InstallState
  zip : Bytes → Option (List (Option ArchiveEntry))
  tar : Bytes → Option (List (Option ArchiveEntry))
  send : String → Except Unit Response

/-! ## Validation -/

def valid_sha256 (value : String) : Bool :=
  value.utf8ByteSize = 64 &&
    value.toList.all fun c => c.isDigit || ('a' ≤ c && c ≤ 'f') || ('A' ≤ c && c ≤ 'F')

def validate_https (host : Host) (value : String) : Except ArtifactError Unit :=
  match host.parse_url value with
  | none => .error (.Manifest "URL cannot be parsed")
  | some url =>
    if url.scheme ≠ "https" || url.host.isNone then .error (.Manifest "URL is not HTTPS")
    else .ok ()

def validate_manifest (host : Host) (manifest : ArtifactManifest) : Except ArtifactError Unit := do
  if manifest.schema_version ≠ 1 || manifest.product ≠ "impossible-inferences-artifacts" then
    throw (.Manifest "wrong schema or product")
  if manifest.profile_id = ""
      || manifest.model.repository ≠ "Qwen/Qwen2.5-0.5B-Instruct-GGUF"
      || manifest.model.revision.utf8ByteSize ≠ 40
      || manifest.model.filename ≠ "qwen2.5-0.5b-instruct-q4_k_m.gguf"
      || manifest.model.size = 0
      || !valid_sha256 manifest.model.sha256
      || manifest.model.license ≠ "Apache-2.0"
      || manifest.runtime.project ≠ "ggml-org/llama.cpp"
      || manifest.runtime.release_tag ≠ "b10964"
      || manifest.runtime.semantic_version ≠ "v0.4.1"
      || manifest.runtime.source_commit.utf8ByteSize ≠ 40
      || manifest.runtime.license ≠ "MIT"
      || manifest.runtime.platforms.length ≠ 2 then
    throw (.Manifest "curated identity is incomplete")
  validate_https host manifest.model.url
  validate_https host manifest.model.license_url
  validate_https host manifest.runtime.license_url
  for runtime in manifest.runtime.platforms do
    if runtime.size = 0
        || !valid_sha256 runtime.sha256
        || (safe_relative (components runtime.filename)).isNone
        || (safe_relative (components runtime.executable)).isNone then
      throw (.Manifest "runtime entry is incomplete")
    validate_https host runtime.url

def parse_manifest (host : Host) : Except ArtifactError ArtifactManifest := do
  let manifest ← host.embedded_manifest.elim (.error (.Manifest "JSON cannot be decoded")) .ok
  validate_manifest host manifest
  return manifest

def profile_name (manifest : ArtifactManifest) : Except ArtifactError String :=
  if manifest.profile_id = "qwen2.5-0.5b-instruct-q4-k-m" then .ok "qwen2.5-0.5b-instruct-q4-k-m"
  else .error (.Manifest "unknown profile")

def target_name (runtime : RuntimeArtifact) : Except ArtifactError String :=
  match runtime.target with
  | "x86_64-pc-windows-msvc" => .ok "x86_64-pc-windows-msvc"
  | "x86_64-unknown-linux-gnu" => .ok "x86_64-unknown-linux-gnu"
  | _ => .error (.Manifest "unknown runtime target")

def select_runtime (manifest : ArtifactManifest) (target : String) :
    Except ArtifactError RuntimeArtifact :=
  (manifest.runtime.platforms.find? (·.target = target)).elim (.error .UnsupportedPlatform) .ok

/-- The checks of an installation record, once it is decoded. -/
def validate_state (state : InstallState) (manifest : ArtifactManifest)
    (runtime : RuntimeArtifact) : Except ArtifactError InstallState :=
  if state.schema_version ≠ 1
      || state.product ≠ manifest.product
      || state.profile_id ≠ manifest.profile_id
      || state.target ≠ runtime.target
      || state.runtime_release ≠ manifest.runtime.release_tag
      || state.runtime_sha256 ≠ runtime.sha256
      || state.model_revision ≠ manifest.model.revision
      || state.model_sha256 ≠ manifest.model.sha256
      || state.runtime_archive ≠ "downloads/" ++ runtime.filename
      || state.runtime_executable ≠ "runtime/" ++ runtime.executable
      || state.model_file ≠ "model/" ++ manifest.model.filename
      || (safe_relative (components state.runtime_archive)).isNone
      || (safe_relative (components state.runtime_executable)).isNone
      || (safe_relative (components state.model_file)).isNone then
    .error (.Manifest "install state identity mismatch")
  else .ok state

end Inferences.Artifacts
