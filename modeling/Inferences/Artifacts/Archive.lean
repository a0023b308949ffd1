import Inferences.Artifacts.Disk
import Mathlib

/-!
# Archives

The installer extracts the files of the runtime archive below a directory
(`extract_runtime`), and later compares the digests of what is there
(`collect_tree_digests`) with those of the files of the archive
(`archive_tree_digests`). Links of a tar archive are replaced by copies of the
files they lead to.
-/

namespace Inferences.Artifacts

/-- The digests of files, by relative path. -/
abbrev Digests := Finmap fun _ : Path => String

/-- The targets of links, by relative path. -/
abbrev Links := Finmap fun _ : Path => List Component

/-- What follows the prefix, if the path starts with it. -/
def strip_prefix : List Component → Path → Option Path
  | [], path => some path
  | .Normal value :: components, name :: path =>
    if value = name then strip_prefix components path else none
  | _, _ => none

/-- The path of an entry below the destination; none for the prefix itself. -/
def strip_archive_prefix (path : List Component) (prefix_path : String) :
    Except ArtifactError (Option Path) :=
  match safe_relative path with
  | none => .error (.Archive "unsafe archive path")
  | some safe =>
    if prefix_path = "" then .ok (some safe)
    else match strip_prefix (components prefix_path) safe with
      | some [] => .ok none
      | some path => .ok (some path)
      | none => .error (.Archive "archive prefix mismatch")

/-- The path starts at the root of the file system. -/
def is_absolute (path : List Component) : Bool := path.head? = some .RootDir

/-- The parts of a path, after one more component. -/
def push_component (parts : Path) : Component → Option Path
  | .Normal value => some (parts ++ [value])
  | .ParentDir => if parts = [] then none else some parts.dropLast
  | .CurDir => some parts
  | .RootDir => none

/-- The path a link leads to, if it stays below the destination. -/
def normalize_join (base : Path) (target : List Component) : Option Path :=
  if is_absolute target then none
  else match target.foldlM push_component base with
    | some [] => none
    | path => path

/-- The loop of `resolve_link_source`, with the turns that are left. -/
def resolve_link (links : Links) : Nat → Path → Except ArtifactError Path
  | 0, _ => .error (.Archive "tar link cycle rejected")
  | turns + 1, current =>
    match links.lookup current with
    | none => .ok current
    | some target =>
      match normalize_join current.dropLast target with
      | none => .error (.Archive "tar link escapes destination")
      | some next => resolve_link links turns next

/-- The path at the end of the links that start at `link`. -/
def resolve_link_source (link : Path) (links : Links) : Except ArtifactError Path :=
  resolve_link links (links.keys.card + 1) link

/-- The keys of the map, in order. -/
def link_keys (links : Links) : List Path := links.keys.sort

/-! ## Digests -/

/-- The digest of an entry, if it can be read to its end. -/
def digest_entry (host : Host) (entry : ArchiveEntry) : Except ArtifactError String :=
  if entry.intact then .ok (host.sha256 entry.content) else .error .Filesystem

/-- The digests after one more entry of a ZIP archive. -/
def zip_entry_digest (host : Host) (prefix_path : String) (files : Digests) :
    Option ArchiveEntry → Except ArtifactError Digests
  | none => .error (.Archive "ZIP entry rejected")
  | some entry =>
    match entry.path with
    | none => .error (.Archive "ZIP path escapes destination")
    | some enclosed => do
      match ← strip_archive_prefix enclosed prefix_path with
      | none => return files
      | some relative =>
        if entry.entry_type = .dir then return files
        if entry.entry_type ≠ .file then
          throw (.Archive "unsupported or duplicate ZIP entry")
        let digest ← digest_entry host entry
        if (files.lookup relative).isSome then
          throw (.Archive "unsupported or duplicate ZIP entry")
        return files.insert relative digest

/-- The digests of the files of a ZIP archive. -/
def zip_tree_digests (host : Host) (file : Bytes) (prefix_path : String) :
    Except ArtifactError Digests :=
  match host.zip file with
  | none => .error (.Archive "ZIP rejected")
  | some entries => entries.foldlM (zip_entry_digest host prefix_path) ∅

/-- The digests and the links after one more entry of a tar archive. -/
def tar_entry_digest (host : Host) (prefix_path : String) (tree : Digests × Links) :
    Option ArchiveEntry → Except ArtifactError (Digests × Links)
  | none => .error (.Archive "tar entry rejected")
  | some entry =>
    match entry.path with
    | none => .error (.Archive "tar path rejected")
    | some path => do
      match ← strip_archive_prefix path prefix_path with
      | none => return tree
      | some relative =>
        match entry.entry_type with
        | .dir => return tree
        | .file =>
          let digest ← digest_entry host entry
          if (tree.1.lookup relative).isSome then throw (.Archive "duplicate tar entry")
          return (tree.1.insert relative digest, tree.2)
        | .symlink =>
          match entry.link_name with
          | .error () => throw (.Archive "tar link rejected")
          | .ok none => throw (.Archive "tar link target missing")
          | .ok (some target) =>
            if is_absolute target || (tree.2.lookup relative).isSome then
              throw (.Archive "invalid tar link")
            return (tree.1, tree.2.insert relative target)
        | .other => throw (.Archive "unsupported tar entry type")

/-- The digests after the copy of the file that a link leads to. -/
def tar_link_digest (links : Links) (files : Digests) (link : Path) :
    Except ArtifactError Digests := do
  let source ← resolve_link_source link links
  match files.lookup source with
  | none => throw (.Archive "tar link target is not a file")
  | some digest =>
    if (files.lookup link).isSome then throw (.Archive "duplicate tar entry")
    return files.insert link digest

/-- The digests of the files of a tar archive, copies for links included. -/
def tar_tree_digests (host : Host) (file : Bytes) (prefix_path : String) :
    Except ArtifactError Digests :=
  match host.tar file with
  | none => .error (.Archive "tar rejected")
  | some entries => do
    let (files, links) ← entries.foldlM (tar_entry_digest host prefix_path) (∅, ∅)
    (link_keys links).foldlM (tar_link_digest links) files

def archive_tree_digests (host : Host) (archive : Path) (runtime : RuntimeArtifact) :
    Io Digests := do
  let file ← read archive
  service .archive
  lift (match runtime.archive_format with
    | .Zip => zip_tree_digests host file runtime.strip_prefix
    | .TarGz => tar_tree_digests host file runtime.strip_prefix)

mutual

/-- The digests of the files of a directory, beside those of `files`. -/
def collect_tree_digests (host : Host) (relative : Path) (files : Digests) :
    Node → Except ArtifactError Digests
  | .dir entries => collect_entries host relative files entries
  | _ => .error (.Integrity "runtime")

def collect_entries (host : Host) (relative : Path) (files : Digests) :
    List (String × Node) → Except ArtifactError Digests
  | [] => .ok files
  | (name, .dir below) :: entries => do
    let files ← collect_tree_digests host (relative ++ [name]) files (.dir below)
    collect_entries host relative files entries
  | (name, .file content) :: entries =>
    if (files.lookup (relative ++ [name])).isSome then .error (.Integrity "runtime")
    else
      collect_entries host relative (files.insert (relative ++ [name]) (host.sha256 content))
        entries
  | _ => .error (.Integrity "runtime")

end

def verify_runtime_tree (host : Host) (archive installed : Path) (runtime : RuntimeArtifact) :
    Io Unit := do
  let expected ← archive_tree_digests host archive runtime
  fail_if (expected.lookup (join [] runtime.executable)).isNone
    (.Archive "runtime executable is missing")
  let tree ← read_tree installed
  let actual ← lift (collect_tree_digests host [] ∅ tree)
  fail_if (expected ≠ actual) (.Integrity "runtime")

/-! ## Extraction -/

/-- Writing an entry to a file, as far as it can be read: `io::copy`, to a new
    `File`. -/
def write_entry (target : Path) (entry : ArchiveEntry) : Io Unit := do
  change .create target
  change (.append entry.content) target
  fail_if (!entry.intact) .Filesystem

/-- `Entry::unpack` of the tar reader, for an entry that is no link: a directory,
    or the whole content in a file. Which of them is a matter of the reader. -/
def unpack (target : Path) (entry : ArchiveEntry) : Io Unit :=
  if entry.unpacks_dir then change .create_dir_all target else write_entry target entry

def extract_zip_entry (destination : Path) (prefix_path : String)
    (entry : Option ArchiveEntry) : Io Unit := do
  (service .archive).map_err fun _ => .Archive "ZIP entry rejected"
  match entry with
  | none => throw (.Archive "ZIP entry rejected")
  | some entry =>
    match entry.path with
    | none => throw (.Archive "ZIP path escapes destination")
    | some enclosed =>
      match ← lift <| strip_archive_prefix enclosed prefix_path with
      | none => return
      | some relative =>
        if entry.entry_type = .dir then
          change .create_dir_all (destination ++ relative)
        else if entry.entry_type ≠ .file then throw (.Archive "unsupported ZIP entry type")
        else
          change .create_dir_all (destination ++ relative.dropLast)
          write_entry (destination ++ relative) entry

def extract_zip (host : Host) (archive destination : Path) (prefix_path : String) :
    Io Unit := do
  let file ← read archive
  (service .archive).map_err fun _ => .Archive "ZIP rejected"
  match host.zip file with
  | none => throw (.Archive "ZIP rejected")
  | some entries => entries.forM (extract_zip_entry destination prefix_path)

def extract_tar_entry (destination : Path) (prefix_path : String) (links : Links)
    (entry : Option ArchiveEntry) : Io Links := do
  (service .archive).map_err fun _ => .Archive "tar entry rejected"
  match entry with
  | none => throw (.Archive "tar entry rejected")
  | some entry =>
    match entry.path with
    | none => throw (.Archive "tar path rejected")
    | some path =>
      match ← lift <| strip_archive_prefix path prefix_path with
      | none => return links
      | some relative =>
        match entry.entry_type with
        | .dir =>
          change .create_dir_all (destination ++ relative)
          return links
        | .file =>
          change .create_dir_all (destination ++ relative.dropLast)
          (unpack (destination ++ relative) entry).map_err fun _ =>
            .Archive "tar file could not be unpacked"
          return links
        | .symlink =>
          match entry.link_name with
          | .error () => throw (.Archive "tar link rejected")
          | .ok none => throw (.Archive "tar link target missing")
          | .ok (some link) =>
            fail_if (is_absolute link) (.Archive "absolute tar link rejected")
            return links.insert relative link
        | .other => throw (.Archive "unsupported tar entry type")

/-- `fs::copy`. -/
def copy (source target : Path) : Io Unit := do
  let content ← read source
  change .create target
  change (.append content) target

def extract_tar_link (destination : Path) (links : Links) (link : Path) : Io Unit := do
  let source ← lift (resolve_link_source link links)
  fail_if (!(← is_file (destination ++ source))) (.Archive "tar link target is not a file")
  change .create_dir_all (destination ++ link.dropLast)
  copy (destination ++ source) (destination ++ link)

def extract_tar_gz (host : Host) (archive destination : Path) (prefix_path : String) :
    Io Unit := do
  let file ← read archive
  (service .archive).map_err fun _ => .Archive "tar rejected"
  match host.tar file with
  | none => throw (.Archive "tar rejected")
  | some entries =>
    let links ← entries.foldlM (extract_tar_entry destination prefix_path) ∅
    (link_keys links).forM (extract_tar_link destination links)

def extract_runtime (host : Host) (runtime : RuntimeArtifact) (archive destination : Path) :
    Io Unit :=
  match runtime.archive_format with
  | .Zip => extract_zip host archive destination runtime.strip_prefix
  | .TarGz => extract_tar_gz host archive destination runtime.strip_prefix

end Inferences.Artifacts
