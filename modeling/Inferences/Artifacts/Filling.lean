import Inferences.Artifacts.Entries

/-!
# Filling a new directory

The installer downloads, extracts and writes below a directory it has just
made. It gives up when an operation fails, whichever that is, and none of them
touches the marker of the directory or what is beside it
(`strict_fill_staging`, `strict_fill_recovery`). What comes out depends on
nothing but the archive that the runtime is extracted from (`alike_run`).
-/

namespace Inferences.Artifacts

open Node Program

variable {α : Type} {host : Host} {directory : String} {names : List String} {reads : List Path}

/-- A program that fills the directory, and gives up when an operation fails. -/
abbrev Fills (host : Host) (directory : String) (names : List String) (reads : List Path)
    (p : Io α) : Prop :=
  p.Strict (machine host) (Op.fills directory names reads)

theorem strict_fs {P : Op → Prop} (r : IoResult α) : (fs r).Strict (machine host) P := by
  cases r <;> trivial

theorem fills_change {c : Change} {name : String} {below : Path} (h : name ∈ names) :
    Fills host directory names reads (change c (directory :: name :: below)) :=
  ⟨⟨name, h, below, rfl⟩, ⟨.Filesystem, rfl⟩, strict_fs⟩

theorem fills_rename {name name' : String} {below below' : Path} (h : name ∈ names)
    (h' : name' ∈ names) : Fills host directory names reads
      (rename (directory :: name :: below) (directory :: name' :: below')) :=
  ⟨⟨⟨name, h, below, rfl⟩, name', h', below', rfl⟩, ⟨.Filesystem, rfl⟩, strict_fs⟩

theorem fills_service (what : Service) : Fills host directory names reads (service what) :=
  ⟨trivial, ⟨.Filesystem, rfl⟩, strict_fs⟩

theorem fills_lift (result : Except ArtifactError α) :
    Fills host directory names reads (lift result) := trivial

/-- A file has to be there. -/
theorem fills_is_file {below : Path} {message : ArtifactError} :
    Fills host directory names reads (do
      fail_if (!(← is_file (directory :: below))) message) :=
  ⟨.inr ⟨below, rfl⟩, ⟨message, rfl⟩, fun _ => trivial⟩

/-! ## Extraction -/

/-- The operations of an extraction from `archive` to `destination` satisfy `P`. -/
structure Extracting (P : Op → Prop) (archive destination : Path) : Prop where
  read : P (.query .read archive)
  query : ∀ q path, P (.query q (destination ++ path))
  change : ∀ c path, P (.change c (destination ++ path))
  service : ∀ what, P (.service what)

namespace Extracting

variable {P : Op → Prop} {archive destination : Path}

theorem strict_change (h : Extracting P archive destination) (c : Change) (path : Path) :
    (Artifacts.change c (destination ++ path)).Strict (machine host) P :=
  ⟨h.change c path, ⟨.Filesystem, rfl⟩, strict_fs⟩

theorem strict_service (h : Extracting P archive destination) (what : Service) :
    (Artifacts.service what).Strict (machine host) P :=
  ⟨h.service what, ⟨.Filesystem, rfl⟩, strict_fs⟩

theorem strict_write_entry (h : Extracting P archive destination) (path : Path)
    (entry : ArchiveEntry) : (write_entry (destination ++ path) entry).Strict (machine host) P :=
  (h.strict_change ..).bind fun _ => (h.strict_change ..).bind fun _ => trivial

theorem strict_unpack (h : Extracting P archive destination) (path : Path)
    (entry : ArchiveEntry) : (unpack (destination ++ path) entry).Strict (machine host) P := by
  unfold unpack
  split
  · exact h.strict_change ..
  · exact h.strict_write_entry ..

theorem strict_extract_zip_entry (h : Extracting P archive destination) (prefix_path : String)
    (entry : Option ArchiveEntry) :
    (extract_zip_entry destination prefix_path entry).Strict (machine host) P := by
  refine (h.strict_service _).map_err.bind fun _ => ?_
  cases entry with
  | none => trivial
  | some entry =>
    dsimp only
    cases entry.path with
    | none => trivial
    | some enclosed =>
      refine Strict.bind (p := lift _) trivial fun relative => ?_
      cases relative with
      | none => trivial
      | some relative =>
        dsimp only
        split
        · exact h.strict_change ..
        split
        · trivial
        · exact (h.strict_change ..).bind fun _ => h.strict_write_entry ..

theorem strict_extract_tar_entry (h : Extracting P archive destination) (prefix_path : String)
    (links : Links) (entry : Option ArchiveEntry) :
    (extract_tar_entry destination prefix_path links entry).Strict (machine host) P := by
  refine (h.strict_service _).map_err.bind fun _ => ?_
  cases entry with
  | none => trivial
  | some entry =>
    dsimp only
    cases entry.path with
    | none => trivial
    | some path =>
      refine Strict.bind (p := lift _) trivial fun relative => ?_
      cases relative with
      | none => trivial
      | some relative =>
        dsimp only
        split
        · exact (h.strict_change ..).bind fun _ => trivial
        · exact (h.strict_change ..).bind fun _ =>
            (h.strict_unpack ..).map_err.bind fun _ => trivial
        · split
          · trivial
          · trivial
          · exact Strict.bind (p := fail_if _ _) trivial fun _ => trivial
        · trivial

theorem strict_extract_tar_link (h : Extracting P archive destination) (links : Links)
    (link : Path) : (extract_tar_link destination links link).Strict (machine host) P := by
  refine Strict.bind (p := lift _) trivial fun source => ?_
  rw [← bind_assoc']
  have hthere : (do
      fail_if (!(← is_file (destination ++ source)))
        (.Archive "tar link target is not a file")).Strict (machine host) P :=
    ⟨h.query .is_file source, ⟨_, rfl⟩, fun _ => trivial⟩
  refine hthere.bind fun _ => (h.strict_change ..).bind fun _ => ?_
  have hread : (Artifacts.read (destination ++ source)).Strict (machine host) P :=
    ⟨h.query .read source, ⟨.Filesystem, rfl⟩, strict_fs⟩
  exact hread.bind fun _ => (h.strict_change ..).bind fun _ => h.strict_change ..

/-- The extraction works below its destination, and stops at an error. -/
theorem strict_extract_runtime (h : Extracting P archive destination) (runtime : RuntimeArtifact) :
    (extract_runtime host runtime archive destination).Strict (machine host) P := by
  have hread : (Artifacts.read archive).Strict (machine host) P :=
    ⟨h.read, ⟨.Filesystem, rfl⟩, strict_fs⟩
  unfold extract_runtime extract_zip extract_tar_gz
  split
  · refine hread.bind fun file => (h.strict_service _).map_err.bind fun _ => ?_
    split
    · trivial
    · exact Strict.forM (h.strict_extract_zip_entry _) _
  · refine hread.bind fun file => (h.strict_service _).map_err.bind fun _ => ?_
    split
    · trivial
    · exact (Strict.foldlM (h.strict_extract_tar_entry _) _ _).bind fun links =>
        Strict.forM (h.strict_extract_tar_link links) _

end Extracting

/-- The extraction fills a directory. -/
theorem fills_extract_runtime {name : String} {archive : Path} (h : name ∈ names)
    (harchive : archive ∈ reads ∨ ∃ below, archive = directory :: below)
    (runtime : RuntimeArtifact) : Fills host directory names reads
      (extract_runtime host runtime archive [directory, name]) :=
  Extracting.strict_extract_runtime
    { read := harchive
      query := fun _ path => .inr ⟨name :: path, rfl⟩
      change := fun _ path => ⟨name, h, path, rfl⟩
      service := fun _ => trivial } runtime

/-! ## Downloads -/

theorem fills_send (url : String) : Fills host directory names reads (send url) :=
  ⟨trivial, ⟨.Download, rfl⟩, fun r => by cases r <;> trivial⟩

theorem fills_download_body {name : String} {below : Path} (h : name ∈ names)
    (expected_size : Nat) (kind : String) (received : Bytes) (results : List (IoResult Bytes)) :
    Fills host directory names reads
      (download_body (directory :: name :: below) expected_size kind received results) := by
  induction results generalizing received with
  | nil => trivial
  | cons result results ih =>
    refine ⟨trivial, ⟨.Filesystem, rfl⟩, fun answer => ?_⟩
    dsimp only
    split
    · trivial
    · trivial
    · split
      · trivial
      · split
        · trivial
        · exact (fills_change h).bind fun _ => ih _

/-- The temporary file stands beside the file. -/
theorem part_path_cons (directory name : String) (below : Path) :
    ∃ name' below', part_path (directory :: name :: below) = directory :: name' :: below' ∧
      (name' = name ∨ name' = with_extension name "part") := by
  cases below with
  | nil => exact ⟨_, [], rfl, .inr rfl⟩
  | cons next below => exact ⟨name, _, rfl, .inl rfl⟩

/-- A download fills the file and its partial file. -/
theorem fills_download_verified {name : String} {below : Path} (h : name ∈ names)
    (hpart : with_extension name "part" ∈ names) (url : String) (expected_size : Nat)
    (expected_sha256 kind : String) : Fills host directory names reads
      (download_verified host url (directory :: name :: below) expected_size expected_sha256
        kind) := by
  obtain ⟨name', below', hpath, hname⟩ := part_path_cons directory name below
  have hname' : name' ∈ names := by rcases hname with rfl | rfl <;> assumption
  unfold download_verified
  dsimp only
  rw [hpath]
  refine (fills_lift _).bind fun _ => (fills_send url).bind fun response =>
    (fills_lift _).bind fun _ => (fills_change hname').bind fun _ =>
    (fills_download_body hname' ..).bind fun received => (fills_service _).bind fun _ =>
    (fills_service _).bind fun _ => ?_
  split
  · exact ⟨⟨name', hname', below', rfl⟩, ⟨_, rfl⟩, fun r => by cases r <;> trivial⟩
  · exact fills_rename hname' h

/-! ## The two directories -/

/-- The entries that `setup` makes in the staging directory. -/
def staging_names : List String :=
  ["downloads", "downloads.part", "runtime", "model", "model.part", STATE_FILE]

variable {manifest : ArtifactManifest} {runtime : RuntimeArtifact}

/-- The staging directory is filled from the network alone. -/
theorem strict_fill_staging (host : Host) (manifest : ArtifactManifest)
    (runtime : RuntimeArtifact) (directory : String) : Fills host directory staging_names []
    (fill_staging host manifest runtime [directory]) := by
  have hname : ∀ name, name ∈ staging_names ↔ name = "downloads" ∨ name = "downloads.part" ∨
      name = "runtime" ∨ name = "model" ∨ name = "model.part" ∨ name = STATE_FILE := by
    simp [staging_names]
  unfold fill_staging
  refine (fills_change (by simp [hname])).bind fun _ => (fills_change (by simp [hname])).bind
    fun _ => (fills_change (by simp [hname])).bind fun _ => (fills_service _).map_err.bind fun _ =>
    (fills_download_verified (by simp [hname]) (by decide) ..).bind fun _ =>
    (fills_download_verified (by simp [hname]) (by decide) ..).bind fun _ =>
    (fills_extract_runtime (by simp [hname]) (.inr ⟨_, rfl⟩) _).bind fun _ => ?_
  rw [← bind_assoc']
  refine fills_is_file.bind fun _ => ?_
  unfold write_state
  split
  · trivial
  · exact (fills_change (by simp [hname])).bind fun _ => (fills_change (by simp [hname])).bind
      fun _ => fills_service _

/-- The recovery directory is filled from the archive of the installation. -/
theorem strict_fill_recovery (host : Host) (runtime : RuntimeArtifact) (directory : String)
    (archive : Path) : Fills host directory ["runtime"] [archive]
    (fill_recovery host runtime [directory] archive) := by
  have hname : "runtime" ∈ ["runtime"] := .head _
  unfold fill_recovery
  exact (fills_change hname).bind fun _ =>
    (fills_extract_runtime hname (.inl (.head _)) _).bind fun _ => fills_is_file

end Inferences.Artifacts
