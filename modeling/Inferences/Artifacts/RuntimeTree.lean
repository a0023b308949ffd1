import Inferences.Artifacts.Containment
import Inferences.Artifacts.Promotion

/-!
# The installed runtime

`verify_runtime_tree` accepts a directory if and only if it is a tree of files
and directories whose files are those of the archive, neither more nor less
(`verify_runtime_tree_iff`). It accepts what has been extracted from the
archive (`extracted_tree_verifies`).
-/

namespace Inferences.Artifacts

open Node Program

variable {host : Host} {runtime : RuntimeArtifact} {archive destination installed : Path}
  {s s' : Option Node} {files : Digests}

/-! ## What the walk accepts -/

mutual

/-- The walk gives up on the first link or special file. -/
theorem regular_of_collect {relative : Path} {files files' : Digests} :
    (node : Node) → collect_tree_digests host relative files node = .ok files' → Regular node
  | .dir entries, h => by
    rw [collect_tree_digests] at h
    exact .dir (regular_of_collect_entries entries h)
  | .file _, h | .link _, h | .dead_link, h | .other, h => by
    simp [collect_tree_digests] at h

theorem regular_of_collect_entries {relative : Path} {files files' : Digests} :
    (entries : List (String × Node)) → collect_entries host relative files entries = .ok files' →
      ∀ entry ∈ entries, Regular entry.2
  | [], _ => fun _ h => absurd h List.not_mem_nil
  | (name, .dir below) :: entries, h => by
    rw [collect_entries] at h
    cases hbelow : collect_tree_digests host (relative ++ [name]) files (.dir below) with
    | error e =>
      rw [hbelow] at h
      cases h
    | ok files₁ =>
      rw [hbelow] at h
      exact List.forall_mem_cons.2
        ⟨regular_of_collect (.dir below) hbelow, regular_of_collect_entries entries h⟩
  | (name, .file content) :: entries, h => by
    rw [collect_entries] at h
    split at h
    · cases h
    · exact List.forall_mem_cons.2 ⟨.file content, regular_of_collect_entries entries h⟩
  | (_, .link _) :: _, h | (_, .dead_link) :: _, h | (_, .other) :: _, h => by
    simp [collect_entries] at h

end

/-- A tree is collected to the digests of its files, if nothing else is in it. -/
theorem collect_tree_digests_iff {tree : Node} (hdistinct : Distinct tree) :
    collect_tree_digests host [] ∅ tree = .ok files ↔
      (∃ entries, tree = .dir entries) ∧ Regular tree ∧ Represents host files (some tree) := by
  constructor
  · intro h
    have hregular := regular_of_collect tree h
    have hplain := plain_iff.2 ⟨hregular, hdistinct⟩
    cases hplain with
    | file content => cases h
    | @dir entries hnodup hentries =>
      refine ⟨⟨entries, rfl⟩, hregular, ?_⟩
      have hcollects : Collects host entries := collects_entries hnodup fun name node hmem =>
        collects_plain name (hentries name node (lookup_of_mem hnodup hmem))
      obtain ⟨files', hcollect, hbelow, -⟩ :=
        hcollects.dir fun path => Finmap.lookup_empty ([] ++ path)
      obtain rfl := Except.ok.inj (hcollect.symm.trans h)
      exact hbelow
  · rintro ⟨⟨entries, rfl⟩, hregular, hrep⟩
    exact hrep.collect ⟨entries, rfl, plain_iff.2 ⟨hregular, hdistinct⟩⟩

/-! ## The verdict -/

theorem run_fail_if (host : Host) (condition : Bool) (e : ArtifactError) (s : Option Node) :
    (run (machine host) (fail_if condition e) s).1 = .ok () ↔ condition = false := by
  cases condition <;> simp [fail_if, lift]

theorem join_of_safe {path : String} {safe : Path}
    (h : safe_relative (components path) = some safe) : join [] path = safe := by
  rw [safe_relative] at h
  split at h
  · cases h
  · rw [join, eq_map_of_mapM_normal h, List.filterMap_map, List.nil_append]
    exact List.filterMap_some

/-- The part of `verify_runtime_tree` that comes after the digests of the archive. -/
def compare_tree (host : Host) (installed executable : Path) (expected : Digests) : Io Unit := do
  fail_if (expected.lookup executable).isNone (.Archive "runtime executable is missing")
  let tree ← read_tree installed
  let actual ← lift (collect_tree_digests host [] ∅ tree)
  fail_if (expected ≠ actual) (.Integrity "runtime")

theorem run_read_tree_error (h : find installed s = none) :
    run (machine host) (read_tree installed) s = (.error .Filesystem, s) := by
  rw [read_tree, run_query, h]
  rfl

theorem run_read_tree {tree : Node} (h : find installed s = some tree) :
    run (machine host) (read_tree installed) s = (.ok tree, s) := by
  rw [read_tree, run_query, h]
  rfl

theorem compare_tree_iff (host : Host) (installed executable : Path) (expected : Digests)
    (s : Option Node) :
    (run (machine host) (compare_tree host installed executable expected) s).1 = .ok () ↔
      executable ∈ expected ∧ ∃ tree, find installed s = some tree ∧
        collect_tree_digests host [] ∅ tree = .ok expected := by
  rw [compare_tree]
  by_cases hthere : executable ∈ expected
  · -- the tree is only read when the archive has the executable
    obtain ⟨digest, hdigest⟩ := Finmap.mem_iff.1 hthere
    rw [hdigest]
    change (run (machine host) (read_tree installed >>= _) s).1 = _ ↔ _
    cases hfind : find installed s with
    | none =>
      rw [run_bind_error _ (run_read_tree_error hfind)]
      simp
    | some tree =>
      rw [run_bind_ok _ (run_read_tree hfind)]
      simp only [Option.some.injEq, exists_eq_left', hthere, true_and]
      cases collect_tree_digests host [] ∅ tree with
      | error e => exact ⟨fun h => (by cases h), fun h => (by cases h)⟩
      | ok actual =>
        change (run (machine host) (fail_if (expected ≠ actual) _) s).1 = _ ↔ _
        rw [run_fail_if, decide_eq_false_iff_not, not_not, Except.ok.injEq, eq_comm]
  · rw [Finmap.lookup_eq_none.2 hthere]
    exact ⟨fun h => (by cases h), fun h => absurd h.1 hthere⟩

/-- The runtime verifies exactly when the archive can be told file by file, the
    executable among them, and the directory holds these files and nothing else
    but directories. -/
theorem verify_runtime_tree_iff (host : Host) {runtime : RuntimeArtifact} {executable : Path}
    (hexecutable : safe_relative (components runtime.executable) = some executable)
    (archive installed : Path) {s : Option Node}
    (hdistinct : ∀ tree, find installed s = some tree → Distinct tree) :
    (run (machine host) (verify_runtime_tree host archive installed runtime) s).1 = .ok () ↔
      ∃ files, (run (machine host) (archive_tree_digests host archive runtime) s).1 = .ok files ∧
        executable ∈ files ∧ ∃ entries, find installed s = some (.dir entries) ∧
          Regular (.dir entries) ∧
          ∀ path, files.lookup path = (content (some (.dir entries)) path).map host.sha256 := by
  have hsplit : verify_runtime_tree host archive installed runtime =
      archive_tree_digests host archive runtime >>= compare_tree host installed executable := by
    rw [← join_of_safe hexecutable]
    rfl
  rw [hsplit, run_bind]
  cases hdigests : run (machine host) (archive_tree_digests host archive runtime) s with
  | mk result s₁ =>
    cases result with
    | error e => simp
    | ok files =>
      -- telling the archive changes nothing, so the tree is the one of the start
      obtain rfl := (archive_tree_digests_ok hdigests).1
      simp only [Except.ok.injEq, exists_eq_left', compare_tree_iff]
      refine and_congr_right fun _ => ⟨?_, ?_⟩
      · rintro ⟨tree, hfind, hcollect⟩
        obtain ⟨⟨entries, rfl⟩, hregular, hrep⟩ :=
          (collect_tree_digests_iff (hdistinct tree hfind)).1 hcollect
        exact ⟨entries, hfind, hregular, hrep⟩
      · rintro ⟨entries, hfind, hregular, hrep⟩
        exact ⟨_, hfind, (collect_tree_digests_iff (hdistinct _ hfind)).2
          ⟨⟨entries, rfl⟩, hregular, hrep⟩⟩

/-- A runtime archive of 95 bytes. -/
def small_runtime : RuntimeArtifact where
  target := "x86_64-unknown-linux-gnu"
  archive_format := .TarGz
  filename := "llama-b10964-bin-ubuntu-x64.tar.gz"
  url := runtime_url
  size := 95
  sha256 := "a9515cc7859a427f5f7e6343a95c43a568c23debf7e4d11839db7e930a755e74"
  strip_prefix := "llama-b10964"
  executable := "llama-server"

/-- The archive, beside a directory. -/
def small_disk (runtime : List (String × Node)) : Option Node :=
  root [("archive", .file small_archive), ("runtime", .dir runtime)]

/-- The digest of its one file. -/
def small_digests : Digests :=
  (∅ : Digests).insert ["llama-server"]
    "620bfdaa346b088fb49998d92f19a7eaf6bfc2fb0aee015753966da1028cb731"

theorem run_small_digests : (run (machine small_host)
    (archive_tree_digests small_host ["archive"] small_runtime) (small_disk [])).1 =
      .ok small_digests := by
  decide +kernel

/-- A link in the place of a file is not accepted. -/
theorem verify_runtime_tree_iff_link :
    (run (machine small_host) (verify_runtime_tree small_host ["archive"] ["runtime"] small_runtime)
      (small_disk [("llama-server", .link (.file [127]))])).1 ≠ .ok () := by
  have hexecutable : safe_relative (components small_runtime.executable) =
      some ["llama-server"] := by decide
  have hdistinct : ∀ tree,
      find ["runtime"] (small_disk [("llama-server", .link (.file [127]))]) = some tree →
        Distinct tree := by
    rintro tree ⟨⟩
    exact .dir (List.nodup_singleton _) (by simpa using Distinct.link _)
  intro h
  obtain ⟨_, -, -, entries, hfind, hregular, -⟩ :=
    (verify_runtime_tree_iff small_host hexecutable ["archive"] ["runtime"] hdistinct).1 h
  cases hfind
  cases hregular with
  | dir h => cases h _ (.head _)

/-! ## What is extracted -/

/-- The operation changes nothing but what is below the directory. -/
def Op.under (destination : Path) : Op → Prop
  | change _ path => destination <+: path
  | rename .. => False
  | _ => True

theorem find_apart_exec {op : Op} (hop : op.under destination) (hpath : ¬ destination <+: archive)
    (hother : ¬ archive <+: destination) {node : Option Node} (h : find archive s = node) :
    find archive ((machine host).exec op s).2 = node := by
  cases op with
  | change c path =>
    change find archive (done s (c.apply path s)).2 = node
    cases happly : c.apply path s with
    | none => exact h
    | some s' =>
      refine (find_alter_apart (fun hp => hpath (hop.trans hp)) (fun ho => ?_) happly).trans h
      rcases List.prefix_or_prefix_of_prefix ho hop with ho | hp
      · exact hother ho
      · exact hpath hp
  | rename source target => exact hop.elim
  | _ => exact h

theorem extract_runtime_under (host : Host) (runtime : RuntimeArtifact)
    (archive destination : Path) :
    (extract_runtime host runtime archive destination).Calls (Op.under destination) := by
  have hextracting : Extracting (Op.under destination) archive destination := {
    read := trivial
    query := fun _ _ => trivial
    change := fun _ path => List.prefix_append destination path
    service := fun _ => trivial }
  have hstrict : (extract_runtime host runtime archive destination).Strict (machine host)
    (Op.under destination) := hextracting.strict_extract_runtime runtime
  exact hstrict.calls

/-- Nothing is below a file. -/
theorem entry_of_file {content : Bytes} {name : String} :
    (node : Node) → node.follow = some (.file content) → node.entry name = none
  | .link target, h => by
    have hentry : target.entry name = none := entry_of_file target h
    exact hentry
  | .file _, _ | .dead_link, _ | .other, _ => rfl
  | .dir _, h => by cases h

/-- A file is not an empty directory, nor on the way to it, nor below it. -/
theorem apart_of_file {content : Bytes}
    (hfile : (find archive s).bind follow = some (.file content))
    (hempty : find destination s = some (.dir [])) :
    ¬ destination <+: archive ∧ ¬ archive <+: destination := by
  constructor
  · rintro ⟨below, rfl⟩
    rw [find_append, hempty] at hfile
    cases below with
    | nil => cases hfile
    | cons name below =>
      rw [find_cons_dir, List.lookup_nil, find_none] at hfile
      cases hfile
  · rintro ⟨below, rfl⟩
    obtain ⟨node, hnode, hfollow⟩ := Option.bind_eq_some_iff.1 hfile
    rw [find_append, hnode] at hempty
    cases below with
    | nil =>
      cases hempty
      cases hfollow
    | cons name below =>
      rw [find, Option.bind_some, entry_of_file node hfollow, find_none] at hempty
      cases hempty

/-- Extraction into an empty directory leaves the archive as it is. -/
theorem archive_kept (host : Host) (runtime : RuntimeArtifact) {content : Bytes}
    (hfile : (find archive s).bind follow = some (.file content))
    (hempty : find destination s = some (.dir [])) :
    find archive (run (machine host) (extract_runtime host runtime archive destination) s).2 =
      find archive s := by
  obtain ⟨hpath, hother⟩ := apart_of_file hfile hempty
  refine Calls.run_invariant (I := fun s' => find archive s' = find archive s)
    (fun op s' hop h => ?_) (extract_runtime_under host runtime archive destination) rfl
  exact find_apart_exec hop hpath hother h

/-- What has been extracted into an empty directory has the digests that the
    archive has, and verifies if the executable is among the files, as long as the
    tar reader unpacks the regular entries as files. -/
theorem extracted_tree_verifies (host : Host) (runtime : RuntimeArtifact)
    {archive destination : Path} {s s' : Option Node} {files : Digests}
    (hunpacks : ∀ file, (find archive s).bind follow = some (.file file) →
      unpacks_files host runtime file)
    (hempty : find destination s = some (.dir []))
    (hextract : run (machine host) (extract_runtime host runtime archive destination) s =
      (.ok (), s'))
    (hdigests : (run (machine host) (archive_tree_digests host archive runtime) s).1 = .ok files) :
    (∃ tree, find destination s' = some tree ∧
      collect_tree_digests host [] ∅ tree = .ok files) ∧
    (join [] runtime.executable ∈ files →
      (run (machine host) (verify_runtime_tree host archive destination runtime) s').1 =
        .ok ()) := by
  obtain ⟨-, file, hfile, hfiles⟩ := archive_tree_digests_ok (Prod.ext hdigests rfl)
  obtain ⟨file', hfile', ⟨entries, hfind, hplain⟩, hrep⟩ := extract_runtime_ok hempty hextract
  -- both read the same archive
  obtain rfl := Node.file.inj (Option.some.inj (hfile.symm.trans hfile'))
  have hcollect : collect_tree_digests host [] ∅ (.dir entries) = .ok files := by
    have hrep := hrep files (hunpacks file hfile) hfiles
    rw [hfind] at hrep
    exact hrep.collect ⟨entries, rfl, hplain⟩
  refine ⟨⟨_, hfind, hcollect⟩, fun hexecutable => ?_⟩
  -- the archive is the same afterwards
  have hkept := archive_kept host runtime hfile hempty
  rw [hextract] at hkept
  have hagain := run_archive_tree_digests host runtime (s := s') (by rw [hkept]; exact hfile)
  rw [hfiles] at hagain
  change (run (machine host) (archive_tree_digests host archive runtime >>=
    compare_tree host destination (join [] runtime.executable)) s').1 = _
  rw [run_bind_ok _ hagain]
  exact (compare_tree_iff ..).2 ⟨hexecutable, _, hfind, hcollect⟩

theorem run_small_extract : (run (machine small_host)
    (extract_runtime small_host small_runtime ["archive"] ["runtime"]) (small_disk [])).1 =
      .ok () := by
  decide +kernel

theorem unpacks_files_small (file : Bytes) : unpacks_files small_host small_runtime file := by
  intro _ entries hentries entry hentry _
  simp only [small_host] at hentries
  split at hentries
  · cases hentries
    obtain rfl := Option.some.inj (List.mem_singleton.1 hentry)
    rfl
  · cases hentries

theorem extracted_tree_verifies_small :
    (run (machine small_host) (verify_runtime_tree small_host ["archive"] ["runtime"] small_runtime)
      (run (machine small_host) (extract_runtime small_host small_runtime ["archive"] ["runtime"])
        (small_disk [])).2).1 = .ok () := by
  have hempty : find ["runtime"] (small_disk []) = some (.dir []) := rfl
  exact (extracted_tree_verifies small_host small_runtime (fun file _ => unpacks_files_small file)
    hempty (Prod.ext run_small_extract rfl) run_small_digests).2 (by decide +kernel)

/-! ## An entry whose name ends in a slash -/

/-- A compressed tar archive without ustar headers: `llama-b10964/llama-server`
    and the empty `llama-b10964/share/`, both of the regular type. -/
def slash_archive : Bytes := [
    31, 139, 8, 0, 0, 0, 0, 0, 2, 3, 203, 201, 73, 204, 77, 212, 77, 50, 52, 176, 52, 51, 209,
    207, 1, 115, 138, 83, 139, 202, 82, 139, 24, 168, 7, 12, 128, 192, 204, 196, 4, 76, 3, 1,
    58, 13, 4, 134, 72, 108, 160, 184, 161, 129, 153, 153, 49, 131, 2, 195, 40, 160, 57, 168,
    31, 13, 130, 17, 13, 114, 144, 243, 127, 113, 70, 98, 81, 170, 62, 213, 237, 32, 156, 255,
    209, 217, 230, 38, 166, 134, 163, 249, 127, 20, 140, 130, 81, 48, 10, 104, 9, 0, 101, 79,
    48, 26, 0, 10, 0, 0]

/-- An entry whose name ends in a slash, though it is a regular file. -/
def slash_entry : ArchiveEntry where
  path := some [.Normal "llama-b10964", .Normal "share"]
  entry_type := .file
  link_name := .ok none
  content := []
  intact := true
  unpacks_dir := true

/-- A host whose reader finds that entry in an archive. -/
def slash_host : Host where
  __ := small_host
  sha256 bytes :=
    if bytes = [] then "e3b0c44298fc1c149afbf4c8996fb92427ae41e4649b934ca495991b7852b855"
    else small_host.sha256 bytes
  tar bytes := if bytes = slash_archive then some [some small_entry, some slash_entry] else none

/-- The archive beside an empty directory. -/
def slash_disk : Option Node :=
  root [("archive", .file slash_archive), ("runtime", .dir [])]

/-- What `extract_runtime` makes of it. -/
def slash_extracted : Option Node :=
  (run (machine slash_host) (extract_runtime slash_host small_runtime ["archive"] ["runtime"])
    slash_disk).2

/-- The reader makes a directory of the entry, and the digests have a file. -/
theorem extracted_tree_differs :
    (run (machine slash_host) (extract_runtime slash_host small_runtime ["archive"] ["runtime"])
      slash_disk).1 = .ok () ∧
    ∃ files, (run (machine slash_host)
        (archive_tree_digests slash_host ["archive"] small_runtime) slash_disk).1 = .ok files ∧
      join [] small_runtime.executable ∈ files ∧
      (find ["runtime"] slash_extracted).map (collect_tree_digests slash_host [] ∅) =
        some (.ok small_digests) ∧
      small_digests ≠ files ∧
      (run (machine slash_host) (verify_runtime_tree slash_host ["archive"] ["runtime"]
        small_runtime) slash_extracted).1 = .error (.Integrity "runtime") := by
  refine ⟨by decide +kernel, small_digests.insert ["share"]
    "e3b0c44298fc1c149afbf4c8996fb92427ae41e4649b934ca495991b7852b855", by decide +kernel,
    by decide +kernel, by decide +kernel, by decide +kernel, by decide +kernel⟩

end Inferences.Artifacts
