import Inferences.Artifacts.Setup

/-!
# What the checks of the installer see

The checks look at a directory and below it, change nothing, and give up on the
first look that fails (`Inspects`). So what they find depends on the node the
directory is, wherever it stands: `managed` says that a node is a directory
with the marker, `verified` that it is a complete installation.
-/

namespace Inferences.Artifacts

open Node Program

variable {α β : Type} {host : Host}

/-- The operation leaves everything as it is. -/
def Op.looks : Op → Prop
  | change .. | rename .. => False
  | _ => True

/-- A look does not change the tree. -/
theorem exec_looks {op : Op} (h : op.looks) (s : Option Node) :
    ((machine host).exec op s).2 = s := by
  cases op <;> first | rfl | cases h

/-- Nor does a look that fails. -/
theorem torn_looks {op : Op} {s s' : Option Node} (h : op.looks)
    (ht : (machine host).torn op s s') : s' = s := by
  cases op <;> first | exact ht.resolve_right id | cases h

/-- The operation only looks into the directory, or at an archive. -/
def Op.inspects (directory : Path) : Op → Prop
  | query _ path => directory <+: path
  | service what => what = .archive
  | _ => False

/-- An inspection is a look. -/
theorem Op.inspects.looks {directory : Path} {op : Op} (h : op.inspects directory) : op.looks := by
  cases op <;> first | trivial | exact h.elim

theorem Op.inspects.offline {directory : Path} {op : Op} (h : op.inspects directory) :
    op.offline := by
  cases op <;> first | trivial | exact h.elim

/-- A check of a directory. -/
structure Inspects (host : Host) (f : Path → Io α) : Prop where
  strict : ∀ directory, (f directory).Strict (machine host) (Op.inspects directory)
  relative : ∀ directory s, run (machine host) (f directory) s =
    ((run (machine host) (f []) (find directory s)).1, s)

theorem Inspects.frame {f : Path → Io α} (hf : Inspects host f) {directory : Path}
    {s s' : Option Node} {result : Except ArtifactError α}
    (h : run (machine host) (f directory) s = (result, s')) : s' = s := by
  rw [hf.relative] at h
  exact (congrArg Prod.snd h).symm

theorem Inspects.done (result : Except ArtifactError α) :
    Inspects host fun _ => Program.done result :=
  ⟨fun _ => trivial, fun _ _ => rfl⟩

/-- Inspections in sequence are one. -/
theorem Inspects.bind {f : Path → Io α} {g : Path → α → Io β} (hf : Inspects host f)
    (hg : ∀ a, Inspects host (g · a)) :
    Inspects host fun directory => f directory >>= g directory := by
  refine ⟨fun directory => (hf.strict directory).bind fun a => (hg a).strict directory,
    fun directory s => ?_⟩
  rw [run_bind, run_bind, hf.relative directory s, hf.relative [] (find directory s)]
  cases (run (machine host) (f []) (find [] (find directory s))).1 with
  | error e => rfl
  | ok a => exact (hg a).relative directory s

/-- A look below the directory. -/
theorem Inspects.query {q : Query} (path : Path) {k : q.Res → Io α}
    (hk : ∀ r, ∃ result, k r = Program.done result)
    (hfailed : ∃ e, k (failed (.query q path)) = Program.done (.error e)) :
    Inspects host fun directory => .call (.query q (directory ++ path)) k := by
  refine ⟨fun directory => ⟨List.prefix_append directory path, ?_, fun r => ?_⟩,
    fun directory s => ?_⟩
  · obtain ⟨e, he⟩ := hfailed
    refine ⟨e, ?_⟩
    cases q <;> exact he
  · obtain ⟨result, hresult⟩ := hk r
    rw [hresult]
    trivial
  · change run (machine host) (k (q.answer (find (directory ++ path) s))) s =
      ((run (machine host) (k (q.answer (find path (find directory s)))) (find directory s)).1, s)
    rw [find_append]
    obtain ⟨result, hresult⟩ := hk (q.answer (find path (find directory s)))
    rw [hresult]
    rfl

theorem fs_eq_done (r : IoResult α) : ∃ result, fs r = Program.done result := by
  cases r <;> exact ⟨_, rfl⟩

theorem inspects_symlink_metadata (path : Path) :
    Inspects host fun directory => symlink_metadata (directory ++ path) :=
  .query path fs_eq_done ⟨_, rfl⟩

theorem inspects_metadata (path : Path) :
    Inspects host fun directory => metadata (directory ++ path) :=
  .query path fs_eq_done ⟨_, rfl⟩

theorem inspects_read (path : Path) : Inspects host fun directory => read (directory ++ path) :=
  .query path fs_eq_done ⟨_, rfl⟩

theorem inspects_read_tree (path : Path) :
    Inspects host fun directory => read_tree (directory ++ path) :=
  .query path fs_eq_done ⟨_, rfl⟩

theorem inspects_archive : Inspects host fun _ => service .archive :=
  ⟨fun _ => ⟨rfl, ⟨.Filesystem, rfl⟩, fun r => by cases r <;> trivial⟩, fun _ _ => rfl⟩

/-- The checks of the installer are inspections, each of what is below the
    directory. -/
theorem inspects_assert_managed_directory : Inspects host assert_managed_directory := by
  have hself : Inspects host symlink_metadata := by
    simpa using (inspects_symlink_metadata [] : Inspects host _)
  unfold assert_managed_directory
  refine .bind hself fun metadata => .bind (.done _) fun _ => ?_
  exact .bind (.bind (inspects_read _) fun _ => .done _) fun _ => .done _

theorem inspects_verify_file (path : String) (expected_size : Nat)
    (expected_sha256 : String) (verification : Verification) (kind : String) :
    Inspects host fun directory => verify_file host (join directory path) expected_size
      expected_sha256 verification kind := by
  unfold verify_file
  refine .bind (inspects_metadata _) fun metadata => .bind (.done _) fun _ => ?_
  cases verification with
  | Fast => exact .done _
  | Full => exact .bind (inspects_read _) fun _ => .done _

variable {manifest : ArtifactManifest} {runtime : RuntimeArtifact}

theorem inspects_read_and_validate_state :
    Inspects host fun directory => read_and_validate_state host directory manifest runtime := by
  unfold read_and_validate_state
  refine .bind (inspects_read _) fun bytes => ?_
  cases host.from_slice bytes <;> exact .done _

theorem inspects_verify_runtime_tree (archive : String) :
    Inspects host fun directory =>
      verify_runtime_tree host (join directory archive) (directory ++ ["runtime"]) runtime := by
  unfold verify_runtime_tree archive_tree_digests
  refine .bind (.bind (inspects_read _) fun _ => .bind inspects_archive fun _ => .done _) ?_
  exact fun _ => .bind (.done _) fun _ => .bind (inspects_read_tree _) fun _ =>
    .bind (.done _) fun _ => .done _

theorem inspects_verify_current (verification : Verification) :
    Inspects host fun directory => verify_current host directory manifest runtime verification := by
  unfold verify_current
  refine .bind inspects_assert_managed_directory fun _ =>
    .bind inspects_read_and_validate_state fun state =>
    .bind (inspects_verify_file ..) fun _ => .bind (inspects_verify_file ..) fun _ =>
    .bind (inspects_symlink_metadata _) fun metadata => .bind (.done _) fun _ => ?_
  cases verification with
  | Fast => exact .done _
  | Full => exact inspects_verify_runtime_tree _

theorem inspects_check_kept :
    Inspects host fun directory => check_kept host directory manifest runtime := by
  unfold check_kept
  exact .bind inspects_assert_managed_directory fun _ =>
    .bind inspects_read_and_validate_state fun state =>
    .bind (inspects_verify_file ..) fun _ => .bind (inspects_verify_file ..) fun _ => .done _

/-! ## Their verdicts -/

/-- A check that is interrupted has changed nothing, and does not pass. -/
theorem Inspects.always {f : Path → Io α} (hf : Inspects host f) (directory : Path)
    (s : Option Node) : Always (machine host) (f directory) s fun op torn result s' =>
      op.inspects directory ∧ torn = s ∧ s' = s ∧ ∀ a, result ≠ some (.ok a) :=
  (hf.strict directory).always (fun _ s h => exec_looks h.looks s) fun _ _ _ h ht =>
    torn_looks h.looks ht

/-- A file that holds the marker. -/
def is_marker (node : Option Node) : Prop :=
  ∃ content, node.bind follow = some (.file content) ∧
    from_utf8 content = some MANAGED_MARKER_VALUE

/-- A directory of the installer. -/
def managed (node : Option Node) : Prop :=
  ∃ entries, node = some (.dir entries) ∧ is_marker (entries.lookup MANAGED_MARKER)

theorem read_answer (node : Option Node) (content : Bytes) :
    Query.read.answer node = .ok content ↔ node.bind follow = some (.file content) := by
  unfold Query.answer
  split
  · rename_i content' h
    simp [h]
  · rename_i h
    exact ⟨fun e => (by cases e), fun e => absurd e (h content)⟩

theorem run_read_to_string (host : Host) (path : Path) (s : Option Node) :
    (run (machine host) (read_to_string path) s).1 = .ok MANAGED_MARKER_VALUE ↔
      is_marker (find path s) := by
  change (run (machine host) (fs (Query.read.answer (find path s)) >>= fun bytes =>
    lift ((from_utf8 bytes).elim (.error .Filesystem) .ok)) s).1 = _ ↔ _
  cases hread : Query.read.answer (find path s) with
  | error e =>
    refine ⟨fun h => (by cases h), ?_⟩
    rintro ⟨content, hcontent, -⟩
    rw [(read_answer _ _).2 hcontent] at hread
    cases hread
  | ok content =>
    have hcontent := (read_answer _ _).1 hread
    change (from_utf8 content).elim (Except.error ArtifactError.Filesystem) Except.ok = _ ↔ _
    constructor
    · intro h
      refine ⟨content, hcontent, ?_⟩
      cases hutf8 : from_utf8 content with
      | none => simp [hutf8] at h
      | some marker => simpa [hutf8] using h
    · rintro ⟨content', hcontent', hutf8⟩
      rw [hcontent] at hcontent'
      cases hcontent'
      rw [hutf8]
      rfl

/-- The check of the marker succeeds on the managed directories. -/
theorem assert_managed_iff (host : Host) (node : Option Node) :
    (run (machine host) (assert_managed_directory []) node).1 = .ok () ↔ managed node := by
  cases node with
  | none =>
    refine ⟨fun h => (by cases h), ?_⟩
    rintro ⟨entries, h, -⟩
    cases h
  | some node =>
    cases node with
    | dir entries =>
      change (run (machine host) (read_to_string [MANAGED_MARKER] >>= fun marker =>
        fail_if (marker ≠ MANAGED_MARKER_VALUE) (.Manifest "managed directory marker is invalid"))
          (some (.dir entries))).1 = _ ↔ _
      have hmarker := run_read_to_string host [MANAGED_MARKER] (some (.dir entries))
      rw [find_cons_dir, find_nil] at hmarker
      have hmanaged : managed (some (.dir entries)) ↔
          is_marker (entries.lookup MANAGED_MARKER) := by
        simp [managed]
      rw [run_bind, hmanaged, ← hmarker]
      cases run (machine host) (read_to_string [MANAGED_MARKER]) (some (.dir entries)) with
      | mk result s =>
        cases result with
        | error e => simp
        | ok marker =>
          by_cases h : marker = MANAGED_MARKER_VALUE <;> simp [fail_if, lift, h]
    | _ =>
      refine ⟨fun h => (by cases h), ?_⟩
      rintro ⟨entries, h, -⟩
      cases h

/-- A complete installation, as `verify_current` has it. -/
def verified (host : Host) (manifest : ArtifactManifest) (runtime : RuntimeArtifact)
    (node : Option Node) : Prop :=
  (run (machine host) (verify_current host [] manifest runtime .Full) node).1 = .ok ()

theorem verified.managed {node : Option Node} (h : verified host manifest runtime node) :
    managed node := by
  rw [verified, verify_current, run_bind] at h
  rw [← assert_managed_iff host]
  split at h
  · rename_i heq
    rw [heq]
  · cases h

/-- An inspection below a directory succeeds there as it does from the root. -/
theorem Inspects.run_ok {f : Path → Io α} (hf : Inspects host f) {directory : Path}
    {s : Option Node} {a : α} (h : (run (machine host) (f []) (find directory s)).1 = .ok a) :
    run (machine host) (f directory) s = (.ok a, s) := by
  rw [hf.relative, h]

theorem Inspects.run_error {f : Path → Io α} (hf : Inspects host f) {directory : Path}
    {s : Option Node} (h : ∀ a, (run (machine host) (f []) (find directory s)).1 ≠ .ok a) :
    ∃ e, run (machine host) (f directory) s = (.error e, s) := by
  rw [hf.relative]
  cases hresult : (run (machine host) (f []) (find directory s)).1 with
  | error e => exact ⟨e, rfl⟩
  | ok a => exact absurd hresult (h a)

end Inferences.Artifacts
