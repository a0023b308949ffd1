import Inferences.Artifacts.Entries

/-!
# Extraction and verification

What the installer extracts from an archive is a plain tree, whatever the
archive (`extract_runtime_ok`). When the digests of the archive can be
computed, they are those of the files of that tree, as long as the tar reader
unpacks the regular entries as files (`unpacks_files`).
-/

namespace Inferences.Artifacts

open Node Program

variable {host : Host} {node node' : Option Node} {s s' : Option Node} {files : Digests}

/-- The map has the digests of the files of a directory. -/
def Represents (host : Host) (files : Digests) (node : Option Node) : Prop :=
  ∀ path, files.lookup path = (content node path).map host.sha256

/-! ## The digests of a plain tree -/

/-- The digests of the entries are added to those of files elsewhere. -/
def Collects (host : Host) (entries : List (String × Node)) : Prop :=
  ∀ relative (files : Digests),
    (∀ name ∈ entries.map Prod.fst, ∀ path, files.lookup (relative ++ name :: path) = none) →
    ∃ files', collect_entries host relative files entries = .ok files' ∧
      (∀ name ∈ entries.map Prod.fst, ∀ path, files'.lookup (relative ++ name :: path) =
        (content (entries.lookup name) path).map host.sha256) ∧
      ∀ path, (∀ name ∈ entries.map Prod.fst, ¬ relative ++ [name] <+: path) →
        files'.lookup path = files.lookup path

/-- One of the entries: what is collected for it. -/
def CollectsEntry (host : Host) (name : String) (node : Node) : Prop :=
  ∀ relative (files : Digests), (∀ path, files.lookup (relative ++ name :: path) = none) →
    ∃ files', (∀ entries, collect_entries host relative files ((name, node) :: entries) =
        collect_entries host relative files' entries) ∧
      (∀ path, files'.lookup (relative ++ name :: path) =
        (content (some node) path).map host.sha256) ∧
      ∀ path, ¬ relative ++ [name] <+: path → files'.lookup path = files.lookup path

theorem collects_file (name : String) (bytes : Bytes) : CollectsEntry host name (.file bytes) := by
  intro relative files hfresh
  refine ⟨files.insert (relative ++ [name]) (host.sha256 bytes), fun entries => ?_, fun path => ?_,
    fun path hpath => ?_⟩
  · rw [collect_entries, hfresh []]
    rfl
  · cases path with
    | nil => exact Finmap.lookup_insert _
    | cons next path =>
      rw [Finmap.lookup_insert_of_ne _ (by simp), hfresh]
      exact (congrArg (Option.map host.sha256) (content_none path)).symm
  · refine Finmap.lookup_insert_of_ne _ fun h => hpath ?_
    rw [h]

/-- What is collected for a directory, by path. -/
theorem Collects.dir {entries : List (String × Node)} (h : Collects host entries)
    {relative : Path} (hfresh : ∀ path, files.lookup (relative ++ path) = none) :
    ∃ files', collect_entries host relative files entries = .ok files' ∧
      (∀ path, files'.lookup (relative ++ path) =
        (content (some (.dir entries)) path).map host.sha256) ∧
      ∀ path, ¬ relative <+: path → files'.lookup path = files.lookup path := by
  obtain ⟨files', hcollect, hbelow, hothers⟩ := h relative files fun name _ path => hfresh _
  refine ⟨files', hcollect, fun path => ?_, fun path hpath => ?_⟩
  · cases path with
    | nil =>
      rw [hothers _ fun name _ hstart => ?_, hfresh]
      · rfl
      · have hlength := hstart.length_le
        simp only [List.length_append, List.length_singleton, List.length_nil] at hlength
        omega
    | cons name path =>
      by_cases hname : name ∈ entries.map Prod.fst
      · exact hbelow name hname path
      · rw [hothers _ fun other hother hstart => ?_, hfresh, content_cons_dir,
          lookup_of_not_mem hname, content_none]
        · rfl
        · obtain rfl := (List.cons_prefix_cons.1 ((List.prefix_append_right_inj _).1 hstart)).1
          exact hname hother
  · exact hothers path fun name _ hstart => hpath ((List.prefix_append _ _).trans hstart)

theorem collects_dir (name : String) {below : List (String × Node)} (h : Collects host below) :
    CollectsEntry host name (.dir below) := by
  intro relative files hfresh
  have hassoc : ∀ path, relative ++ name :: path = relative ++ [name] ++ path := by simp
  obtain ⟨files', hcollect, hbelow, hothers⟩ := h.dir fun path => (hassoc path ▸ hfresh path)
  refine ⟨files', fun entries => ?_, fun path => hassoc path ▸ hbelow path, hothers⟩
  rw [collect_entries, collect_tree_digests, hcollect]
  rfl

/-- The digests of a directory are those of its entries. -/
theorem collects_entries {entries : List (String × Node)} (hnodup : (entries.map Prod.fst).Nodup)
    (hentries : ∀ name node, (name, node) ∈ entries → CollectsEntry host name node) :
    Collects host entries := by
  induction entries with
  | nil => exact fun relative files _ => ⟨files, rfl, by simp, by simp⟩
  | cons entry entries ih =>
    obtain ⟨name, node⟩ := entry
    obtain ⟨hname, hnodup⟩ := List.nodup_cons.1 hnodup
    intro relative files hfresh
    obtain ⟨files₁, hstep, hself, hothers⟩ := hentries name node (.head _) relative files
      (hfresh name (.head _))
    have hne : ∀ other ∈ entries.map Prod.fst, other ≠ name := fun other hother h =>
      hname (h ▸ hother)
    have hkept : ∀ other ≠ name, ∀ path, ¬ relative ++ [name] <+: relative ++ other :: path := by
      intro other hother path hstart
      exact hother (List.cons_prefix_cons.1 ((List.prefix_append_right_inj _).1 hstart)).1.symm
    obtain ⟨files₂, hrest, hbelow, hothers₂⟩ := ih hnodup
      (fun other node h => hentries other node (.tail _ h)) relative files₁
      fun other hother path => by
        rw [hothers _ (hkept other (hne other hother) path)]
        exact hfresh other (.tail _ hother) path
    refine ⟨files₂, (hstep entries).trans hrest, fun other hother path => ?_, fun path hpath => ?_⟩
    · by_cases hsame : other = name
      · subst hsame
        rw [hothers₂ _ fun next hnext hstart => ?_, hself, List.lookup_cons_self]
        exact hne next hnext
          (List.cons_prefix_cons.1 ((List.prefix_append_right_inj _).1 hstart)).1
      · have hmem : other ∈ entries.map Prod.fst := (List.mem_cons.1 hother).resolve_left hsame
        rw [hbelow other hmem, List.lookup_cons, beq_false_of_ne hsame]
    · rw [hothers₂ path fun next hnext => hpath next (.tail _ hnext),
        hothers path (hpath name (.head _))]

/-- The digests of any plain tree are those of its files. -/
theorem collects_plain (name : String) {node : Node} (h : Plain node) :
    CollectsEntry host name node := by
  induction h generalizing name with
  | file bytes => exact collects_file name bytes
  | dir hnodup _ ih =>
    refine collects_dir name (collects_entries hnodup fun other node hmem => ?_)
    exact ih other node (lookup_of_mem hnodup hmem) other

/-- A directory that is a plain tree. -/
def plain_dir (node : Option Node) : Prop :=
  ∃ entries, node = some (.dir entries) ∧ Plain (.dir entries)

/-- The digests of a plain tree. -/
theorem Represents.collect {tree : Node} (h : Represents host files (some tree))
    (hplain : plain_dir (some tree)) : collect_tree_digests host [] ∅ tree = .ok files := by
  obtain ⟨entries, htree, hdir⟩ := hplain
  cases htree
  have hcollects : Collects host entries := by
    cases hdir with
    | dir hnodup hentries =>
      refine collects_entries hnodup fun name node hmem => collects_plain name ?_
      exact hentries name node (lookup_of_mem hnodup hmem)
  obtain ⟨files', hcollect, hbelow, -⟩ := hcollects.dir fun path => Finmap.lookup_empty ([] ++ path)
  have hsame : files' = files := Finmap.ext_lookup fun path => (hbelow path).trans (h path).symm
  rw [collect_tree_digests, hcollect, hsame]

/-! ## Changes of a plain tree -/

theorem change_ok {c : Change} {path : Path} {s s' : Option Node}
    (h : run (machine host) (change c path) s = (.ok (), s')) : c.apply path s = some s' := by
  change run (machine host) (fs (done s (c.apply path s)).1) (done s (c.apply path s)).2 = _ at h
  cases happly : c.apply path s with
  | none =>
    rw [happly] at h
    cases h
  | some s₁ =>
    rw [happly] at h
    cases h
    rfl

theorem plain_find {path : Path} {node n : Node} (h : Plain node)
    (hfind : find path (some node) = some n) : Plain n := by
  induction path generalizing node with
  | nil =>
    cases hfind
    exact h
  | cons name path ih =>
    cases h with
    | file => simp [find, entry] at hfind
    | @dir entries _ hentries =>
      rw [find_cons_dir] at hfind
      cases hlookup : entries.lookup name with
      | none => simp [hlookup] at hfind
      | some below =>
        rw [hlookup] at hfind
        exact ih (hentries name below hlookup) hfind

/-- The content at a path below another. -/
theorem content_append (node : Option Node) (path path' : Path) :
    content node (path ++ path') = content (find path node) path' := by
  rw [content, content, find_append]

/-- A change of a plain directory, or of what is below it. -/
theorem plain_dir_alter {parents : Bool} {act : Option Node → Option (Option Node)} {path : Path}
    (hplain : plain_dir node) (h : alter parents act path node = some node') :
    ∃ changed, act (find path node) = some changed ∧ find path node' = changed ∧
      (∀ other, ¬ path <+: other → content node' other = content node other) ∧
      ((∃ n, changed = some n ∧ Plain n ∧ (path = [] → plain_dir changed)) → plain_dir node') := by
  obtain ⟨entries, rfl, hdir⟩ := hplain
  have hnode : ∀ n, some (Node.dir entries) = some n → Plain n := by
    rintro n ⟨⟩
    exact hdir
  obtain ⟨changed, hact, hfound, hothers, hkept⟩ := alter_plain hnode h
  refine ⟨changed, hact, hfound, hothers, ?_⟩
  rintro ⟨n, rfl, hn, hroot⟩
  cases path with
  | nil =>
    rw [find_nil] at hfound
    rw [hfound]
    exact hroot rfl
  | cons name path =>
    rw [alter_cons_dir] at h
    obtain ⟨below, -, rfl⟩ := Option.map_eq_some_iff.1 h
    refine ⟨_, rfl, hkept (fun m hm => ?_) _ rfl⟩
    cases hm
    exact hn

theorem content_empty : content (some (.dir [])) = content none := by
  funext path
  cases path <;> simp [content, find, entry]

/-- Making directories leaves all files as they are. -/
theorem plain_create_dir_all {path : Path} (hplain : plain_dir node)
    (h : alter true Change.create_dir_all.act path node = some node') :
    plain_dir node' ∧ content node' = content node := by
  obtain ⟨changed, hact, hfound, hothers, hkept⟩ := plain_dir_alter hplain h
  have hnew : plain_dir changed ∧ content changed = content (find path node) := by
    obtain ⟨entries, rfl, hdir⟩ := hplain
    cases hold : find path (some (Node.dir entries)) with
    | none =>
      rw [hold] at hact
      cases hact
      exact ⟨⟨[], rfl, plain_empty⟩, content_empty⟩
    | some old =>
      rw [hold] at hact
      have hold' := plain_find hdir hold
      cases hold' with
      | file => cases hact
      | dir hnodup hentries =>
        cases hact
        exact ⟨⟨_, rfl, .dir hnodup hentries⟩, rfl⟩
  obtain ⟨entries, rfl, hdir⟩ := hnew.1
  refine ⟨hkept ⟨_, rfl, hdir, fun _ => hnew.1⟩, funext fun other => ?_⟩
  by_cases hother : path <+: other
  · obtain ⟨below, rfl⟩ := hother
    rw [content_append, content_append, hfound, hnew.2]
  · exact hothers other hother

/-- Writing a file leaves all others as they are. -/
theorem plain_write (c : Change) {path : Path} {f : Bytes → Bytes} (hplain : plain_dir node)
    (h : alter c.parents c.act path node = some node')
    (hfile : ∀ old, c.act (some (.file old)) = some (some (.file (f old))))
    (hnone : ∀ n, c.act none = some n → n = some (.file (f [])))
    (hdir : ∀ entries, c.act (some (.dir entries)) = none) :
    plain_dir node' ∧ content node' = Function.update (content node) path
      (some (f ((content node path).getD []))) := by
  obtain ⟨changed, hact, hfound, hothers, hkept⟩ := plain_dir_alter hplain h
  have hold : find path node = none ∨ ∃ old, find path node = some (.file old) := by
    obtain ⟨entries, rfl, hplain⟩ := hplain
    cases hold : find path (some (Node.dir entries)) with
    | none => exact .inl rfl
    | some old =>
      have hold' := plain_find hplain hold
      cases hold' with
      | file old => exact .inr ⟨old, rfl⟩
      | dir =>
        rw [hold, hdir] at hact
        cases hact
  -- The destination itself is a directory, which no change here takes.
  have hpath : path ≠ [] := by
    rintro rfl
    obtain ⟨entries, rfl, -⟩ := hplain
    rw [find_nil, hdir] at hact
    cases hact
  have hself : content node path = content (find path node) [] := by
    simpa using content_append node path []
  have hnew : changed = some (.file (f ((content node path).getD []))) ∧
      ∀ name below, content node (path ++ name :: below) = none := by
    rw [hself]
    rcases hold with hold | ⟨old, hold⟩
    · rw [hold] at hact ⊢
      exact ⟨hnone _ hact, fun name below => by rw [content_append, hold, content_none]⟩
    · rw [hold, hfile] at hact
      rw [hold]
      refine ⟨(Option.some.inj hact).symm, fun name below => ?_⟩
      rw [content_append, hold]
      exact content_none _
  obtain ⟨rfl, hbelow⟩ := hnew
  refine ⟨hkept ⟨_, rfl, .file _, fun h => absurd h hpath⟩, funext fun other => ?_⟩
  -- What is below the path was nothing, and is nothing below a file.
  by_cases hother : path <+: other
  · obtain ⟨below, rfl⟩ := hother
    cases below with
    | nil =>
      rw [List.append_nil, Function.update_self, content, hfound]
    | cons name below =>
      rw [Function.update_of_ne (by simp), hbelow, content_append, hfound]
      exact content_none below
  · have hne : other ≠ path := fun h => hother (h ▸ List.prefix_rfl)
    rw [Function.update_of_ne hne]
    exact hothers other hother

/-! ## Extracting an entry -/

variable {destination relative : Path} {prefix_path : String}

/-- What is below the destination of the extraction, as an extraction goes on. -/
theorem create_dir_all_ok (hplain : plain_dir (find destination s))
    (h : run (machine host) (change .create_dir_all (destination ++ relative)) s = (.ok (), s')) :
    plain_dir (find destination s') ∧
      content (find destination s') = content (find destination s) :=
  plain_create_dir_all hplain (find_alter (change_ok h))

/-- A file that is created is empty; nothing else is different. -/
theorem create_ok (hplain : plain_dir (find destination s))
    (h : run (machine host) (change .create (destination ++ relative)) s = (.ok (), s')) :
    plain_dir (find destination s') ∧ content (find destination s') =
      Function.update (content (find destination s)) relative (some []) :=
  plain_write .create hplain (find_alter (change_ok h)) (fun _ => rfl) (by rintro n ⟨⟩; rfl)
    fun _ => rfl

/-- A file has what was appended; nothing else is different. -/
theorem append_ok {bytes : Bytes} (hplain : plain_dir (find destination s))
    (h : run (machine host) (change (.append bytes) (destination ++ relative)) s = (.ok (), s')) :
    plain_dir (find destination s') ∧ content (find destination s') =
      Function.update (content (find destination s)) relative
        (some ((content (find destination s) relative).getD [] ++ bytes)) :=
  plain_write (.append bytes) hplain (find_alter (change_ok h)) (fun _ => rfl)
    (by rintro n ⟨⟩) fun _ => rfl

/-- Writing a new file, in two operations. -/
theorem write_ok {bytes : Bytes} {s₁ : Option Node} (hplain : plain_dir (find destination s))
    (hcreate : run (machine host) (change .create (destination ++ relative)) s = (.ok (), s₁))
    (happend : run (machine host) (change (.append bytes) (destination ++ relative)) s₁ =
      (.ok (), s')) :
    plain_dir (find destination s') ∧ content (find destination s') =
      Function.update (content (find destination s)) relative (some bytes) := by
  obtain ⟨hplain₁, hcontent₁⟩ := create_ok hplain hcreate
  obtain ⟨hplain', hcontent'⟩ := append_ok hplain₁ happend
  refine ⟨hplain', ?_⟩
  rw [hcontent', hcontent₁, Function.update_self, Function.update_idem]
  rfl

/-- An entry that is written is a file with its content. -/
theorem write_entry_ok {entry : ArchiveEntry} (hplain : plain_dir (find destination s))
    (h : run (machine host) (write_entry (destination ++ relative) entry) s = (.ok (), s')) :
    entry.intact = true ∧ plain_dir (find destination s') ∧ content (find destination s') =
      Function.update (content (find destination s)) relative (some entry.content) := by
  obtain ⟨_, s₁, hcreate, h⟩ := (run_bind_eq_ok _).1 h
  obtain ⟨_, s₂, happend, h⟩ := (run_bind_eq_ok _).1 h
  cases hintact : entry.intact with
  | false =>
    rw [hintact] at h
    cases h
  | true =>
    rw [hintact] at h
    cases h
    exact ⟨rfl, write_ok hplain hcreate happend⟩

/-- A file more, and its digest. -/
theorem Represents.insert {bytes : Bytes} (h : Represents host files node)
    (hcontent : content node' = Function.update (content node) relative (some bytes)) :
    Represents host (files.insert relative (host.sha256 bytes)) node' := by
  intro path
  rw [hcontent]
  by_cases hpath : path = relative
  · subst hpath
    rw [Finmap.lookup_insert, Function.update_self]
    rfl
  · rw [Finmap.lookup_insert_of_ne _ hpath, Function.update_of_ne hpath]
    exact h path

theorem Represents.same (h : Represents host files node) (hcontent : content node' = content node) :
    Represents host files node' := by
  intro path
  rw [hcontent]
  exact h path

/-- A run that starts with what is no operation. -/
theorem run_lift_ok {α β : Type} {result : Except ArtifactError α} {f : α → Io β} {b : β}
    (h : run (machine host) (lift result >>= f) s = (.ok b, s')) :
    ∃ a, result = .ok a ∧ run (machine host) (f a) s = (.ok b, s') := by
  obtain ⟨a, s₁, hresult, h⟩ := (run_bind_eq_ok _).1 h
  cases hresult
  exact ⟨a, rfl, h⟩

theorem run_archive_ok {α : Type} {e : ArtifactError} {p : Io α} {a : α}
    (h : run (machine host) (do
      (service .archive).map_err fun _ => e
      p) s = (.ok a, s')) : run (machine host) p s = (.ok a, s') := h

theorem run_map_err_ok {α : Type} {p : Io α} {f : ArtifactError → ArtifactError} {a : α}
    (h : run (machine host) (p.map_err f) s = (.ok a, s')) :
    run (machine host) p s = (.ok a, s') := by
  rw [run_map_err] at h
  cases hrun : run (machine host) p s with
  | mk result s₁ =>
    rw [hrun] at h
    cases result <;> cases h
    rfl

/-! ## ZIP -/

/-- An entry that is extracted adds the digest the archive gives for it. -/
theorem extract_zip_entry_ok {entry : Option ArchiveEntry}
    (hplain : plain_dir (find destination s))
    (h : run (machine host) (extract_zip_entry destination prefix_path entry) s = (.ok (), s')) :
    plain_dir (find destination s') ∧ ∀ files files', Represents host files (find destination s) →
      zip_entry_digest host prefix_path files entry = .ok files' →
      Represents host files' (find destination s') := by
  unfold extract_zip_entry at h
  have h := run_archive_ok h
  unfold zip_entry_digest
  cases entry with
  | none => cases h
  | some entry =>
    dsimp only at h ⊢
    cases hpath : entry.path with
    | none =>
      rw [hpath] at h
      cases h
    | some enclosed =>
      rw [hpath] at h
      obtain ⟨relative, hstrip, h⟩ := run_lift_ok h
      dsimp only
      rw [hstrip]
      cases relative with
      | none =>
        cases h
        refine ⟨hplain, fun files files' hrep hdigest => ?_⟩
        cases hdigest
        exact hrep
      | some relative =>
        dsimp only at h ⊢
        by_cases hdir : entry.entry_type = .dir
        -- A directory is made, and has no digest.
        · rw [if_pos hdir] at h
          obtain ⟨hplain', hcontent⟩ := create_dir_all_ok hplain h
          refine ⟨hplain', fun files files' hrep hdigest => ?_⟩
          change (if entry.entry_type = .dir then _ else _) = _ at hdigest
          rw [if_pos hdir] at hdigest
          cases hdigest
          exact hrep.same hcontent
        · rw [if_neg hdir] at h
          by_cases hfile : entry.entry_type = .file
          -- A file is written below its directory, and its digest added.
          · rw [if_neg (not_not_intro hfile)] at h
            obtain ⟨_, s₁, hparent, h⟩ := (run_bind_eq_ok _).1 h
            obtain ⟨hplain₁, hcontent₁⟩ := create_dir_all_ok hplain hparent
            obtain ⟨hintact, hplain', hcontent⟩ := write_entry_ok hplain₁ h
            refine ⟨hplain', fun files files' hrep hdigest => ?_⟩
            simp only [hfile, digest_entry, hintact, if_true] at hdigest
            change (if (files.lookup relative).isSome = true then _
              else Except.ok (files.insert relative (host.sha256 entry.content))) = _ at hdigest
            split at hdigest
            · cases hdigest
            · cases hdigest
              exact (hrep.same hcontent₁).insert hcontent
          · rw [if_pos hfile] at h
            cases h

/-- So do all entries. -/
theorem extract_zip_entries_ok {entries : List (Option ArchiveEntry)}
    (hplain : plain_dir (find destination s))
    (h : run (machine host) (entries.forM (extract_zip_entry destination prefix_path)) s =
      (.ok (), s')) :
    plain_dir (find destination s') ∧ ∀ files files', Represents host files (find destination s) →
      entries.foldlM (zip_entry_digest host prefix_path) files = .ok files' →
      Represents host files' (find destination s') := by
  induction entries generalizing s with
  | nil =>
    cases h
    refine ⟨hplain, fun files files' hrep hdigest => ?_⟩
    cases hdigest
    exact hrep
  | cons entry entries ih =>
    obtain ⟨_, s₁, hentry, h⟩ := (run_bind_eq_ok _).1 h
    obtain ⟨hplain₁, hfirst⟩ := extract_zip_entry_ok hplain hentry
    obtain ⟨hplain', hrest⟩ := ih hplain₁ h
    refine ⟨hplain', fun files files' hrep hdigest => ?_⟩
    rw [List.foldlM_cons] at hdigest
    cases hstep : zip_entry_digest host prefix_path files entry with
    | error e =>
      rw [hstep] at hdigest
      cases hdigest
    | ok files₁ =>
      rw [hstep] at hdigest
      exact hrest files₁ files' (hfirst files files₁ hrep hstep) hdigest

/-! ## tar -/

/-- The tar reader unpacks the regular entries as files. -/
def UnpacksFiles (entries : List (Option ArchiveEntry)) : Prop :=
  ∀ entry, some entry ∈ entries → entry.entry_type = .file → entry.unpacks_dir = false

/-- What is unpacked is a directory or a file, and a file if the reader says so. -/
theorem unpack_ok {entry : ArchiveEntry} (hplain : plain_dir (find destination s))
    (h : run (machine host) (unpack (destination ++ relative) entry) s = (.ok (), s')) :
    plain_dir (find destination s') ∧ (entry.unpacks_dir = false → entry.intact = true ∧
      content (find destination s') =
        Function.update (content (find destination s)) relative (some entry.content)) := by
  unfold unpack at h
  cases hdir : entry.unpacks_dir with
  | true =>
    rw [if_pos hdir] at h
    exact ⟨(create_dir_all_ok hplain h).1, nofun⟩
  | false =>
    rw [if_neg (by simp [hdir])] at h
    obtain ⟨hintact, hplain', hcontent⟩ := write_entry_ok hplain h
    exact ⟨hplain', fun _ => ⟨hintact, hcontent⟩⟩

/-- An entry of a tar archive adds its digest, or its link. -/
theorem extract_tar_entry_ok {entry : Option ArchiveEntry} {links links' : Links}
    (hplain : plain_dir (find destination s))
    (h : run (machine host) (extract_tar_entry destination prefix_path links entry) s =
      (.ok links', s')) :
    plain_dir (find destination s') ∧ ∀ files tree, UnpacksFiles [entry] →
      Represents host files (find destination s) →
      tar_entry_digest host prefix_path (files, links) entry = .ok tree →
      tree.2 = links' ∧ Represents host tree.1 (find destination s') := by
  unfold extract_tar_entry at h
  have h := run_archive_ok h
  unfold tar_entry_digest
  cases entry with
  | none => cases h
  | some entry =>
    dsimp only at h ⊢
    cases hpath : entry.path with
    | none =>
      rw [hpath] at h
      cases h
    | some path =>
      rw [hpath] at h
      obtain ⟨relative, hstrip, h⟩ := run_lift_ok h
      dsimp only
      rw [hstrip]
      cases relative with
      | none =>
        -- the entry is the directory that is stripped
        cases h
        refine ⟨hplain, fun files tree _ hrep hdigest => ?_⟩
        cases hdigest
        exact ⟨rfl, hrep⟩
      | some relative =>
        dsimp only at h
        cases htype : entry.entry_type with
        | dir =>
          rw [htype] at h
          obtain ⟨_, s₁, hdir, h⟩ := (run_bind_eq_ok _).1 h
          cases h
          obtain ⟨hplain', hcontent⟩ := create_dir_all_ok hplain hdir
          refine ⟨hplain', fun files tree _ hrep hdigest => ?_⟩
          cases hdigest
          exact ⟨rfl, hrep.same hcontent⟩
        | file =>
          rw [htype] at h
          obtain ⟨_, s₁, hparent, h⟩ := (run_bind_eq_ok _).1 h
          obtain ⟨_, s₂, hwrite, h⟩ := (run_bind_eq_ok _).1 h
          cases h
          obtain ⟨hplain₁, hcontent₁⟩ := create_dir_all_ok hplain hparent
          obtain ⟨hplain', hunpacked⟩ := unpack_ok hplain₁ (run_map_err_ok hwrite)
          refine ⟨hplain', fun files tree hunpacks hrep hdigest => ?_⟩
          obtain ⟨hintact, hcontent⟩ := hunpacked (hunpacks entry (.head _) htype)
          simp only [digest_entry, hintact, if_true] at hdigest
          change (if (files.lookup relative).isSome = true then _
            else Except.ok (files.insert relative (host.sha256 entry.content), links)) = _
            at hdigest
          split at hdigest
          · cases hdigest
          · cases hdigest
            exact ⟨rfl, (hrep.same hcontent₁).insert hcontent⟩
        | symlink =>
          -- a link is only noted, and made once all files are there
          rw [htype] at h
          dsimp only at h
          cases hlink : entry.link_name with
          | error e =>
            rw [hlink] at h
            cases h
          | ok link =>
            rw [hlink] at h
            cases link with
            | none => cases h
            | some link =>
              obtain ⟨_, habsolute, h⟩ := run_lift_ok h
              cases h
              refine ⟨hplain, fun files tree _ hrep hdigest => ?_⟩
              change (if (is_absolute link || (links.lookup relative).isSome) = true then _
                else Except.ok (files, links.insert relative link)) = _ at hdigest
              split at hdigest
              · cases hdigest
              · cases hdigest
                exact ⟨rfl, hrep⟩
        | other =>
          rw [htype] at h
          cases h

/-- So do all entries. -/
theorem extract_tar_entries_ok {entries : List (Option ArchiveEntry)} {links links' : Links}
    (hplain : plain_dir (find destination s))
    (h : run (machine host) (entries.foldlM (extract_tar_entry destination prefix_path) links)
      s = (.ok links', s')) :
    plain_dir (find destination s') ∧ ∀ files tree, UnpacksFiles entries →
      Represents host files (find destination s) →
      entries.foldlM (tar_entry_digest host prefix_path) (files, links) = .ok tree →
      tree.2 = links' ∧ Represents host tree.1 (find destination s') := by
  induction entries generalizing s links with
  | nil =>
    cases h
    refine ⟨hplain, fun files tree _ hrep hdigest => ?_⟩
    cases hdigest
    exact ⟨rfl, hrep⟩
  | cons entry entries ih =>
    obtain ⟨links₁, s₁, hentry, h⟩ := (run_bind_eq_ok _).1 h
    obtain ⟨hplain₁, hfirst⟩ := extract_tar_entry_ok hplain hentry
    obtain ⟨hplain', hrest⟩ := ih hplain₁ h
    refine ⟨hplain', fun files tree hunpacks hrep hdigest => ?_⟩
    obtain ⟨hentry, hentries⟩ : UnpacksFiles [entry] ∧ UnpacksFiles entries :=
      ⟨fun e he => hunpacks e (List.mem_singleton.1 he ▸ .head _),
        fun e he => hunpacks e (.tail _ he)⟩
    rw [List.foldlM_cons] at hdigest
    cases hstep : tar_entry_digest host prefix_path (files, links) entry with
    | error e =>
      rw [hstep] at hdigest
      cases hdigest
    | ok tree₁ =>
      rw [hstep] at hdigest
      obtain ⟨rfl, hrep₁⟩ := hfirst files tree₁ hentry hrep hstep
      exact hrest tree₁.1 tree hentries hrep₁ hdigest

theorem read_ok {path : Path} {bytes : Bytes}
    (h : run (machine host) (read path) s = (.ok bytes, s')) :
    s' = s ∧ (find path s).bind follow = some (.file bytes) := by
  rw [read, run_query] at h
  cases hanswer : Query.read.answer (find path s) with
  | error e =>
    rw [hanswer] at h
    cases h
  | ok bytes' =>
    rw [hanswer] at h
    cases h
    exact ⟨rfl, (read_answer _ _).1 hanswer⟩

/-- No links are followed in a plain tree. -/
theorem plain_content {bytes : Bytes} (hplain : plain_dir node)
    (h : (find relative node).bind follow = some (.file bytes)) :
    content node relative = some bytes := by
  obtain ⟨entries, rfl, hdir⟩ := hplain
  rw [content]
  cases hfind : find relative (some (Node.dir entries)) with
  | none =>
    rw [hfind] at h
    cases h
  | some n =>
    rw [hfind] at h
    cases plain_find hdir hfind with
    | file there =>
      have hthere : some (Node.file there) = some (.file bytes) := h
      cases hthere
      rfl
    | dir => cases h

theorem tar_link_digest_eq {links : Links} {link source : Path} {digest : String}
    (hsource : resolve_link_source link links = .ok source)
    (hdigest : files.lookup source = some digest) : tar_link_digest links files link =
      if (files.lookup link).isSome then .error (.Archive "duplicate tar entry")
      else .ok (files.insert link digest) := by
  have hbind {α β : Type} (a : α) (f : α → Except ArtifactError β) : .ok a >>= f = f a := rfl
  unfold tar_link_digest
  rw [hsource, hbind, hdigest]
  dsimp only
  split <;> rfl

/-- The copy for a link adds the digest of what it leads to. -/
theorem extract_tar_link_ok {links : Links} {link : Path} (hplain : plain_dir (find destination s))
    (h : run (machine host) (extract_tar_link destination links link) s = (.ok (), s')) :
    plain_dir (find destination s') ∧ ∀ files files', Represents host files (find destination s) →
      tar_link_digest links files link = .ok files' →
      Represents host files' (find destination s') := by
  obtain ⟨source, hsource, h⟩ := run_lift_ok h
  obtain ⟨is_there, s₁, hthere, h⟩ := (run_bind_eq_ok _).1 h
  cases hthere
  obtain ⟨_, -, h⟩ := run_lift_ok h
  obtain ⟨_, s₂, hparent, h⟩ := (run_bind_eq_ok _).1 h
  obtain ⟨bytes, s₃, hread, h⟩ := (run_bind_eq_ok _).1 h
  obtain ⟨_, s₄, hcreate, happend⟩ := (run_bind_eq_ok _).1 h
  obtain ⟨hplain₂, hcontent₂⟩ := create_dir_all_ok hplain hparent
  obtain ⟨rfl, hbytes⟩ := read_ok hread
  rw [find_append] at hbytes
  have hbytes := plain_content hplain₂ hbytes
  obtain ⟨hplain', hcontent⟩ := write_ok hplain₂ hcreate happend
  refine ⟨hplain', fun files files' hrep hdigest => ?_⟩
  have hdigest_source : files.lookup source = some (host.sha256 bytes) := by
    rw [hrep source, ← hcontent₂, hbytes]
    rfl
  rw [tar_link_digest_eq hsource hdigest_source] at hdigest
  split at hdigest
  · cases hdigest
  · cases hdigest
    exact (hrep.same hcontent₂).insert hcontent

/-- So do the copies for all links. -/
theorem extract_tar_links_ok {links : Links} {keys : List Path}
    (hplain : plain_dir (find destination s))
    (h : run (machine host) (keys.forM (extract_tar_link destination links)) s = (.ok (), s')) :
    plain_dir (find destination s') ∧ ∀ files files', Represents host files (find destination s) →
      keys.foldlM (tar_link_digest links) files = .ok files' →
      Represents host files' (find destination s') := by
  induction keys generalizing s with
  | nil =>
    cases h
    refine ⟨hplain, fun files files' hrep hdigest => ?_⟩
    cases hdigest
    exact hrep
  | cons link keys ih =>
    obtain ⟨_, s₁, hlink, h⟩ := (run_bind_eq_ok _).1 h
    obtain ⟨hplain₁, hfirst⟩ := extract_tar_link_ok hplain hlink
    obtain ⟨hplain', hrest⟩ := ih hplain₁ h
    refine ⟨hplain', fun files files' hrep hdigest => ?_⟩
    rw [List.foldlM_cons] at hdigest
    cases hstep : tar_link_digest links files link with
    | error e =>
      rw [hstep] at hdigest
      cases hdigest
    | ok files₁ =>
      rw [hstep] at hdigest
      exact hrest files₁ files' (hfirst files files₁ hrep hstep) hdigest

/-! ## The whole archive -/

/-- The digests that `archive_tree_digests` finds for the bytes of an archive. -/
def tree_digests (host : Host) (runtime : RuntimeArtifact) (file : Bytes) :
    Except ArtifactError Digests :=
  match runtime.archive_format with
  | .Zip => zip_tree_digests host file runtime.strip_prefix
  | .TarGz => tar_tree_digests host file runtime.strip_prefix

/-- An empty directory has no files. -/
theorem represents_empty (host : Host) (h : find destination s = some (.dir [])) :
    plain_dir (find destination s) ∧ Represents host ∅ (find destination s) := by
  rw [h]
  refine ⟨⟨[], rfl, plain_empty⟩, fun path => ?_⟩
  rw [content_empty, content_none]
  rfl

/-- The destination has become a plain tree, with the digests of the archive if
    its regular entries are unpacked as files. -/
def Extracts (host : Host) (unpacks : Bytes → Prop)
    (digests : Bytes → Except ArtifactError Digests) (archive destination : Path)
    (s s' : Option Node) : Prop :=
  ∃ file, (find archive s).bind follow = some (.file file) ∧ plain_dir (find destination s') ∧
    ∀ files, unpacks file → digests file = .ok files →
      Represents host files (find destination s')

/-- The archive is no tar archive, or its regular entries are unpacked as files. -/
def unpacks_files (host : Host) (runtime : RuntimeArtifact) (file : Bytes) : Prop :=
  runtime.archive_format = .TarGz → ∀ entries, host.tar file = some entries → UnpacksFiles entries

/-- The tree is that of the archive. -/
theorem extract_zip_ok {archive : Path} (hempty : find destination s = some (.dir []))
    (h : run (machine host) (extract_zip host archive destination prefix_path) s =
      (.ok (), s')) :
    Extracts host (fun _ => True) (zip_tree_digests host · prefix_path) archive destination
      s s' := by
  obtain ⟨hplain, hrep⟩ := represents_empty host hempty
  obtain ⟨file, s₁, hread, hrest⟩ := (run_bind_eq_ok _).1 h
  obtain ⟨rfl, hfile⟩ := read_ok hread
  have hrest := run_archive_ok hrest
  refine ⟨file, hfile, ?_⟩
  simp only [zip_tree_digests]
  cases hentries : host.zip file with
  | none =>
    rw [hentries] at hrest
    cases hrest
  | some entries =>
    rw [hentries] at hrest
    obtain ⟨hplain', hdigests⟩ := extract_zip_entries_ok hplain hrest
    exact ⟨hplain', fun files _ hfiles => hdigests ∅ files hrep hfiles⟩

/-- The tree is that of the archive, links copied. -/
theorem extract_tar_gz_ok {archive : Path} (hempty : find destination s = some (.dir []))
    (h : run (machine host) (extract_tar_gz host archive destination prefix_path) s =
      (.ok (), s')) :
    Extracts host (fun file => ∀ entries, host.tar file = some entries → UnpacksFiles entries)
      (tar_tree_digests host · prefix_path) archive destination s s' := by
  obtain ⟨hplain, hrep⟩ := represents_empty host hempty
  obtain ⟨file, s₁, hread, hrest⟩ := (run_bind_eq_ok _).1 h
  obtain ⟨rfl, hfile⟩ := read_ok hread
  have hrest := run_archive_ok hrest
  refine ⟨file, hfile, ?_⟩
  simp only [tar_tree_digests]
  cases hentries : host.tar file with
  | none =>
    rw [hentries] at hrest
    cases hrest
  | some entries =>
    rw [hentries] at hrest
    obtain ⟨links, s₂, hentry, hlinks⟩ := (run_bind_eq_ok _).1 hrest
    obtain ⟨hplain₂, hdigests₂⟩ := extract_tar_entries_ok hplain hentry
    obtain ⟨hplain', hdigests⟩ := extract_tar_links_ok hplain₂ hlinks
    refine ⟨hplain', fun files hunpacks hfiles => ?_⟩
    dsimp only at hfiles
    cases htree : entries.foldlM (tar_entry_digest host prefix_path) (∅, ∅) with
    | error e =>
      rw [htree] at hfiles
      cases hfiles
    | ok tree =>
      rw [htree] at hfiles
      obtain ⟨rfl, hrep₂⟩ := hdigests₂ ∅ tree (hunpacks entries rfl) hrep htree
      exact hdigests tree.1 files hrep₂ hfiles

/-- Extraction and verification agree on what an archive holds, if its regular
    entries are unpacked as files. -/
theorem extract_runtime_ok {runtime : RuntimeArtifact} {archive : Path}
    (hempty : find destination s = some (.dir []))
    (h : run (machine host) (extract_runtime host runtime archive destination) s = (.ok (), s')) :
    Extracts host (unpacks_files host runtime) (tree_digests host runtime) archive destination
      s s' := by
  unfold extract_runtime at h
  unfold tree_digests unpacks_files
  cases hformat : runtime.archive_format with
  | Zip =>
    rw [hformat] at h
    obtain ⟨file, hfile, hplain, hrep⟩ := extract_zip_ok hempty h
    exact ⟨file, hfile, hplain, fun files _ => hrep files trivial⟩
  | TarGz =>
    rw [hformat] at h
    obtain ⟨file, hfile, hplain, hrep⟩ := extract_tar_gz_ok hempty h
    exact ⟨file, hfile, hplain, fun files hunpacks => hrep files (hunpacks rfl)⟩

end Inferences.Artifacts
