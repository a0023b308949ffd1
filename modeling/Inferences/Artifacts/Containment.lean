import Inferences.Artifacts.Readiness

/-!
# Where an extraction goes

An extraction works on paths that are its destination joined with plain names
(`Op.contained`), whatever the entries of the archive are and wherever it
stops. It makes no links (`extraction_contained`).
-/

namespace Inferences.Artifacts

open Node Program

/-- A name that leads to an entry of the directory it stands in. -/
def normal_name (name : String) : Prop :=
  name ≠ "" ∧ name ≠ "." ∧ name ≠ ".." ∧ '/' ∉ name.toList

instance : DecidablePred normal_name := fun name =>
  inferInstanceAs (Decidable (name ≠ "" ∧ name ≠ "." ∧ name ≠ ".." ∧ '/' ∉ name.toList))

/-- A path of plain names that leads on. -/
def normal_path (path : Path) : Prop := path ≠ [] ∧ ∀ name ∈ path, normal_name name

/-- A path below the directory, by plain names. -/
def below (directory path : Path) : Prop :=
  ∃ relative, normal_path relative ∧ path = directory ++ relative

/-- The components of a path as Unix has them. -/
def unix (path : List Component) : Prop := ∀ name, Component.Normal name ∈ path → normal_name name

/-- The path and the link target of the entry are those of a Unix system. -/
def ArchiveEntry.unix (entry : ArchiveEntry) : Prop :=
  (∀ path, entry.path = some path → Artifacts.unix path) ∧
    ∀ target, entry.link_name = .ok (some target) → Artifacts.unix target

/-- The readers of archives split the paths of the entries as Unix does. -/
def UnixPaths (host : Host) : Prop :=
  ∀ file entries, host.zip file = some entries ∨ host.tar file = some entries →
    ∀ entry, some entry ∈ entries → entry.unix

/-- What an extraction may do: read the archive, make directories, write files
    and look at files. All is below the destination, which it may make again. -/
def Op.contained (archive destination : Path) : Op → Prop
  | .query .read path => path = archive ∨ below destination path
  | .query .is_file path => below destination path
  | .change .create_dir_all path => path = destination ∨ below destination path
  | .change .create path | .change (.append _) path => below destination path
  | .service _ => True
  | _ => False

/-- The extraction stays below its destination, and makes no links there,
    whatever befalls it. -/
structure Contained (host : Host) (archive destination : Path) (extract : Io Unit) : Prop where
  paths : extract.Calls (Op.contained archive destination)
  links : ∀ s result s', find destination s = some (.dir []) →
    Faulty (machine host) (fun _ _ => True) extract s result s' →
    ∀ path node, find (destination ++ path) s' = some node → file_type node ≠ .symlink

/-! ## Paths -/

theorem eq_map_of_mapM_normal {path : List Component} {safe : Path}
    (h : path.mapM Component.normal = some safe) : path = safe.map .Normal := by
  induction path generalizing safe with
  | nil =>
    cases h
    rfl
  | cons component path ih =>
    rw [List.mapM_cons] at h
    obtain ⟨name, hname, h⟩ := Option.bind_eq_some_iff.1 h
    obtain ⟨names, hnames, h⟩ := Option.bind_eq_some_iff.1 h
    cases h
    rw [List.map_cons, ← ih hnames]
    cases component <;> cases hname
    rfl

/-- A safe path has normal names. -/
theorem plain_safe_relative {path : List Component} {safe : Path} (hpath : unix path)
    (h : safe_relative path = some safe) : normal_path safe := by
  rw [safe_relative] at h
  split at h
  · cases h
  rename_i hne
  obtain rfl := eq_map_of_mapM_normal h
  refine ⟨fun hnil => hne (congrArg _ hnil), fun name hname => ?_⟩
  exact hpath name (List.mem_map_of_mem hname)

theorem strip_prefix_suffix {components : List Component} {path stripped : Path}
    (h : strip_prefix components path = some stripped) : stripped <:+ path := by
  induction components generalizing path with
  | nil =>
    cases h
    exact List.suffix_rfl
  | cons component components ih =>
    cases component with
    | Normal value =>
      cases path with
      | nil => cases h
      | cons name path =>
        unfold strip_prefix at h
        split at h
        · exact (ih h).trans (List.suffix_cons ..)
        · cases h
    | _ => cases h

/-- So has what follows the prefix. -/
theorem plain_strip_archive_prefix {path : List Component} {prefix_path : String}
    {relative : Path} (hpath : unix path)
    (h : strip_archive_prefix path prefix_path = .ok (some relative)) :
    normal_path relative := by
  unfold strip_archive_prefix at h
  split at h
  · cases h
  rename_i safe hsafe
  have hplain := plain_safe_relative hpath hsafe
  split at h
  · cases h
    exact hplain
  split at h
  · cases h
  · rename_i hstrip
    cases h
    rename_i hne
    exact ⟨hne, fun name hname => hplain.2 name ((strip_prefix_suffix hstrip).subset hname)⟩
  · cases h

/-- A component more keeps the names normal. -/
theorem plain_push_component {parts parts' : Path} {component : Component}
    (hparts : ∀ name ∈ parts, normal_name name) (hcomponent : unix [component])
    (h : push_component parts component = some parts') : ∀ name ∈ parts', normal_name name := by
  cases component with
  | Normal value =>
    cases h
    intro name hname
    rcases List.mem_append.1 hname with hname | hname
    · exact hparts name hname
    · rw [List.mem_singleton.1 hname]
      exact hcomponent value (.head _)
  | ParentDir =>
    rw [push_component] at h
    split at h
    · cases h
    · cases h
      exact fun name hname => hparts name (List.mem_of_mem_dropLast hname)
  | CurDir =>
    cases h
    exact hparts
  | RootDir => cases h

theorem plain_foldlM_push {target : List Component} {parts parts' : Path}
    (hparts : ∀ name ∈ parts, normal_name name) (htarget : unix target)
    (h : target.foldlM push_component parts = some parts') : ∀ name ∈ parts', normal_name name := by
  induction target generalizing parts with
  | nil =>
    cases h
    exact hparts
  | cons component target ih =>
    rw [List.foldlM_cons] at h
    obtain ⟨parts₁, hpush, h⟩ := Option.bind_eq_some_iff.1 h
    refine ih (plain_push_component hparts (fun name hname => ?_) hpush)
      (fun name hname => htarget name (.tail _ hname)) h
    exact htarget name (List.mem_cons.2 (.inl (List.mem_singleton.1 hname)))

/-- The target of a link has normal names, when it is followed at all. -/
theorem plain_normalize_join {base path : Path} {target : List Component}
    (hbase : ∀ name ∈ base, normal_name name) (htarget : unix target)
    (h : normalize_join base target = some path) : normal_path path := by
  rw [normalize_join] at h
  split at h
  · cases h
  split at h
  · cases h
  · rename_i hne
    exact ⟨fun hnil => hne (hnil ▸ h), plain_foldlM_push hbase htarget h⟩

/-- The links that a tar archive has made so far: where they are and what they
    lead to. -/
def plain_links (links : Links) : Prop :=
  ∀ link target, links.lookup link = some target → normal_path link ∧ unix target

/-- So has the file at the end of the links. -/
theorem plain_resolve_link {links : Links} (hlinks : plain_links links) {turns : Nat}
    {current source : Path} (hcurrent : normal_path current)
    (h : resolve_link links turns current = .ok source) : normal_path source := by
  induction turns generalizing current with
  | zero => cases h
  | succ turns ih =>
    rw [resolve_link] at h
    split at h
    · cases h
      exact hcurrent
    · rename_i target htarget
      split at h
      · cases h
      · rename_i next hnext
        have hbase : ∀ name ∈ current.dropLast, normal_name name :=
          fun name hname => hcurrent.2 name (List.mem_of_mem_dropLast hname)
        exact ih (plain_normalize_join hbase (hlinks current target htarget).2 hnext) h

/-- So have all links, with one more. -/
theorem plain_links_insert {links : Links} (hlinks : plain_links links) {link : Path}
    {target : List Component} (hlink : normal_path link) (htarget : unix target) :
    plain_links (links.insert link target) := by
  intro link' target' hlookup
  by_cases hsame : link' = link
  · subst hsame
    rw [Finmap.lookup_insert] at hlookup
    cases hlookup
    exact ⟨hlink, htarget⟩
  · rw [Finmap.lookup_insert_of_ne _ hsame] at hlookup
    exact hlinks link' target' hlookup

/-! ## The operations of an extraction -/

variable {archive destination relative : Path} {prefix_path : String}

/-- A path of normal names below the destination stays there. -/
theorem below_of_plain (h : normal_path relative) : below destination (destination ++ relative) :=
  ⟨relative, h, rfl⟩

/-- The parent of a path below the destination. -/
theorem contained_parent (h : normal_path relative) :
    (change .create_dir_all (destination ++ relative.dropLast)).Calls
      (Op.contained archive destination) := by
  refine ⟨?_, calls_fs⟩
  by_cases hparent : relative.dropLast = []
  · rw [hparent, List.append_nil]
    exact .inl rfl
  · exact .inr ⟨_, ⟨hparent, fun name hname => h.2 name (List.mem_of_mem_dropLast hname)⟩, rfl⟩

theorem contained_create_dir_all (h : normal_path relative) :
    (change .create_dir_all (destination ++ relative)).Calls
      (Op.contained archive destination) := ⟨.inr (below_of_plain h), calls_fs⟩

theorem contained_write_entry (h : normal_path relative) (entry : ArchiveEntry) :
    (write_entry (destination ++ relative) entry).Calls (Op.contained archive destination) :=
  Calls.bind ⟨below_of_plain h, calls_fs⟩ fun _ =>
    Calls.bind ⟨below_of_plain h, calls_fs⟩ fun _ => trivial

theorem contained_unpack (h : normal_path relative) (entry : ArchiveEntry) :
    (unpack (destination ++ relative) entry).Calls (Op.contained archive destination) := by
  unfold unpack
  split
  · exact contained_create_dir_all h
  · exact contained_write_entry h entry

/-- The extraction of an entry stays below the destination. -/
theorem contained_extract_zip_entry {entry : Option ArchiveEntry}
    (hunix : ∀ e, entry = some e → e.unix) :
    (extract_zip_entry destination prefix_path entry).Calls
      (Op.contained archive destination) := by
  refine Calls.bind (Calls.map_err ⟨trivial, calls_fs⟩) fun _ => ?_
  cases entry with
  | none => trivial
  | some entry =>
    dsimp only
    cases hpath : entry.path with
    | none => trivial
    | some enclosed =>
      have henclosed := (hunix entry rfl).1 enclosed hpath
      dsimp only
      cases hstrip : strip_archive_prefix enclosed prefix_path with
      | error e => trivial
      | ok relative =>
        cases relative with
        | none => trivial
        | some relative =>
          have hplain := plain_strip_archive_prefix henclosed hstrip
          rw [lift_ok_bind]
          dsimp only
          split
          · exact contained_create_dir_all hplain
          split
          · trivial
          · exact Calls.bind (contained_parent hplain) fun _ => contained_write_entry hplain entry

/-- The extraction of an entry stays below the destination. -/
theorem contained_extract_tar_entry {entry : Option ArchiveEntry} (links : Links)
    (hunix : ∀ e, entry = some e → e.unix) :
    (extract_tar_entry destination prefix_path links entry).Calls
      (Op.contained archive destination) := by
  refine Calls.bind (Calls.map_err ⟨trivial, calls_fs⟩) fun _ => ?_
  cases entry with
  | none => trivial
  | some entry =>
    dsimp only
    cases hpath : entry.path with
    | none => trivial
    | some path =>
      have hpath := (hunix entry rfl).1 path hpath
      dsimp only
      cases hstrip : strip_archive_prefix path prefix_path with
      | error e => trivial
      | ok relative =>
        cases relative with
        | none => trivial
        | some relative =>
          have hplain := plain_strip_archive_prefix hpath hstrip
          rw [lift_ok_bind]
          dsimp only
          cases entry.entry_type with
          | dir => exact Calls.bind (contained_create_dir_all hplain) fun _ => trivial
          | file =>
            exact Calls.bind (contained_parent hplain) fun _ =>
              Calls.bind (contained_unpack hplain entry).map_err fun _ => trivial
          | symlink =>
            dsimp only
            rcases entry.link_name with _ | _ | link
            · trivial
            · trivial
            · exact Calls.bind trivial fun _ => trivial
          | other => trivial

/-- The links are collected as the paths of the entries have them. -/
theorem yields_extract_tar_entry {entry : Option ArchiveEntry} {links : Links}
    (hunix : ∀ e, entry = some e → e.unix) (hlinks : plain_links links) :
    (extract_tar_entry destination prefix_path links entry).Yields plain_links := by
  refine Yields.bind (yields_true _) fun _ _ => ?_
  cases entry with
  | none => trivial
  | some entry =>
    dsimp only
    cases hpath : entry.path with
    | none => trivial
    | some path =>
      have hpath := (hunix entry rfl).1 path hpath
      dsimp only
      cases hstrip : strip_archive_prefix path prefix_path with
      | error e => trivial
      | ok relative =>
        cases relative with
        | none => exact hlinks
        | some relative =>
          have hplain := plain_strip_archive_prefix hpath hstrip
          rw [lift_ok_bind]
          dsimp only
          cases entry.entry_type with
          | dir => exact Yields.bind (yields_true _) fun _ _ => hlinks
          | file =>
            exact Yields.bind (yields_true _) fun _ _ =>
              Yields.bind (yields_true _) fun _ _ => hlinks
          | symlink =>
            dsimp only
            cases hlink : entry.link_name with
            | error => trivial
            | ok link =>
              cases link with
              | none => trivial
              | some link =>
                have hlink := (hunix entry rfl).2 link hlink
                exact Yields.bind (yields_true _) fun _ _ => plain_links_insert hlinks hplain hlink
          | other => trivial

theorem contained_extract_tar_entries {entries : List (Option ArchiveEntry)} (links : Links)
    (hunix : ∀ entry, some entry ∈ entries → entry.unix) :
    (entries.foldlM (extract_tar_entry destination prefix_path) links).Calls
      (Op.contained archive destination) := by
  induction entries generalizing links with
  | nil => trivial
  | cons entry entries ih =>
    rw [List.foldlM_cons]
    refine Calls.bind (contained_extract_tar_entry links fun e he => hunix e (he ▸ .head _))
      fun links => ih links fun e he => hunix e (.tail _ he)

theorem yields_extract_tar_entries {entries : List (Option ArchiveEntry)} {links : Links}
    (hunix : ∀ entry, some entry ∈ entries → entry.unix) (hlinks : plain_links links) :
    (entries.foldlM (extract_tar_entry destination prefix_path) links).Yields plain_links := by
  induction entries generalizing links with
  | nil => exact hlinks
  | cons entry entries ih =>
    rw [List.foldlM_cons]
    exact Yields.bind (yields_extract_tar_entry (fun e he => hunix e (he ▸ .head _)) hlinks)
      fun links hlinks => ih (fun e he => hunix e (.tail _ he)) hlinks

/-- A link is replaced by the file it leads to: both are below the destination. -/
theorem contained_extract_tar_link {links : Links} (hlinks : plain_links links) {link : Path}
    (hlink : normal_path link) : (extract_tar_link destination links link).Calls
      (Op.contained archive destination) := by
  unfold extract_tar_link
  cases hresolve : resolve_link_source link links with
  | error e => trivial
  | ok source =>
    have hsource := plain_resolve_link hlinks hlink hresolve
    rw [lift_ok_bind]
    refine Calls.bind ⟨below_of_plain hsource, fun r => trivial⟩ fun present => ?_
    refine Calls.bind trivial fun _ => Calls.bind (contained_parent hlink) fun _ => ?_
    exact Calls.bind ⟨.inr (below_of_plain hsource), calls_fs⟩ fun content =>
      Calls.bind ⟨below_of_plain hlink, calls_fs⟩ fun _ => ⟨below_of_plain hlink, calls_fs⟩

theorem contained_extract_zip {host : Host} (hunix : UnixPaths host) :
    (extract_zip host archive destination prefix_path).Calls
      (Op.contained archive destination) := by
  refine Calls.bind ⟨.inl rfl, calls_fs⟩ fun file => ?_
  refine Calls.bind (Calls.map_err ⟨trivial, calls_fs⟩) fun _ => ?_
  cases hentries : host.zip file with
  | none => trivial
  | some entries =>
    exact Calls.forM fun entry hentry => contained_extract_zip_entry fun e he =>
      hunix file entries (.inl hentries) e (he ▸ hentry)

theorem contained_extract_tar_gz {host : Host} (hunix : UnixPaths host) :
    (extract_tar_gz host archive destination prefix_path).Calls
      (Op.contained archive destination) := by
  refine Calls.bind ⟨.inl rfl, calls_fs⟩ fun file => ?_
  refine Calls.bind (Calls.map_err ⟨trivial, calls_fs⟩) fun _ => ?_
  cases hentries : host.tar file with
  | none => trivial
  | some entries =>
    have hunix := hunix file entries (.inr hentries)
    -- what the first pass notes are links below the destination; the second makes only these
    refine Calls.bind_of_yields (contained_extract_tar_entries ∅ hunix)
      (yields_extract_tar_entries hunix fun link target h => ?_) fun links hlinks => ?_
    · rw [Finmap.lookup_empty] at h
      cases h
    · refine Calls.forM fun link hlink => contained_extract_tar_link hlinks ?_
      have hkey : link ∈ links.keys := (Finset.mem_sort _).1 hlink
      obtain ⟨target, htarget⟩ := Finmap.mem_iff.1 (Finmap.mem_keys.1 hkey)
      exact (hlinks link target htarget).1

/-! ## What they do -/

variable {host : Host} {s s' : Option Node}

/-- Making a directory on the way to a plain directory, or below it, leaves it
    plain. -/
theorem plain_create_dir_all_prefix {path relative : Path}
    (hpath : path <+: destination ++ relative) (hplain : plain_dir (find destination s))
    (h : Change.create_dir_all.apply path s = some s') : plain_dir (find destination s') := by
  rcases List.prefix_or_prefix_of_prefix hpath (List.prefix_append destination relative) with
    ⟨rest, hrest⟩ | ⟨rest, rfl⟩
  · -- the directory that is made is there
    have hact : Change.create_dir_all.act (find path s) = some (find path s') := find_alter_self h
    have hsame : find path s' = find path s := by
      cases hfind : find path s with
      | none =>
        obtain ⟨entries, hentries, -⟩ := hplain
        rw [← hrest, find_append, hfind, find_none] at hentries
        cases hentries
      | some node =>
        rw [hfind] at hact
        exact create_dir_all_again hact
    rw [← hrest, find_append, hsame, ← find_append, hrest]
    exact hplain
  · exact (plain_create_dir_all hplain (find_alter h)).1

theorem plain_change {c : Change} {path : Path}
    (hop : (Op.change c path).contained archive destination)
    (hplain : plain_dir (find destination s))
    (h : c.apply path s = some s') : plain_dir (find destination s') := by
  cases c with
  | create_dir_all =>
    rcases hop with rfl | ⟨relative, -, rfl⟩
    · exact plain_create_dir_all_prefix (List.prefix_append path []) hplain h
    · exact plain_create_dir_all_prefix List.prefix_rfl hplain h
  | create =>
    obtain ⟨relative, -, rfl⟩ := hop
    exact (plain_write .create hplain (find_alter h) (fun _ => rfl) (by rintro n ⟨⟩; rfl)
      fun _ => rfl).1
  | append bytes =>
    obtain ⟨relative, -, rfl⟩ := hop
    exact (plain_write (.append bytes) hplain (find_alter h) (fun _ => rfl) (by rintro n ⟨⟩)
      fun _ => rfl).1
  | _ => exact hop.elim

theorem contained_exec {op : Op} (hop : op.contained archive destination)
    (hplain : plain_dir (find destination s)) :
    plain_dir (find destination ((machine host).exec op s).2) := by
  cases op with
  | change c path =>
    change plain_dir (find destination (done s (c.apply path s)).2)
    cases happly : c.apply path s with
    | none => exact hplain
    | some s' => exact plain_change hop hplain happly
  | rename => exact hop.elim
  | _ => exact hplain

theorem contained_torn {op : Op} {torn : Option Node} (hop : op.contained archive destination)
    (ht : (machine host).torn op s torn) (hplain : plain_dir (find destination s)) :
    plain_dir (find destination torn) := by
  rcases ht with rfl | ht
  · exact hplain
  cases op with
  | change c path =>
    cases c with
    | append bytes =>
      obtain ⟨part, -, happly⟩ := ht
      have hpart : (Op.change (.append part) path).contained archive destination := hop
      exact plain_change hpart hplain happly
    | create_dir_all =>
      obtain ⟨path', hstart, happly⟩ := ht
      rcases hop with rfl | ⟨relative, -, rfl⟩
      · exact plain_create_dir_all_prefix (hstart.trans (List.prefix_append path [])) hplain happly
      · exact plain_create_dir_all_prefix hstart hplain happly
    | remove_dir_all => exact hop.elim
    | _ => exact ht.elim
  | _ => exact ht.elim

/-- A plain tree has no links. -/
theorem no_links_of_plain {node : Option Node} (h : plain_dir node) {path : Path} {n : Node}
    (hfind : find path node = some n) : file_type n ≠ .symlink := by
  obtain ⟨entries, rfl, hdir⟩ := h
  cases plain_find hdir hfind with
  | file => simp [file_type]
  | dir => simp [file_type]

theorem contained_of_calls {extract : Io Unit}
    (h : extract.Calls (Op.contained archive destination)) :
    Contained host archive destination extract where
  paths := h
  links s result s' hempty hrun path node hnode := by
    have hplain : plain_dir (find destination s) := by
      rw [hempty]
      exact ⟨[], rfl, plain_empty⟩
    rw [find_append] at hnode
    exact no_links_of_plain (hrun.invariant (fun _ _ => contained_exec)
      (fun _ _ _ => contained_torn) h hplain) hnode

/-- The extraction of an archive of either format stays below its destination. -/
theorem extraction_contained (host : Host) (hunix : UnixPaths host) (archive destination : Path)
    (prefix_path : String) :
    Contained host archive destination (extract_zip host archive destination prefix_path) ∧
      Contained host archive destination
        (extract_tar_gz host archive destination prefix_path) :=
  ⟨contained_of_calls (contained_extract_zip hunix),
    contained_of_calls (contained_extract_tar_gz hunix)⟩

/-- A link to a file, a link out of the destination, and a path that leads out of
    it. -/
def crooked_entries : List ArchiveEntry := [
  { small_entry with
    path := some [.Normal "llama-b10964", .Normal "server"]
    entry_type := .symlink
    link_name := .ok (some [.CurDir, .Normal "llama-server"]) },
  { small_entry with
    path := some [.Normal "llama-b10964", .Normal "passwd"]
    entry_type := .symlink
    link_name := .ok (some [.ParentDir, .ParentDir, .Normal "passwd"]) },
  { small_entry with
    path := some [.Normal "llama-b10964", .ParentDir, .ParentDir, .Normal "llama-server"] }]

/-- A host whose archives have the small entry and these. -/
def crooked_host : Host where
  __ := small_host
  zip _ := some ((small_entry :: crooked_entries).map some)
  tar _ := some ((small_entry :: crooked_entries).map some)

theorem unixPaths_crooked_host : UnixPaths crooked_host := by
  have hentries : ∀ entry ∈ small_entry :: crooked_entries, entry.unix := by
    simp only [crooked_entries, small_entry, List.forall_mem_cons, ArchiveEntry.unix,
      Option.some.injEq, forall_eq', Except.ok.injEq, unix, reduceCtorEq, List.mem_cons,
      List.not_mem_nil, Component.Normal.injEq, false_or, or_false, forall_eq_or_imp, forall_eq,
      false_implies, implies_true, and_true]
    decide
  rintro file entries (hentry | hentry) entry hmem
  all_goals
    obtain rfl := Option.some.inj hentry
    obtain ⟨entry', hmem', heq⟩ := List.mem_map.1 hmem
    exact Option.some.inj heq ▸ hentries entry' hmem'

theorem extraction_contained_crooked_host :
    Contained crooked_host ["archive"] ["runtime"]
        (extract_zip crooked_host ["archive"] ["runtime"] "llama-b10964") ∧
      Contained crooked_host ["archive"] ["runtime"]
        (extract_tar_gz crooked_host ["archive"] ["runtime"] "llama-b10964") :=
  extraction_contained crooked_host unixPaths_crooked_host _ _ _

end Inferences.Artifacts
