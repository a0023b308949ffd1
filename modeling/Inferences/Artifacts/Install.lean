import Inferences.Artifacts.Filling

/-!
# Installing online

What the steps of the online mode do when nothing befalls them, and from which
roots they succeed (`install_online_ok_iff`).
-/

namespace Inferences.Artifacts

open Node Program

variable {α : Type} {host : Host} {manifest : ArtifactManifest} {runtime : RuntimeArtifact}
  {entries : List (String × Node)} {name : String}

/-! ## New directories -/

theorem run_create_dir (h : entries.lookup name = none) :
    run (machine host) (change .create_dir [name]) (root entries) =
      (.ok (), root (put entries name (some (.dir [])))) := by
  refine run_change ?_
  rw [apply_root, h]
  rfl

theorem run_create_dir_error (h : entries.lookup name ≠ none) :
    run (machine host) (change .create_dir [name]) (root entries) =
      (.error .Filesystem, root entries) := by
  refine run_change_error ?_
  obtain ⟨node, hnode⟩ := Option.ne_none_iff_exists'.1 h
  rw [apply_root, hnode]
  rfl

/-- A file of a directory of the root. -/
def marker_file (content : Bytes) : Node := .dir [(MANAGED_MARKER, .file content)]

/-- A new directory of the installer. -/
def marked : Node := marker_file MANAGED_MARKER_VALUE.toUTF8.toList

theorem from_utf8_marker :
    from_utf8 MANAGED_MARKER_VALUE.toUTF8.toList = some MANAGED_MARKER_VALUE := by
  decide +kernel

theorem managed_marker_file (content : Bytes) :
    managed (some (marker_file content)) ↔ from_utf8 content = some MANAGED_MARKER_VALUE := by
  have hlookup : List.lookup MANAGED_MARKER [(MANAGED_MARKER, Node.file content)] =
      some (.file content) := by simp
  constructor
  · rintro ⟨below, hbelow, content', hcontent, hutf8⟩
    cases hbelow
    rw [hlookup] at hcontent
    cases hcontent
    exact hutf8
  · exact fun h => ⟨_, rfl, content, by rw [hlookup]; rfl, h⟩

theorem managed_marked : managed (some marked) := (managed_marker_file _).2 from_utf8_marker

/-- A change of the marker of a directory that has nothing but the marker. -/
theorem apply_marker {c : Change} {node node' : Option Node} {below below' : List (String × Node)}
    (hparents : c.parents = false) (h : entries.lookup name = some (.dir below))
    (hnode : below.lookup MANAGED_MARKER = node) (hact : c.act node = some node')
    (hput : put below MANAGED_MARKER node' = below') :
    c.apply [name, MANAGED_MARKER] (root entries) =
      some (root (put entries name (some (.dir below')))) := by
  rw [Change.apply, hparents, alter_cons_dir, h, alter_cons_dir, alter_nil, hnode, hact, ← hput]
  rfl

theorem apply_create_marker (h : entries.lookup name = some (.dir [])) :
    Change.create.apply [name, MANAGED_MARKER] (root entries) =
      some (root (put entries name (some (marker_file [])))) :=
  apply_marker rfl h rfl rfl rfl

theorem apply_append_marker (bytes : Bytes) (h : entries.lookup name = some (marker_file [])) :
    (Change.append bytes).apply [name, MANAGED_MARKER] (root entries) =
      some (root (put entries name (some (marker_file bytes)))) := by
  have hlookup : List.lookup MANAGED_MARKER [(MANAGED_MARKER, Node.file [])] =
      some (.file []) := by simp
  have hput : put [(MANAGED_MARKER, .file [])] MANAGED_MARKER (some (.file bytes)) =
      [(MANAGED_MARKER, .file bytes)] := by simp [put]
  exact apply_marker rfl h hlookup rfl hput

theorem run_write_marker (host : Host) (h : entries.lookup name = some (.dir [])) :
    run (machine host) (write_marker [name]) (root entries) =
      (.ok (), root (put entries name (some marked))) := by
  rw [write_marker, List.singleton_append, run_bind_ok _ (run_change (apply_create_marker h))]
  refine run_change ?_
  rw [apply_append_marker _ (lookup_put_self ..), put_put]
  rfl

/-! ## Staging -/

/-- What comes of filling a new staging directory. -/
def staged (host : Host) (manifest : ArtifactManifest) (runtime : RuntimeArtifact) :
    Except ArtifactError Unit × Option Node :=
  let out := run (machine host) (fill_staging host manifest runtime [STAGING_DIRECTORY])
    (root [(STAGING_DIRECTORY, marked)])
  (out.1, find [STAGING_DIRECTORY] out.2)

/-- A directory that is filled keeps its marker. -/
theorem Filled.managed {directory : String} {names : List String}
    {below : List (String × Node)} {s : Option Node}
    (h : Filled directory names entries below s) (hnames : MANAGED_MARKER ∉ names)
    (hbelow : managed (some (.dir below))) : managed (find [directory] s) := by
  obtain ⟨entries', below', rfl, hdir, -, hkept⟩ := h
  obtain ⟨_, hbelow, hmarker⟩ := hbelow
  cases hbelow
  rw [find_cons_dir, find_nil, hdir]
  exact ⟨below', rfl, by rwa [hkept MANAGED_MARKER hnames]⟩

theorem filled_self {directory : String} {names : List String} {below : List (String × Node)}
    (h : entries.lookup directory = some (.dir below)) :
    Filled directory names entries below (root entries) :=
  ⟨entries, below, rfl, h, fun _ _ => rfl, fun _ _ => rfl⟩

theorem run_fill_staging (host : Host) (manifest : ArtifactManifest) (runtime : RuntimeArtifact)
    (h : entries.lookup STAGING_DIRECTORY = some marked) :
    ∃ entries', run (machine host) (fill_staging host manifest runtime [STAGING_DIRECTORY])
        (root entries) = ((staged host manifest runtime).1, root entries') ∧
      entries'.lookup STAGING_DIRECTORY = (staged host manifest runtime).2 ∧
      managed (entries'.lookup STAGING_DIRECTORY) ∧
      ∀ name, name ≠ STAGING_DIRECTORY → entries'.lookup name = entries.lookup name := by
  have hcalls := (strict_fill_staging host manifest runtime STAGING_DIRECTORY).calls
  have hfilled := hcalls.run_invariant (fun _ _ => filled_exec host) (filled_self h)
  have halike : Alike STAGING_DIRECTORY [] (root entries) (root [(STAGING_DIRECTORY, marked)]) :=
    ⟨⟨⟨_, rfl⟩, _, rfl⟩, by simp [h], by simp⟩
  obtain ⟨hresult, hstate⟩ := alike_run host (by simp) hcalls halike
  have hmanaged := hfilled.managed (by decide) managed_marked
  obtain ⟨entries', below', hs, hdir, hframe, hkept⟩ := hfilled
  have hinside := hstate.inside
  rw [hs] at hinside hmanaged
  refine ⟨entries', Prod.ext hresult hs, hinside, hmanaged, hframe⟩

/-! ## Promotion -/

/-- Something that exists, once links are followed. -/
def present (node : Option Node) : Bool := (node.bind follow).isSome

/-- From these two entries, the staging directory can be promoted. -/
def promotable (current previous : Option Node) : Prop :=
  (current = none ∧ (present previous = false ∨ managed previous)) ∨
    (managed current ∧ (previous = none ∨ managed previous))

theorem managed.present {node : Option Node} (h : managed node) : present node = true := h.follow

/-- A directory of the installer is not empty. -/
theorem managed.replaces {node : Node} {target : Option Node} (h : managed target) :
    replaces node target = false := by
  obtain ⟨below, rfl, content, hcontent, -⟩ := h
  cases below with
  | nil => cases hcontent
  | cons => rfl

/-- A directory can take the place of nothing, or of an empty directory. -/
theorem replaces_dir {below : List (String × Node)} {node : Node}
    (h : replaces (.dir below) (some node) = true) : node = .dir [] := by
  unfold Inferences.Artifacts.replaces at h
  split at h
  · contradiction
  · rename_i heq
    cases heq
    rfl
  · cases h
  · cases h

theorem run_set_aside_absent (host : Host)
    (h : present (entries.lookup CURRENT_DIRECTORY) = false) :
    run (machine host) (set_aside [CURRENT_DIRECTORY] [PREVIOUS_DIRECTORY]) (root entries) =
      (.ok (), root entries) := by
  rw [set_aside, run_bind, run_path_exists, find_cons_dir, find_nil]
  rw [present] at h
  rw [h]
  rfl

theorem run_set_aside_other (host : Host) (h : present (entries.lookup CURRENT_DIRECTORY) = true)
    (hmanaged : ¬ managed (entries.lookup CURRENT_DIRECTORY)) : ∃ e,
    run (machine host) (set_aside [CURRENT_DIRECTORY] [PREVIOUS_DIRECTORY]) (root entries) =
      (.error e, root entries) := by
  obtain ⟨e, he⟩ := run_assert_managed_error host hmanaged
  rw [present] at h
  rw [set_aside, run_bind, run_path_exists, find_cons_dir, find_nil, h]
  simp only [if_true]
  rw [run_bind_error _ he]
  exact ⟨e, rfl⟩

theorem run_set_aside_managed (host : Host) (h : managed (entries.lookup CURRENT_DIRECTORY)) :
    run (machine host) (set_aside [CURRENT_DIRECTORY] [PREVIOUS_DIRECTORY]) (root entries) =
      run (machine host) (rename [CURRENT_DIRECTORY] [PREVIOUS_DIRECTORY]) (root entries) := by
  rw [set_aside, run_bind, run_path_exists, find_cons_dir, find_nil, h.follow]
  simp only [if_true]
  rw [run_bind_ok _ (managed.run host h)]

/-- The roots with the entry `source` renamed. -/
theorem run_rename_root {source target : String} {node : Node} (hne : source ≠ target)
    (hsource : entries.lookup source = some node)
    (hreplaces : replaces node (entries.lookup target) = true) :
    run (machine host) (rename [source] [target]) (root entries) =
      (.ok (), root (put (put entries source none) target (some node))) := by
  refine run_rename ?_
  rw [rename_root hne, hsource]
  simp [hreplaces]

theorem run_rename_root_error {source target : String} {node : Node} (hne : source ≠ target)
    (hsource : entries.lookup source = some node)
    (hreplaces : replaces node (entries.lookup target) = false) :
    run (machine host) (rename [source] [target]) (root entries) =
      (.error .Filesystem, root entries) := by
  refine run_rename_error ?_
  rw [rename_root hne, hsource]
  simp [hreplaces]

theorem run_take_place {node : Node}
    (hstaging : entries.lookup STAGING_DIRECTORY = some node)
    (hreplaces : replaces node (entries.lookup CURRENT_DIRECTORY) = true) :
    run (machine host) (take_place [STAGING_DIRECTORY] [CURRENT_DIRECTORY] [PREVIOUS_DIRECTORY])
        (root entries) =
      run (machine host) (remove_managed_directory_if_present [PREVIOUS_DIRECTORY])
        (root (put (put entries STAGING_DIRECTORY none) CURRENT_DIRECTORY (some node))) := by
  rw [take_place, run_bind, run_attempt, run_rename_root (by decide) hstaging hreplaces]

theorem run_take_place_error (host : Host) {node : Node}
    (hstaging : entries.lookup STAGING_DIRECTORY = some node)
    (hreplaces : replaces node (entries.lookup CURRENT_DIRECTORY) = false)
    (hprevious : present (entries.lookup PREVIOUS_DIRECTORY) = false) :
    run (machine host) (take_place [STAGING_DIRECTORY] [CURRENT_DIRECTORY] [PREVIOUS_DIRECTORY])
        (root entries) = (.error .Filesystem, root entries) := by
  have hroll : run (machine host) (roll_back [PREVIOUS_DIRECTORY] [CURRENT_DIRECTORY])
      (root entries) = (.ok (), root entries) := by
    rw [present] at hprevious
    rw [roll_back, run_bind, run_path_exists, find_cons_dir, find_nil, hprevious]
    rfl
  rw [take_place, run_bind, run_attempt, run_rename_root_error (by decide) hstaging hreplaces]
  simp only [run_bind, hroll]
  rfl

/-- The steps of a promotion, once the old `previous` is gone. -/
theorem run_move_ok {below : List (String × Node)}
    (hstaging : entries.lookup STAGING_DIRECTORY = some (.dir below))
    (h : (entries.lookup CURRENT_DIRECTORY = none ∧
        present (entries.lookup PREVIOUS_DIRECTORY) = false) ∨
      (managed (entries.lookup CURRENT_DIRECTORY) ∧ entries.lookup PREVIOUS_DIRECTORY = none)) :
    ∃ entries', run (machine host) (do
        set_aside [CURRENT_DIRECTORY] [PREVIOUS_DIRECTORY]
        take_place [STAGING_DIRECTORY] [CURRENT_DIRECTORY] [PREVIOUS_DIRECTORY]) (root entries) =
          (.ok (), root entries') ∧ entries'.lookup CURRENT_DIRECTORY = some (.dir below) := by
  rcases h with ⟨hcurrent, hprevious⟩ | ⟨hcurrent, hprevious⟩
  · have haside := run_set_aside_absent host (by rw [hcurrent]; rfl)
    rw [run_bind_ok _ haside, run_take_place hstaging (by rw [hcurrent]; rfl)]
    refine ⟨_, run_remove_absent ?_, lookup_put_self ..⟩
    rwa [lookup_put_ne _ (by decide), lookup_put_ne _ (by decide)]
  · have hmanaged := hcurrent
    obtain ⟨current, hcurrent', -⟩ := hcurrent
    have haside := run_set_aside_managed host hmanaged
    rw [run_rename_root (by decide) hcurrent' (by rw [hprevious]; rfl)] at haside
    have hstaging' : (put (put entries CURRENT_DIRECTORY none) PREVIOUS_DIRECTORY
        (some (.dir current))).lookup STAGING_DIRECTORY = some (.dir below) := by
      rwa [lookup_put_ne _ (by decide), lookup_put_ne _ (by decide)]
    have hempty : (put (put entries CURRENT_DIRECTORY none) PREVIOUS_DIRECTORY
        (some (.dir current))).lookup CURRENT_DIRECTORY = none := by
      rw [lookup_put_ne _ (by decide), lookup_put_self]
    rw [run_bind_ok _ haside, run_take_place hstaging' (by rw [hempty]; rfl)]
    refine ⟨_, run_remove_managed ?_, ?_⟩
    · rwa [lookup_put_ne _ (by decide), lookup_put_ne _ (by decide), lookup_put_self, ← hcurrent']
    · rw [lookup_put_ne _ (by decide), lookup_put_self]

theorem run_promote_ok (host : Host) {below : List (String × Node)}
    (hstaging : entries.lookup STAGING_DIRECTORY = some (.dir below))
    (h : promotable (entries.lookup CURRENT_DIRECTORY) (entries.lookup PREVIOUS_DIRECTORY)) :
    ∃ entries', run (machine host) (promote [STAGING_DIRECTORY] [CURRENT_DIRECTORY])
        (root entries) = (.ok (), root entries') ∧
      entries'.lookup CURRENT_DIRECTORY = some (.dir below) := by
  rw [promote]
  -- the old `previous` is not there, or is removed
  by_cases hprevious : managed (entries.lookup PREVIOUS_DIRECTORY)
  · rw [run_bind_ok _ (run_remove_managed hprevious)]
    refine run_move_ok (by rwa [lookup_put_ne _ (by decide)]) ?_
    rw [lookup_put_ne _ (by decide), lookup_put_self]
    exact h.imp (fun h => ⟨h.1, rfl⟩) fun h => ⟨h.1, rfl⟩
  · have habsent : present (entries.lookup PREVIOUS_DIRECTORY) = false := by
      rcases h with ⟨-, h | h⟩ | ⟨-, h | h⟩
      · exact h
      · exact absurd h hprevious
      · rw [h]
        rfl
      · exact absurd h hprevious
    rw [run_bind_ok _ (run_remove_absent habsent)]
    refine run_move_ok hstaging ?_
    rcases h with ⟨hcurrent, -⟩ | ⟨hcurrent, h | h⟩
    · exact .inl ⟨hcurrent, habsent⟩
    · exact .inr ⟨hcurrent, h⟩
    · exact absurd h hprevious

theorem replaces_absent (below : List (String × Node)) {node : Option Node}
    (hpresent : present node = false) (hnode : node ≠ none) :
    replaces (.dir below) node = false := by
  cases node with
  | none => exact absurd rfl hnode
  | some node =>
    cases hreplaces : replaces (.dir below) (some node) with
    | false => rfl
    | true =>
      rw [replaces_dir hreplaces] at hpresent
      cases hpresent

theorem run_move_error (host : Host) {below : List (String × Node)}
    (hstaging : entries.lookup STAGING_DIRECTORY = some (.dir below))
    (hprevious : present (entries.lookup PREVIOUS_DIRECTORY) = false)
    (h : ¬ (entries.lookup CURRENT_DIRECTORY = none ∨
      (managed (entries.lookup CURRENT_DIRECTORY) ∧ entries.lookup PREVIOUS_DIRECTORY = none))) :
    ∃ e, run (machine host) (do
        set_aside [CURRENT_DIRECTORY] [PREVIOUS_DIRECTORY]
        take_place [STAGING_DIRECTORY] [CURRENT_DIRECTORY] [PREVIOUS_DIRECTORY]) (root entries) =
          (.error e, root entries) := by
  obtain ⟨hnone, hmove⟩ := not_or.1 h
  cases hcurrent : present (entries.lookup CURRENT_DIRECTORY) with
  | false =>
    rw [run_bind_ok _ (run_set_aside_absent host hcurrent)]
    exact ⟨_, run_take_place_error host hstaging (replaces_absent below hcurrent hnone) hprevious⟩
  | true =>
    by_cases hmanaged : managed (entries.lookup CURRENT_DIRECTORY)
    · have hmanaged' := hmanaged
      obtain ⟨current, hcurrent', -⟩ := hmanaged
      have hreplaces : replaces (.dir current) (entries.lookup PREVIOUS_DIRECTORY) = false :=
        replaces_absent current hprevious fun hnone => hmove ⟨hmanaged', hnone⟩
      have haside := run_set_aside_managed host hmanaged'
      rw [run_rename_root_error (by decide) hcurrent' hreplaces] at haside
      exact ⟨_, run_bind_error _ haside _⟩
    · obtain ⟨e, he⟩ := run_set_aside_other host hcurrent hmanaged
      exact ⟨e, run_bind_error _ he _⟩

/-- A promotion that cannot be made leaves `current` alone. -/
theorem run_promote_error (host : Host) {below : List (String × Node)}
    (hstaging : entries.lookup STAGING_DIRECTORY = some (.dir below))
    (h : ¬ promotable (entries.lookup CURRENT_DIRECTORY) (entries.lookup PREVIOUS_DIRECTORY)) :
    ∃ e entries', run (machine host) (promote [STAGING_DIRECTORY] [CURRENT_DIRECTORY])
        (root entries) = (.error e, root entries') ∧
      entries'.lookup CURRENT_DIRECTORY = entries.lookup CURRENT_DIRECTORY := by
  rw [promote]
  by_cases hprevious : managed (entries.lookup PREVIOUS_DIRECTORY)
  · have hcurrent : (put entries PREVIOUS_DIRECTORY none).lookup CURRENT_DIRECTORY =
        entries.lookup CURRENT_DIRECTORY := lookup_put_ne _ (by decide) _
    rw [run_bind_ok _ (run_remove_managed hprevious)]
    have hstaging' : (put entries PREVIOUS_DIRECTORY none).lookup STAGING_DIRECTORY =
        some (.dir below) := by rwa [lookup_put_ne _ (by decide)]
    obtain ⟨e, he⟩ := run_move_error host hstaging' (by rw [lookup_put_self]; rfl) (by
        rw [hcurrent, lookup_put_self]
        rintro (hnone | ⟨hmanaged, -⟩)
        · exact h (.inl ⟨hnone, .inr hprevious⟩)
        · exact h (.inr ⟨hmanaged, .inr hprevious⟩))
    exact ⟨e, _, he, hcurrent⟩
  · cases hpresent : present (entries.lookup PREVIOUS_DIRECTORY) with
    | true =>
      obtain ⟨e, he⟩ := run_remove_other host hpresent hprevious
      exact ⟨e, entries, run_bind_error _ he _, rfl⟩
    | false =>
      rw [run_bind_ok _ (run_remove_absent hpresent)]
      obtain ⟨e, he⟩ := run_move_error host hstaging hpresent (by
        rintro (hnone | ⟨hmanaged, hnone⟩)
        · exact h (.inl ⟨hnone, .inl hpresent⟩)
        · exact h (.inr ⟨hmanaged, .inl hnone⟩))
      exact ⟨e, entries, he, rfl⟩

/-! ## The whole installation -/

/-- The directory can be made anew. -/
def clear (node : Option Node) : Prop := node = none ∨ managed node

/-- The network, and what it sends, are as the manifest says. -/
def obtainable (host : Host) (manifest : ArtifactManifest) (runtime : RuntimeArtifact) : Prop :=
  (staged host manifest runtime).1 = .ok () ∧
    verified host manifest runtime (staged host manifest runtime).2

theorem run_publish_ok
    (hstaging : verified host manifest runtime (entries.lookup STAGING_DIRECTORY))
    (h : promotable (entries.lookup CURRENT_DIRECTORY) (entries.lookup PREVIOUS_DIRECTORY)) :
    ∃ entries', run (machine host) (publish host manifest runtime) (root entries) =
        (.ok (), root entries') ∧
      entries'.lookup CURRENT_DIRECTORY = entries.lookup STAGING_DIRECTORY := by
  have hcheck := hstaging.run
  obtain ⟨below, hbelow, -⟩ := hstaging.managed
  obtain ⟨entries', hpromote, hcurrent⟩ := run_promote_ok host hbelow h
  rw [← hbelow] at hcurrent
  rw [publish, run_bind_ok _ hcheck, run_bind_ok _ hpromote]
  refine ⟨entries', verified.run ?_, hcurrent⟩
  rwa [hcurrent]

/-- A publication that fails leaves `current` alone. -/
theorem run_publish_error
    (h : ¬ (verified host manifest runtime (entries.lookup STAGING_DIRECTORY) ∧
      promotable (entries.lookup CURRENT_DIRECTORY) (entries.lookup PREVIOUS_DIRECTORY))) :
    ∃ e entries', run (machine host) (publish host manifest runtime) (root entries) =
        (.error e, root entries') ∧
      entries'.lookup CURRENT_DIRECTORY = entries.lookup CURRENT_DIRECTORY := by
  rw [publish]
  by_cases hstaging : verified host manifest runtime (entries.lookup STAGING_DIRECTORY)
  · have hcheck := hstaging.run
    obtain ⟨below, hbelow, -⟩ := hstaging.managed
    obtain ⟨e, entries', hpromote, hcurrent⟩ :=
      run_promote_error host hbelow fun hp => h ⟨hstaging, hp⟩
    exact ⟨e, entries', by rw [run_bind_ok _ hcheck, run_bind_error _ hpromote], hcurrent⟩
  · obtain ⟨e, he⟩ := run_verify_error hstaging
    exact ⟨e, entries, run_bind_error _ he _, rfl⟩

/-- A run that succeeds if `possible` and leaves a verified `current`, and
    otherwise leaves `current` alone. -/
def Installs (host : Host) (manifest : ArtifactManifest) (runtime : RuntimeArtifact)
    (entries : List (String × Node)) (possible : Prop)
    (out : Except ArtifactError Unit × Option Node) : Prop :=
  ∃ entries', out.2 = root entries' ∧
    ((out.1 = .ok () ∧ verified host manifest runtime (entries'.lookup CURRENT_DIRECTORY) ∧
        possible) ∨
      ((∃ e, out.1 = .error e) ∧
        entries'.lookup CURRENT_DIRECTORY = entries.lookup CURRENT_DIRECTORY ∧ ¬ possible))

theorem installs_publish (host : Host) (manifest : ArtifactManifest)
    (runtime : RuntimeArtifact) (entries : List (String × Node)) :
    Installs host manifest runtime entries
      (verified host manifest runtime (entries.lookup STAGING_DIRECTORY) ∧
        promotable (entries.lookup CURRENT_DIRECTORY) (entries.lookup PREVIOUS_DIRECTORY))
      (run (machine host) (publish host manifest runtime) (root entries)) := by
  by_cases h : verified host manifest runtime (entries.lookup STAGING_DIRECTORY) ∧
      promotable (entries.lookup CURRENT_DIRECTORY) (entries.lookup PREVIOUS_DIRECTORY)
  · obtain ⟨entries', hrun, hcurrent⟩ := run_publish_ok h.1 h.2
    rw [hrun]
    exact ⟨entries', rfl, .inl ⟨rfl, hcurrent ▸ h.1, h⟩⟩
  · obtain ⟨e, entries', hrun, hcurrent⟩ := run_publish_error h
    rw [hrun]
    exact ⟨entries', rfl, .inr ⟨⟨e, rfl⟩, hcurrent, h⟩⟩

/-- The steps of the installation, once the old staging directory is gone. -/
def stage_and_publish (host : Host) (manifest : ArtifactManifest) (runtime : RuntimeArtifact) :
    Io Unit := do
  change .create_dir [STAGING_DIRECTORY]
  write_marker [STAGING_DIRECTORY]
  fill_staging host manifest runtime [STAGING_DIRECTORY]
  publish host manifest runtime

theorem installs_stage_and_publish (host : Host) (manifest : ArtifactManifest)
    (runtime : RuntimeArtifact) (entries : List (String × Node)) :
    Installs host manifest runtime entries
      (entries.lookup STAGING_DIRECTORY = none ∧ obtainable host manifest runtime ∧
        promotable (entries.lookup CURRENT_DIRECTORY) (entries.lookup PREVIOUS_DIRECTORY))
      (run (machine host) (stage_and_publish host manifest runtime) (root entries)) := by
  by_cases hnone : entries.lookup STAGING_DIRECTORY = none
  · have hmarker := run_write_marker host (lookup_put_self entries STAGING_DIRECTORY
      (some (.dir [])))
    rw [put_put] at hmarker
    obtain ⟨entries', hfill, hstaged, -, hframe⟩ := run_fill_staging host manifest runtime
      (lookup_put_self entries STAGING_DIRECTORY (some marked))
    have hcurrent : entries'.lookup CURRENT_DIRECTORY = entries.lookup CURRENT_DIRECTORY := by
      rw [hframe _ (by decide), lookup_put_ne _ (by decide)]
    have hprevious : entries'.lookup PREVIOUS_DIRECTORY = entries.lookup PREVIOUS_DIRECTORY := by
      rw [hframe _ (by decide), lookup_put_ne _ (by decide)]
    rw [stage_and_publish, run_bind_ok _ (run_create_dir hnone), run_bind_ok _ hmarker]
    cases hresult : (staged host manifest runtime).1 with
    | error e =>
      rw [hresult] at hfill
      rw [run_bind_error _ hfill]
      refine ⟨entries', rfl, .inr ⟨⟨e, rfl⟩, hcurrent, ?_⟩⟩
      rintro ⟨-, ⟨hok, -⟩, -⟩
      rw [hresult] at hok
      cases hok
    | ok =>
      rw [hresult] at hfill
      rw [run_bind_ok _ hfill]
      obtain ⟨entries'', hstate, h⟩ := installs_publish host manifest runtime entries'
      rw [hstaged, hcurrent, hprevious] at h
      refine ⟨entries'', hstate, ?_⟩
      rcases h with ⟨hok, hverified, hstaging, hpromotable⟩ | ⟨herror, hsame, hnot⟩
      · exact .inl ⟨hok, hverified, hnone, ⟨hresult, hstaging⟩, hpromotable⟩
      · exact .inr ⟨herror, hsame, fun h => hnot ⟨h.2.1.2, h.2.2⟩⟩
  · rw [stage_and_publish, run_bind_error _ (run_create_dir_error hnone)]
    exact ⟨entries, rfl, .inr ⟨⟨_, rfl⟩, rfl, fun h => hnone h.1⟩⟩

/-- The roots from which the online mode installs. -/
def installable (host : Host) (manifest : ArtifactManifest) (runtime : RuntimeArtifact)
    (entries : List (String × Node)) : Prop :=
  clear (entries.lookup STAGING_DIRECTORY) ∧ obtainable host manifest runtime ∧
    promotable (entries.lookup CURRENT_DIRECTORY) (entries.lookup PREVIOUS_DIRECTORY)

theorem installs_online (host : Host) (manifest : ArtifactManifest)
    (runtime : RuntimeArtifact) (entries : List (String × Node)) :
    Installs host manifest runtime entries (installable host manifest runtime entries)
      (run (machine host) (install_online host manifest runtime) (root entries)) := by
  change Installs host manifest runtime entries _ (run (machine host)
    (remove_managed_directory_if_present [STAGING_DIRECTORY] >>= fun _ =>
      stage_and_publish host manifest runtime) (root entries))
  by_cases hmanaged : managed (entries.lookup STAGING_DIRECTORY)
  · rw [run_bind_ok _ (run_remove_managed hmanaged)]
    have hcurrent : (put entries STAGING_DIRECTORY none).lookup CURRENT_DIRECTORY =
        entries.lookup CURRENT_DIRECTORY := lookup_put_ne _ (by decide) _
    have hprevious : (put entries STAGING_DIRECTORY none).lookup PREVIOUS_DIRECTORY =
        entries.lookup PREVIOUS_DIRECTORY := lookup_put_ne _ (by decide) _
    obtain ⟨entries', hstate, h⟩ :=
      installs_stage_and_publish host manifest runtime (put entries STAGING_DIRECTORY none)
    rw [hcurrent, hprevious, lookup_put_self] at h
    refine ⟨entries', hstate, ?_⟩
    rcases h with ⟨hok, hverified, -, h⟩ | ⟨herror, hsame, hnot⟩
    · exact .inl ⟨hok, hverified, .inr hmanaged, h⟩
    · exact .inr ⟨herror, hsame, fun h => hnot ⟨rfl, h.2⟩⟩
  · cases hpresent : present (entries.lookup STAGING_DIRECTORY) with
    | true =>
      obtain ⟨e, he⟩ := run_remove_other host hpresent hmanaged
      rw [run_bind_error _ he]
      refine ⟨entries, rfl, .inr ⟨⟨e, rfl⟩, rfl, ?_⟩⟩
      rintro ⟨hnone | h, -⟩
      · rw [hnone] at hpresent
        cases hpresent
      · exact hmanaged h
    | false =>
      rw [run_bind_ok _ (run_remove_absent hpresent)]
      obtain ⟨entries', hstate, h⟩ := installs_stage_and_publish host manifest runtime entries
      refine ⟨entries', hstate, h.imp (fun h => ?_) fun h => ?_⟩
      · exact ⟨h.1, h.2.1, .inl h.2.2.1, h.2.2.2⟩
      · refine ⟨h.1, h.2.1, fun hi => h.2.2 ⟨?_, hi.2⟩⟩
        exact hi.1.resolve_right hmanaged

theorem install_online_ok_iff (host : Host) (manifest : ArtifactManifest)
    (runtime : RuntimeArtifact) (entries : List (String × Node)) :
    (run (machine host) (install_online host manifest runtime) (root entries)).1 = .ok () ↔
      installable host manifest runtime entries := by
  obtain ⟨_, -, ⟨hok, -, h⟩ | ⟨⟨e, he⟩, -, h⟩⟩ := installs_online host manifest runtime entries
  · exact ⟨fun _ => h, fun _ => hok⟩
  · exact ⟨fun hok => (by rw [he] at hok; cases hok), fun hi => absurd hi h⟩

end Inferences.Artifacts
