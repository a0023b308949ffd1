import Inferences.Artifacts.Readiness

/-!
# What the parts of setup leave alone

Each part of the installer changes some entries of its root, and leaves the
others as they are, also when it is interrupted (`Op.only`, `Apart`).
-/

namespace Inferences.Artifacts

open Node Program

variable {α : Type} {host : Host} {manifest : ArtifactManifest} {runtime : RuntimeArtifact}
  {entries : List (String × Node)} {names : List String} {s : Option Node}

/-- The operation changes no entries of the root but those named, and what is below them. -/
def Op.only (names : List String) : Op → Prop
  | change _ path => ∃ name ∈ names, ∃ below, path = name :: below
  | rename source target =>
    (∃ name ∈ names, ∃ below, source = name :: below) ∧
      ∃ name ∈ names, ∃ below, target = name :: below
  | _ => True

/-- The root has the entries `entries` but for those named. -/
def Apart (names : List String) (entries : List (String × Node)) (s : Option Node) : Prop :=
  ∃ entries', s = root entries' ∧ ∀ name, name ∉ names → entries'.lookup name = entries.lookup name

/-- A tree differs from itself at no name. -/
theorem apart_self (names : List String) (entries : List (String × Node)) :
    Apart names entries (root entries) := ⟨entries, rfl, fun _ _ => rfl⟩

/-- A change below a name differs at that name at most. -/
theorem apart_alter {parents : Bool} {act : Option Node → Option (Option Node)} {path : Path}
    {s' : Option Node} (hpath : ∃ name ∈ names, ∃ below, path = name :: below)
    (h : Apart names entries s) (halter : alter parents act path s = some s') :
    Apart names entries s' := by
  obtain ⟨name, hname, below, rfl⟩ := hpath
  obtain ⟨entries', rfl, hsame⟩ := h
  rw [alter_cons_dir] at halter
  obtain ⟨node, -, rfl⟩ := Option.map_eq_some_iff.1 halter
  refine ⟨_, rfl, fun other hother => ?_⟩
  have hne : other ≠ name := fun heq => hother (heq ▸ hname)
  rw [lookup_put_ne _ hne]
  exact hsame other hother

/-- So does an operation that works below the names. -/
theorem apart_exec (host : Host) {op : Op} (hop : op.only names) (h : Apart names entries s) :
    Apart names entries ((machine host).exec op s).2 := by
  cases op with
  | change c path =>
    change Apart names entries (done s (c.apply path s)).2
    cases happly : c.apply path s with
    | none => exact h
    | some s' => exact apart_alter hop h happly
  | rename source target =>
    change Apart names entries (done s (rename_node source target s)).2
    cases hrename : rename_node source target s with
    | none => exact h
    | some s' =>
      rw [rename_node] at hrename
      split at hrename
      · cases hrename
        exact h
      · obtain ⟨node, -, hrename⟩ := Option.bind_eq_some_iff.1 hrename
        split at hrename
        · obtain ⟨s₁, hremove, hplace⟩ := Option.bind_eq_some_iff.1 hrename
          exact apart_alter hop.2 (apart_alter hop.1 h hremove) hplace
        · cases hrename
  | _ => exact h

/-- So does what it did before it failed. -/
theorem apart_torn (host : Host) {op : Op} {torn : Option Node} (hop : op.only names)
    (ht : (machine host).torn op s torn) (h : Apart names entries s) :
    Apart names entries torn := by
  rcases ht with rfl | ht
  · exact h
  cases op with
  | change c path =>
    cases c with
    | append bytes =>
      obtain ⟨part, -, happly⟩ := ht
      exact apart_alter hop h happly
    | remove_dir_all =>
      obtain ⟨_, _, -, -, halter⟩ := ht
      exact apart_alter hop h halter
    | create_dir_all =>
      obtain ⟨path', hstart, happly⟩ := ht
      obtain ⟨name, hname, below, rfl⟩ := hop
      cases path' with
      | nil =>
        obtain ⟨entries', rfl, hsame⟩ := h
        cases happly
        exact ⟨entries', rfl, hsame⟩
      | cons first path' =>
        obtain rfl := (List.cons_prefix_cons.1 hstart).1
        exact apart_alter ⟨first, hname, path', rfl⟩ h happly
    | _ => exact ht.elim
  | _ => exact ht.elim

/-- The state after a program of such operations. -/
theorem apart_run (host : Host) {p : Io α} (hp : p.Calls (Op.only names))
    (entries : List (String × Node)) :
    Apart names entries (run (machine host) p (root entries)).2 :=
  hp.run_invariant (fun _ _ => apart_exec host) (apart_self names entries)

/-- The states when it is interrupted. -/
theorem apart_always {p : Io α} (hp : p.Calls (Op.only names)) (entries : List (String × Node)) :
    Always (machine host) p (root entries) fun op torn _ s' =>
      op.only names ∧ Apart names entries torn ∧ Apart names entries s' :=
  hp.always_invariant (fun _ _ => apart_exec host) (fun _ _ _ => apart_torn host)
    (apart_self names entries)

/-! ## The parts -/

theorem Op.only.mono {names' : List String} {op : Op} (h : op.only names)
    (hnames : ∀ name ∈ names, name ∈ names') : op.only names' := by
  cases op with
  | change c path =>
    obtain ⟨name, hname, below, hpath⟩ := h
    exact ⟨name, hnames name hname, below, hpath⟩
  | rename source target =>
    obtain ⟨⟨name, hname, below, hsource⟩, name', hname', below', htarget⟩ := h
    exact ⟨⟨name, hnames name hname, below, hsource⟩, name', hnames name' hname', below', htarget⟩
  | _ => trivial

theorem Op.looks.only {op : Op} (h : op.looks) : op.only names := by
  cases op <;> trivial

theorem Op.fills.only {directory : String} {below : List String} {reads : List Path} {op : Op}
    (h : op.fills directory below reads) (hdirectory : directory ∈ names) : op.only names := by
  cases op with
  | change c path =>
    obtain ⟨name, -, path, rfl⟩ := h
    exact ⟨directory, hdirectory, _, rfl⟩
  | rename source target =>
    obtain ⟨⟨name, -, path, rfl⟩, name', -, path', rfl⟩ := h
    exact ⟨⟨directory, hdirectory, _, rfl⟩, directory, hdirectory, _, rfl⟩
  | _ => trivial

/-- An inspection changes nothing at any name. -/
theorem Inspects.only {f : Path → Io α} (hf : Inspects host f) (directory : Path) :
    (f directory).Calls (Op.only names) :=
  (hf.strict directory).calls.mono fun _ h => h.looks.only

theorem only_assert_managed (directory : Path) :
    (assert_managed_directory directory).Calls (Op.only names) := by
  unfold assert_managed_directory read_to_string
  exact Calls.bind ⟨trivial, calls_fs⟩ fun _ => Calls.bind trivial fun _ =>
    Calls.bind (Calls.bind ⟨trivial, calls_fs⟩ fun _ => trivial) fun _ => trivial

theorem only_change {c : Change} {name : String} {below : Path} (h : name ∈ names) :
    (change c (name :: below)).Calls (Op.only names) :=
  ⟨⟨name, h, below, rfl⟩, calls_fs⟩

theorem only_rename {name name' : String} {below below' : Path} (h : name ∈ names)
    (h' : name' ∈ names) : (rename (name :: below) (name' :: below')).Calls (Op.only names) :=
  ⟨⟨⟨name, h, below, rfl⟩, name', h', below', rfl⟩, calls_fs⟩

theorem only_remove_managed {name : String} (h : name ∈ names) :
    (remove_managed_directory_if_present [name]).Calls (Op.only names) := by
  refine Calls.bind ⟨trivial, fun r => trivial⟩ fun present => ?_
  cases present with
  | false => trivial
  | true => exact Calls.bind (only_assert_managed _) fun _ => only_change h

theorem only_write_marker {name : String} (h : name ∈ names) :
    (write_marker [name]).Calls (Op.only names) :=
  Calls.bind (only_change h) fun _ => only_change h

theorem only_set_aside {current previous : String} (h : current ∈ names) (h' : previous ∈ names) :
    (set_aside [current] [previous]).Calls (Op.only names) := by
  refine Calls.bind ⟨trivial, fun r => trivial⟩ fun present => ?_
  cases present with
  | false => trivial
  | true => exact Calls.bind (only_assert_managed _) fun _ => only_rename h h'

theorem only_roll_back {previous current : String} (h : previous ∈ names) (h' : current ∈ names) :
    (roll_back [previous] [current]).Calls (Op.only names) := by
  refine Calls.bind ⟨trivial, fun r => trivial⟩ fun present => ?_
  cases present with
  | false => trivial
  | true =>
    refine Calls.bind ⟨trivial, fun r => trivial⟩ fun taken => ?_
    cases taken with
    | true => trivial
    | false => exact Calls.bind (only_rename h h').attempt fun _ => trivial

theorem only_take_place {staging current previous : String} (hstaging : staging ∈ names)
    (hcurrent : current ∈ names) (hprevious : previous ∈ names) :
    (take_place [staging] [current] [previous]).Calls (Op.only names) := by
  refine Calls.bind (only_rename hstaging hcurrent).attempt fun result => ?_
  cases result with
  | error e => exact Calls.bind (only_roll_back hprevious hcurrent) fun _ => trivial
  | ok => exact only_remove_managed hprevious

/-- The promotion works below the three directories it renames. -/
theorem only_promote : (promote [STAGING_DIRECTORY] [CURRENT_DIRECTORY]).Calls
    (Op.only [STAGING_DIRECTORY, CURRENT_DIRECTORY, PREVIOUS_DIRECTORY]) :=
  Calls.bind (only_remove_managed (by simp)) fun _ =>
    Calls.bind (only_set_aside (by simp) (by simp)) fun _ =>
      only_take_place (by simp) (by simp) (by simp)

theorem only_verify_current (directory : Path) :
    (verify_current host directory manifest runtime .Full).Calls (Op.only names) :=
  (inspects_verify_current .Full).only directory

theorem only_fill_staging (h : STAGING_DIRECTORY ∈ names) :
    (fill_staging host manifest runtime [STAGING_DIRECTORY]).Calls (Op.only names) :=
  (strict_fill_staging host manifest runtime STAGING_DIRECTORY).calls.mono fun _ hop => hop.only h

/-- So does the installation. -/
theorem only_install_online (host : Host) (manifest : ArtifactManifest)
    (runtime : RuntimeArtifact) : (install_online host manifest runtime).Calls
      (Op.only [STAGING_DIRECTORY, CURRENT_DIRECTORY, PREVIOUS_DIRECTORY]) :=
  Calls.bind (only_remove_managed (.head _)) fun _ => Calls.bind (only_change (.head _)) fun _ =>
    Calls.bind (only_write_marker (.head _)) fun _ => Calls.bind (only_fill_staging (.head _))
    fun _ => Calls.bind (only_verify_current _) fun _ => Calls.bind only_promote fun _ =>
    only_verify_current _

theorem only_fill_recovery {archive : Path} (h : RUNTIME_RECOVERY_DIRECTORY ∈ names) :
    (fill_recovery host runtime [RUNTIME_RECOVERY_DIRECTORY] archive).Calls (Op.only names) :=
  (strict_fill_recovery host runtime RUNTIME_RECOVERY_DIRECTORY archive).calls.mono
    fun _ hop => hop.only h

theorem only_remove_runtime (h : CURRENT_DIRECTORY ∈ names) :
    (remove_runtime [CURRENT_DIRECTORY, "runtime"]).Calls (Op.only names) := by
  refine Calls.bind ⟨trivial, fun r => trivial⟩ fun present => ?_
  cases present with
  | false => trivial
  | true =>
    exact Calls.bind ⟨trivial, calls_fs⟩ fun metadata => Calls.bind trivial fun _ => only_change h

/-- What follows the making of the recovery directory. -/
theorem only_exchange (host : Host) (runtime : RuntimeArtifact) (archive : Path) : (do
      write_marker [RUNTIME_RECOVERY_DIRECTORY]
      fill_recovery host runtime [RUNTIME_RECOVERY_DIRECTORY] archive
      remove_runtime [CURRENT_DIRECTORY, "runtime"]
      rename [RUNTIME_RECOVERY_DIRECTORY, "runtime"] [CURRENT_DIRECTORY, "runtime"]
      remove_managed_directory_if_present [RUNTIME_RECOVERY_DIRECTORY]).Calls
      (Op.only [CURRENT_DIRECTORY, RUNTIME_RECOVERY_DIRECTORY]) :=
  Calls.bind (only_write_marker (by simp)) fun _ => Calls.bind (only_fill_recovery (by simp))
    fun _ => Calls.bind (only_remove_runtime (.head _)) fun _ =>
    Calls.bind (only_rename (by simp) (.head _)) fun _ => only_remove_managed (by simp)

/-- The recovery works below the installation and the recovery directory. -/
theorem only_recover_runtime (host : Host) (manifest : ArtifactManifest)
    (runtime : RuntimeArtifact) :
    (recover_runtime host [CURRENT_DIRECTORY] manifest runtime).Calls
      (Op.only [CURRENT_DIRECTORY, RUNTIME_RECOVERY_DIRECTORY]) :=
  Calls.bind (inspects_check_kept.only _) fun _ => Calls.bind (only_remove_managed (by simp))
    fun _ => Calls.bind (only_change (by simp)) fun _ => only_exchange host runtime _

end Inferences.Artifacts
