import Inferences.Artifacts.Atomicity

/-!
# Setup after an interruption

A run of setup that is interrupted, from a root on which it would return ready,
can be repeated, unless the interruption leaves one of the directories that the
installer makes and removes there without its marker, or makes the offline mode
recover an installation that verifies from an archive that is not unpacked to
what verifies (`setup_retries_iff`).
-/

namespace Inferences.Artifacts

open Node Program

variable {α β : Type} {host : Host} {manifest : ArtifactManifest} {runtime : RuntimeArtifact}
  {mode : SetupMode} {entries entries' : List (String × Node)} {name : String}
  {profile target : String} {s torn s' : Option Node}

/-- A directory without the installer's marker. -/
def unmarked (node : Option Node) : Prop := (∃ below, node = some (.dir below)) ∧ ¬ managed node

/-- The directories that a run of the mode makes and removes. -/
def made : SetupMode → List String
  | .Online => [STAGING_DIRECTORY, PREVIOUS_DIRECTORY]
  | .Offline => [RUNTIME_RECOVERY_DIRECTORY]

/-- The interruption leaves a directory without its marker, and a `current` that
    does not verify. -/
def strands (host : Host) (manifest : ArtifactManifest) (runtime : RuntimeArtifact)
    (mode : SetupMode) (torn : Option Node) : Prop :=
  ¬ verified host manifest runtime (find [CURRENT_DIRECTORY] torn) ∧
    ∃ name ∈ made mode, unmarked (find [name] torn)

/-- The installation verifies, and would not after a recovery of its runtime: its
    archive is not unpacked to what verifies. -/
def unrecovered (host : Host) (manifest : ArtifactManifest) (runtime : RuntimeArtifact)
    (s : Option Node) : Prop :=
  verified host manifest runtime (find [CURRENT_DIRECTORY] s) ∧
    recoverable host manifest runtime (find [CURRENT_DIRECTORY] s)
      (find [RUNTIME_RECOVERY_DIRECTORY] s) ∧
    ¬ recovers host manifest runtime (find [CURRENT_DIRECTORY] s)

/-- The offline mode fails to look at such an installation, and recovers it. -/
def spoils (host : Host) (manifest : ArtifactManifest) (runtime : RuntimeArtifact)
    (mode : SetupMode) (s : Option Node) (op : Op) (result : Option (Except ArtifactError α)) :
    Prop :=
  mode = .Offline ∧ unrecovered host manifest runtime s ∧ ¬ op.opens ∧ result.isSome = true

/-- The root is enough for the mode. -/
def Enough (host : Host) (manifest : ArtifactManifest) (runtime : RuntimeArtifact)
    (mode : SetupMode) (s : Option Node) : Prop :=
  ∃ entries, rooted s entries ∧ lockable entries ∧ lasting host manifest runtime mode entries

/-- What an interruption that finds `torn` leaves behind. -/
def Retries (host : Host) (manifest : ArtifactManifest) (runtime : RuntimeArtifact)
    (mode : SetupMode) (torn s' : Option Node) : Prop :=
  Enough host manifest runtime mode s' ↔ ¬ strands host manifest runtime mode torn

theorem not_unmarked_of_clear {node : Option Node} (h : clear node) : ¬ unmarked node := by
  rintro ⟨⟨below, rfl⟩, hnot⟩
  rcases h with hnone | hmanaged
  · cases hnone
  · exact hnot hmanaged

theorem clear_or_unmarked {below : List (String × Node)} :
    managed (some (.dir below)) ∨ unmarked (some (.dir below)) := by
  by_cases h : managed (some (.dir below))
  · exact .inl h
  · exact .inr ⟨⟨below, rfl⟩, h⟩

/-- What is enough for a setup does not strand it. -/
theorem Enough.not_strands (h : Enough host manifest runtime mode s) :
    ¬ strands host manifest runtime mode s := by
  obtain ⟨entries, ⟨rfl, -⟩ | rfl, -, hlasting⟩ := h
  · rintro ⟨-, name, -, ⟨below, hbelow⟩, -⟩
    cases hbelow
  rintro ⟨hnot, name, hname, hunmarked⟩
  have hrest := hlasting.resolve_left hnot
  cases mode with
  | Online =>
    obtain ⟨hstaging, -, hpromotable⟩ := hrest
    rcases List.mem_cons.1 hname with rfl | hname
    · exact not_unmarked_of_clear hstaging hunmarked
    · obtain rfl := List.mem_singleton.1 hname
      rcases hpromotable with ⟨-, habsent | hmanaged⟩ | ⟨-, hclear⟩
      · obtain ⟨⟨below, hbelow⟩, -⟩ := hunmarked
        change entries.lookup PREVIOUS_DIRECTORY = _ at hbelow
        rw [hbelow] at habsent
        cases habsent
      · exact hunmarked.2 hmanaged
      · exact not_unmarked_of_clear hclear hunmarked
  | Offline =>
    obtain rfl := List.mem_singleton.1 hname
    exact not_unmarked_of_clear hrest.1.cleared hunmarked

/-- It is enough that the tree is fit for a setup, whether the program dies there or
    goes on. -/
theorem retries_of_enough (htorn : Enough host manifest runtime mode torn)
    (h : Enough host manifest runtime mode s') : Retries host manifest runtime mode torn s' :=
  ⟨fun _ => htorn.not_strands, fun _ => h⟩

/-- A run that stops at its interruption. -/
theorem retries_self (h : Enough host manifest runtime mode s ∨
    strands host manifest runtime mode s) : Retries host manifest runtime mode s s := by
  rcases h with h | h
  · exact retries_of_enough h h
  · exact ⟨fun henough => absurd h henough.not_strands, fun hnot => absurd h hnot⟩

/-! ## A directory that is cleared, made and marked -/

/-- The name is a directory now, and the other entries are as they were. -/
def Remade (name : String) (entries : List (String × Node)) (s : Option Node) : Prop :=
  ∃ entries', s = root entries' ∧ (∃ below, entries'.lookup name = some (.dir below)) ∧
    ∀ other, other ≠ name → entries'.lookup other = entries.lookup other

theorem remade_put (name : String) (entries below : List (String × Node)) :
    Remade name entries (root (put entries name (some (.dir below)))) :=
  ⟨_, rfl, ⟨below, lookup_put_self ..⟩, fun _ h => lookup_put_ne _ h _⟩

theorem Remade.of_put {node : Option Node} (h : Remade name (put entries name node) s) :
    Remade name entries s := by
  obtain ⟨entries', rfl, hbelow, hsame⟩ := h
  refine ⟨entries', rfl, hbelow, fun other hother => ?_⟩
  rw [hsame other hother, lookup_put_ne _ hother]

/-- What a run that clears a name leaves when it is interrupted: nothing is done
    yet, or part of what is in the directory is gone. -/
theorem always_remove_managed (name : String) (entries : List (String × Node)) :
    Always (machine host) (remove_managed_directory_if_present [name]) (root entries)
      fun _ torn result s' => (torn = root entries ∧ s' = root entries) ∨
        s' = torn ∧ (∀ a, result ≠ some (.ok a)) ∧ managed (entries.lookup name) ∧
          Remade name entries torn := by
  -- a name whose existence cannot be told is taken for free, and the run goes on
  refine always_bind (always_path_exists ?_ ?_) fun present s' hrun => ?_
  · exact .inl ⟨rfl, rfl⟩
  · exact .inl ⟨rfl, rfl⟩
  rw [run_path_exists] at hrun
  cases hrun
  cases hpresent : ((find [name] (root entries)).bind follow).isSome with
  | false => exact always_done
  | true =>
    refine always_bind ((inspects_assert_managed_directory.always [name] _).mono ?_)
      fun _ s' hrun => ?_
    · rintro op torn result s' ⟨-, rfl, rfl, hresult⟩
      cases result with
      | none => exact .inl ⟨rfl, rfl⟩
      | some result =>
        cases result with
        | error e => exact .inl ⟨rfl, rfl⟩
        | ok a => exact absurd rfl (hresult a)
    · have hframe := inspects_assert_managed_directory.frame hrun
      cases hframe
      have hmanaged : managed (entries.lookup name) := by
        rw [inspects_assert_managed_directory.relative] at hrun
        exact (assert_managed_iff host _).1 (congrArg Prod.fst hrun)
      -- only here is something lost: what is left is a directory, with the marker or not
      refine always_change fun torn ht => ?_
      rcases ht with rfl | ⟨below, node, -, hpruned, halter⟩
      · exact ⟨.inl ⟨rfl, rfl⟩, .inl ⟨rfl, rfl⟩⟩
      · obtain ⟨below', rfl⟩ := hpruned.dir
        rw [alter_cons_dir] at halter
        cases halter
        exact ⟨.inr ⟨rfl, by simp, hmanaged, remade_put ..⟩,
          .inr ⟨rfl, by simp, hmanaged, remade_put ..⟩⟩

/-- A directory that is made. -/
theorem always_create_dir (name : String) (s : Option Node) :
    Always (machine host) (change .create_dir [name]) s fun _ torn result s' =>
      torn = s ∧ s' = s ∧ ∀ a, result ≠ some (.ok a) := by
  refine always_change fun torn ht => ?_
  obtain rfl := ht.resolve_right id
  exact ⟨⟨rfl, rfl, by simp⟩, rfl, rfl, by simp⟩

/-- A directory whose marker is not written yet, or only in part. -/
theorem always_write_marker (h : entries.lookup name = some (.dir [])) :
    Always (machine host) (write_marker [name]) (root entries) fun _ torn result s' =>
      s' = torn ∧ (∀ a, result ≠ some (.ok a)) ∧ Remade name entries torn := by
  rw [write_marker, List.singleton_append]
  refine always_bind (always_change fun torn ht => ?_) fun _ s' hrun => ?_
  · obtain rfl := ht.resolve_right id
    have hself : Remade name entries (root entries) := ⟨entries, rfl, ⟨[], h⟩, fun _ _ => rfl⟩
    exact ⟨⟨rfl, by simp, hself⟩, rfl, by simp, hself⟩
  · rw [run_change (apply_create_marker h)] at hrun
    cases hrun
    refine always_change fun torn ht => ?_
    have hremade : Remade name entries torn := by
      rcases ht with rfl | ⟨part, -, happly⟩
      · exact remade_put ..
      · rw [apply_append_marker _ (lookup_put_self ..), put_put] at happly
        cases happly
        exact remade_put ..
    exact ⟨⟨rfl, by simp, hremade⟩, rfl, by simp, hremade⟩

/-! ## Online -/

/-- An online setup needs nothing but the staging directory to be clear. -/
theorem enough_online (hlock : lockable entries) (h : installable host manifest runtime entries)
    (hsame : ∀ other, other ≠ STAGING_DIRECTORY → entries'.lookup other = entries.lookup other)
    (hclear : clear (entries'.lookup STAGING_DIRECTORY)) :
    Enough host manifest runtime .Online (root entries') := by
  refine ⟨entries', .inr rfl, ?_, .inr ⟨hclear, h.2.1, ?_⟩⟩
  · rw [lockable, hsame _ (by decide)]
    exact hlock
  · rw [hsame _ (by decide), hsame _ (by decide)]
    exact h.2.2

/-- A staging directory may be left without its marker. -/
theorem retries_staging (hlock : lockable entries)
    (hverified : ¬ verified host manifest runtime (entries.lookup CURRENT_DIRECTORY))
    (h : installable host manifest runtime entries) (hremade : Remade STAGING_DIRECTORY entries s) :
    Retries host manifest runtime .Online s s := by
  obtain ⟨entries', rfl, ⟨below, hbelow⟩, hsame⟩ := hremade
  refine retries_self ?_
  rcases clear_or_unmarked with hmanaged | hunmarked
  · refine .inl (enough_online hlock h hsame (.inr ?_))
    rw [hbelow]
    exact hmanaged
  · refine .inr ⟨fun hcurrent => hverified ?_, STAGING_DIRECTORY, .head _, ?_⟩
    · rw [← hsame CURRENT_DIRECTORY (by decide)]
      exact hcurrent
    · change unmarked (entries'.lookup STAGING_DIRECTORY)
      rw [hbelow]
      exact hunmarked

/-- A staging directory that is filled keeps its marker. -/
theorem retries_filled (hlock : lockable entries) (h : installable host manifest runtime entries)
    (hfilled : Filled STAGING_DIRECTORY staging_names entries
      [(MANAGED_MARKER, .file MANAGED_MARKER_VALUE.toUTF8.toList)] s) :
    Enough host manifest runtime .Online s := by
  obtain ⟨entries', below, rfl, hbelow, hsame, hkept⟩ := hfilled
  refine enough_online hlock h hsame (.inr ⟨below, hbelow, ?_⟩)
  rw [hkept _ (by decide)]
  exact ⟨_, rfl, from_utf8_marker⟩

/-- The root is enough while the staging directory is promoted. -/
structure Promoting (host : Host) (manifest : ArtifactManifest) (runtime : RuntimeArtifact)
    (s : Option Node) : Prop where
  staged : verified host manifest runtime (find [STAGING_DIRECTORY] s)
  promotable : promotable (find [CURRENT_DIRECTORY] s) (find [PREVIOUS_DIRECTORY] s)

/-- What the online mode needs of the three entries. -/
def Online (host : Host) (manifest : ArtifactManifest) (runtime : RuntimeArtifact)
    (s : Option Node) : Prop :=
  verified host manifest runtime (find [CURRENT_DIRECTORY] s) ∨
    clear (find [STAGING_DIRECTORY] s) ∧
      promotable (find [CURRENT_DIRECTORY] s) (find [PREVIOUS_DIRECTORY] s)

theorem Promoting.online (h : Promoting host manifest runtime s) :
    Online host manifest runtime s := .inr ⟨.inr h.staged.managed, h.promotable⟩

/-- A rename does not replace a managed directory. -/
theorem not_replaces_managed {source target : String} (hne : source ≠ target)
    (h : rename_node [source] [target] s = some s') : ¬ managed (find [target] s) := by
  intro hmanaged
  obtain ⟨node, -, hreplaces⟩ := replaces_of_rename hne h
  rw [hmanaged.replaces] at hreplaces
  cases hreplaces

/-- Setting the installation aside leaves the promotion possible. -/
theorem promoting_set_aside {result : Option (Except ArtifactError Unit)}
    {fault : Op → Option Node → Prop} (h : Promoting host manifest runtime s)
    (hp : Faulty (machine host) fault (set_aside [CURRENT_DIRECTORY] [PREVIOUS_DIRECTORY]) s result
      s') : Promoting host manifest runtime s' := by
  rcases of_set_aside hp with ⟨rfl, -⟩ | ⟨-, hmanaged, hmoved⟩
  · exact h
  -- the old installation is at `.previous` now, with its marker
  have hsame : Same [CURRENT_DIRECTORY, PREVIOUS_DIRECTORY] s s' :=
    same_rename ⟨⟨_, .head _, [], rfl⟩, _, .tail _ (.head _), [], rfl⟩ hmoved
  obtain ⟨hprevious, hcurrent⟩ := find_renamed (by decide) hmoved
  refine ⟨?_, .inl ⟨hcurrent, .inr ?_⟩⟩
  · rw [hsame _ (by decide)]
    exact h.staged
  · rw [hprevious]
    exact hmanaged

/-- So does taking its place. -/
theorem online_take_place {result : Option (Except ArtifactError Unit)}
    {fault : Op → Option Node → Prop} (h : Promoting host manifest runtime s)
    (hp : Faulty (machine host) fault
      (take_place [STAGING_DIRECTORY] [CURRENT_DIRECTORY] [PREVIOUS_DIRECTORY]) s result s') :
    Online host manifest runtime s' := by
  rcases of_take_place hp with ⟨-, rfl | ⟨r, hback⟩⟩ | ⟨s₁, hmoved, hremove⟩
  · exact h.online
  · rcases of_roll_back hback with rfl | ⟨hpresent, hmoved⟩
    · exact h.online
    · have hsame : Same [PREVIOUS_DIRECTORY, CURRENT_DIRECTORY] s s' :=
        same_rename ⟨⟨_, .head _, [], rfl⟩, _, .tail _ (.head _), [], rfl⟩ hmoved
      obtain ⟨hcurrent, hprevious⟩ := find_renamed (by decide) hmoved
      -- what is moved back is managed: a managed `current` could not be replaced
      have hmanaged : managed (find [PREVIOUS_DIRECTORY] s) := by
        rcases h.promotable with ⟨-, habsent | hmanaged⟩ | ⟨hmanaged, -⟩
        · rw [present, hpresent] at habsent
          cases habsent
        · exact hmanaged
        · exact absurd hmanaged (not_replaces_managed (by decide) hmoved)
      refine .inr ⟨.inr ?_, .inr ⟨?_, .inl hprevious⟩⟩
      · rw [hsame _ (by decide)]
        exact h.staged.managed
      · rw [hcurrent]
        exact hmanaged
  · left
    rw [same_remove_managed hremove _ (by decide), (find_renamed (by decide) hmoved).1]
    exact h.staged

theorem Online.enough (h : Online host manifest runtime s) (hapart : Apart
    [STAGING_DIRECTORY, CURRENT_DIRECTORY, PREVIOUS_DIRECTORY] entries s)
    (hlock : lockable entries) (hobtainable : obtainable host manifest runtime) :
    Enough host manifest runtime .Online s := by
  obtain ⟨entries', rfl, hsame⟩ := hapart
  refine ⟨entries', .inr rfl, ?_, h.imp_right fun h => ⟨h.1, hobtainable, h.2⟩⟩
  rw [lockable, hsame _ (by decide)]
  exact hlock

/-- The part of the publication that follows the removal of an old `.previous`. -/
def exchange (host : Host) (manifest : ArtifactManifest) (runtime : RuntimeArtifact) :
    Io Unit := do
  set_aside [CURRENT_DIRECTORY] [PREVIOUS_DIRECTORY]
  take_place [STAGING_DIRECTORY] [CURRENT_DIRECTORY] [PREVIOUS_DIRECTORY]
  verify_current host [CURRENT_DIRECTORY] manifest runtime .Full

/-- The promotion, in its parts. -/
theorem publish_eq : publish host manifest runtime = (do
    verify_current host [STAGING_DIRECTORY] manifest runtime .Full
    remove_managed_directory_if_present [PREVIOUS_DIRECTORY]
    exchange host manifest runtime) := by
  simp only [publish, promote, exchange, bind_assoc']

/-- However the exchange ends, the root is enough. -/
theorem enough_exchange {result : Option (Except ArtifactError Unit)}
    {fault : Op → Option Node → Prop} (hlock : lockable entries)
    (hobtainable : obtainable host manifest runtime)
    (h : Promoting host manifest runtime (root entries))
    (hp : Faulty (machine host) fault (exchange host manifest runtime) (root entries) result s') :
    Enough host manifest runtime .Online s' := by
  have honline : Online host manifest runtime s' := by
    rw [exchange] at hp
    rcases hp.of_bind with ⟨-, hp⟩ | ⟨e, -, hp⟩ | ⟨a, s₁, hp, hrest⟩
    · exact (promoting_set_aside h hp).online
    · exact (promoting_set_aside h hp).online
    have h₁ := promoting_set_aside h hp
    rcases hrest.of_bind with ⟨-, hp⟩ | ⟨e, -, hp⟩ | ⟨a, s₂, hp, hcheck⟩
    · exact online_take_place h₁ hp
    · exact online_take_place h₁ hp
    · obtain ⟨rfl, -⟩ := (inspects_verify_current .Full).of_faulty hcheck
      exact online_take_place h₁ hp
  refine honline.enough ?_ hlock hobtainable
  refine hp.invariant (fun _ _ => apart_exec host) (fun _ _ _ => apart_torn host) ?_
    (apart_self _ entries)
  exact Calls.bind (only_set_aside (by simp) (by simp)) fun _ =>
    Calls.bind (only_take_place (by simp) (by simp) (by simp)) fun _ => only_verify_current _

/-- A `.previous` may be left without its marker. -/
theorem retries_previous (hlock : lockable entries)
    (hverified : ¬ verified host manifest runtime (entries.lookup CURRENT_DIRECTORY))
    (hobtainable : obtainable host manifest runtime)
    (h : Promoting host manifest runtime (root entries))
    (hremade : Remade PREVIOUS_DIRECTORY entries s) :
    Retries host manifest runtime .Online s s := by
  obtain ⟨entries', rfl, ⟨below, hbelow⟩, hsame⟩ := hremade
  refine retries_self ?_
  rcases clear_or_unmarked with hmanaged | hunmarked
  · refine .inl ⟨entries', .inr rfl, ?_, .inr ⟨.inr ?_, hobtainable, ?_⟩⟩
    · rw [lockable, hsame _ (by decide)]
      exact hlock
    · rw [hsame _ (by decide)]
      exact h.staged.managed
    · rw [hsame CURRENT_DIRECTORY (by decide), hbelow]
      exact h.promotable.imp (fun h => ⟨h.1, .inr hmanaged⟩) fun h => ⟨h.1, .inr hmanaged⟩
  · refine .inr ⟨fun hcurrent => hverified ?_, PREVIOUS_DIRECTORY, .tail _ (.head _), ?_⟩
    · rw [← hsame CURRENT_DIRECTORY (by decide)]
      exact hcurrent
    · change unmarked (entries'.lookup PREVIOUS_DIRECTORY)
      rw [hbelow]
      exact hunmarked

theorem then_of_not_ok {f : α → Io β} {op : Op} {result : Option (Except ArtifactError α)}
    {Q : Option Node → Option Node → Prop} (hnot : ∀ a, result ≠ some (.ok a)) (h : Q torn s') :
    Then (machine host) f (fun _ torn _ s' => Q torn s') op torn result s' := by
  cases result with
  | none => exact h
  | some r =>
    cases r with
    | error e => exact h
    | ok a => exact absurd rfl (hnot a)

/-- Clearing a name, before what follows it. -/
theorem retries_remove_managed {f : Unit → Io β} (hself : Enough host manifest runtime mode
      (root entries))
    (hgo_on : Enough host manifest runtime mode (run (machine host) (f ()) (root entries)).2)
    (hremade : ∀ s, managed (entries.lookup name) → Remade name entries s →
      Retries host manifest runtime mode s s)
    (hrest : ∀ entries', entries' = entries ∧ present (entries.lookup name) = false ∨
        entries' = put entries name none → Always (machine host) (f ()) (root entries')
          fun _ torn _ s' => Retries host manifest runtime mode torn s')
    (hclear : present (entries.lookup name) = false ∨ managed (entries.lookup name)) :
    Always (machine host) (remove_managed_directory_if_present [name] >>= f) (root entries)
      fun _ torn _ s' => Retries host manifest runtime mode torn s' := by
  refine always_bind ((always_remove_managed name entries).mono ?_) fun _ s' hrun => ?_
  · rintro op torn result s' (⟨rfl, rfl⟩ | ⟨rfl, hnot, hmanaged, h⟩)
    · cases result with
      | none => exact retries_self (.inl hself)
      | some r =>
        cases r with
        | error e => exact retries_self (.inl hself)
        | ok a => exact retries_of_enough hself hgo_on
    · exact then_of_not_ok hnot (hremade _ hmanaged h)
  · rcases hclear with habsent | hmanaged
    · rw [run_remove_absent habsent] at hrun
      cases hrun
      exact hrest _ (.inl ⟨rfl, habsent⟩)
    · rw [run_remove_managed hmanaged] at hrun
      cases hrun
      exact hrest _ (.inr rfl)

/-- A directory that is made, marked and filled, before what follows it. -/
theorem retries_make {names : List String} {reads : List Path} {p : Io α} {f : α → Io β}
    (hself : Enough host manifest runtime mode (root entries))
    (hnone : entries.lookup name = none)
    (hremade : ∀ s, Remade name entries s → Retries host manifest runtime mode s s)
    (hp : Fills host name names reads p)
    (hfilled : ∀ s, Filled name names entries
      [(MANAGED_MARKER, .file MANAGED_MARKER_VALUE.toUTF8.toList)] s →
        Enough host manifest runtime mode s)
    (hrest : ∀ a s', run (machine host) p (root (put entries name (some marked))) =
        (.ok a, s') →
      Always (machine host) (f a) s'
        fun _ torn _ s' => Retries host manifest runtime mode torn s') :
    Always (machine host) (change .create_dir [name] >>= fun _ => write_marker [name] >>= fun _ =>
      p >>= f) (root entries) fun _ torn _ s' => Retries host manifest runtime mode torn s' := by
  refine always_bind ((always_create_dir name _).mono ?_) fun _ s' hrun => ?_
  · rintro op torn result s' ⟨rfl, rfl, hnot⟩
    exact then_of_not_ok hnot (retries_self (.inl hself))
  rw [run_create_dir hnone] at hrun
  cases hrun
  -- From here on the directory is there, and it is managed once the marker is whole.
  refine always_bind ((always_write_marker (lookup_put_self ..)).mono ?_) fun _ s' hrun => ?_
  · rintro op torn result s' ⟨rfl, hnot, h⟩
    exact then_of_not_ok hnot (hremade _ h.of_put)
  rw [run_write_marker host (lookup_put_self ..), put_put] at hrun
  cases hrun
  have hmarked : Filled name names entries
      [(MANAGED_MARKER, .file MANAGED_MARKER_VALUE.toUTF8.toList)]
      (root (put entries name (some marked))) :=
    ⟨_, _, rfl, lookup_put_self .., fun _ hother => lookup_put_ne _ hother _, fun _ _ => rfl⟩
  refine always_bind ((hp.always_invariant (fun _ _ => filled_exec host)
    (fun _ _ _ => filled_torn host) hmarked).mono ?_) hrest
  rintro op torn result s' ⟨h, rfl, hnot⟩
  exact then_of_not_ok hnot (retries_self (.inl (hfilled _ h)))

/-- An interrupted promotion can be made up for. -/
theorem retries_publish (hlock : lockable entries)
    (hverified : ¬ verified host manifest runtime (entries.lookup CURRENT_DIRECTORY))
    (hobtainable : obtainable host manifest runtime)
    (hstaging : managed (entries.lookup STAGING_DIRECTORY))
    (hpromotable : promotable (entries.lookup CURRENT_DIRECTORY)
      (entries.lookup PREVIOUS_DIRECTORY)) :
    Always (machine host) (publish host manifest runtime) (root entries)
      fun _ torn _ s' => Retries host manifest runtime .Online torn s' := by
  have hself : Enough host manifest runtime .Online (root entries) :=
    ⟨entries, .inr rfl, hlock, .inr ⟨.inr hstaging, hobtainable, hpromotable⟩⟩
  rw [publish_eq]
  refine always_bind (((inspects_verify_current .Full).always [STAGING_DIRECTORY] _).mono ?_)
    fun _ s' hrun => ?_
  · rintro op torn result s' ⟨-, rfl, rfl, hnot⟩
    exact then_of_not_ok hnot (retries_self (.inl hself))
  obtain ⟨rfl, hstaged⟩ := verified_of_run hrun
  have hpromoting : Promoting host manifest runtime (root entries) := ⟨hstaged, hpromotable⟩
  have hexchange {entries' : List (String × Node)} (hlock : lockable entries')
      (h : Promoting host manifest runtime (root entries')) :
      Always (machine host) (exchange host manifest runtime) (root entries')
        fun _ torn _ s' => Retries host manifest runtime .Online torn s' := by
    intro op torn result s' hi
    have hdied : Faulty (machine host) (fun _ _ => True) _ _ none torn := hi.died
    exact retries_of_enough (enough_exchange hlock hobtainable h hdied)
      (enough_exchange hlock hobtainable h (hi.faulty fun _ _ => trivial))
  have hrun : Faulty (machine host) (fun _ _ => True) _ _ _ _ :=
    .of_run (exchange host manifest runtime) (root entries)
  -- An old `.previous` may be overlooked; then the exchange stops at the first rename.
  refine retries_remove_managed hself (enough_exchange hlock hobtainable hpromoting hrun)
    (fun s _ => retries_previous hlock hverified hobtainable hpromoting) ?_ ?_
  · rintro entries' (⟨rfl, -⟩ | rfl)
    · exact hexchange hlock hpromoting
    · refine hexchange ?_ ⟨?_, ?_⟩
      · rwa [lockable, lookup_put_ne _ (by decide)]
      · change verified host manifest runtime ((put entries _ none).lookup STAGING_DIRECTORY)
        rwa [lookup_put_ne _ (by decide)]
      · change promotable ((put entries _ none).lookup CURRENT_DIRECTORY)
          ((put entries _ none).lookup PREVIOUS_DIRECTORY)
        rw [lookup_put_ne _ (by decide), lookup_put_self]
        exact hpromotable.imp (fun h => ⟨h.1, .inl rfl⟩) fun h => ⟨h.1, .inl rfl⟩
  · rcases hpromotable with ⟨-, h⟩ | ⟨-, hnone | hmanaged⟩
    · exact h
    · rw [hnone]
      exact .inl rfl
    · exact .inr hmanaged

/-- So can an interrupted staging. -/
theorem retries_stage_and_publish (hlock : lockable entries)
    (hverified : ¬ verified host manifest runtime (entries.lookup CURRENT_DIRECTORY))
    (h : installable host manifest runtime entries)
    (hnone : entries.lookup STAGING_DIRECTORY = none) :
    Always (machine host) (stage_and_publish host manifest runtime) (root entries)
      fun _ torn _ s' => Retries host manifest runtime .Online torn s' := by
  refine retries_make (enough_online hlock h (fun _ _ => rfl) h.1) hnone
    (fun s => retries_staging hlock hverified h) (strict_fill_staging host manifest runtime _)
    (fun s => retries_filled hlock h) fun _ s' hrun => ?_
  obtain ⟨entries', hfill, -, hmanaged, hframe⟩ := run_fill_staging host manifest runtime
    (lookup_put_self entries STAGING_DIRECTORY (some marked))
  obtain rfl : root entries' = s' := congrArg Prod.snd (hfill.symm.trans hrun)
  have hsame (other : String) (hother : other ≠ STAGING_DIRECTORY) :
      entries'.lookup other = entries.lookup other := by
    rw [hframe _ hother, lookup_put_ne _ hother]
  refine retries_publish ?_ ?_ h.2.1 hmanaged ?_
  · rwa [lockable, hsame _ (by decide)]
  · rwa [hsame _ (by decide)]
  · rw [hsame _ (by decide), hsame _ (by decide)]
    exact h.2.2

theorem enough_stage_and_publish (hlock : lockable entries)
    (h : installable host manifest runtime entries) : Enough host manifest runtime .Online
      (run (machine host) (stage_and_publish host manifest runtime) (root entries)).2 := by
  by_cases hnone : entries.lookup STAGING_DIRECTORY = none
  · have hcalls : (stage_and_publish host manifest runtime).Calls
        (Op.only [STAGING_DIRECTORY, CURRENT_DIRECTORY, PREVIOUS_DIRECTORY]) :=
      Calls.bind (only_change (.head _)) fun _ => Calls.bind (only_write_marker (.head _))
        fun _ => Calls.bind (only_fill_staging (.head _)) fun _ =>
        Calls.bind (only_verify_current _) fun _ => Calls.bind only_promote fun _ =>
        only_verify_current _
    obtain ⟨entries₁, hs₁, hsame⟩ := apart_run host hcalls entries
    obtain ⟨entries₂, hs₂, ⟨-, hverified, -⟩ | ⟨-, -, hnot⟩⟩ :=
      installs_stage_and_publish host manifest runtime entries
    · rw [hs₁] at hs₂ ⊢
      cases hs₂
      refine ⟨entries₁, .inr rfl, ?_, .inl hverified⟩
      rwa [lockable, hsame _ (by decide)]
    · exact absurd ⟨hnone, h.2⟩ hnot
  · rw [stage_and_publish, run_bind_error _ (run_create_dir_error hnone)]
    exact enough_online hlock h (fun _ _ => rfl) h.1

/-- So can an interrupted installation. -/
theorem retries_install_online (hlock : lockable entries)
    (hverified : ¬ verified host manifest runtime (entries.lookup CURRENT_DIRECTORY))
    (h : installable host manifest runtime entries) :
    Always (machine host) (install_online host manifest runtime) (root entries)
      fun _ torn _ s' => Retries host manifest runtime .Online torn s' := by
  refine retries_remove_managed (enough_online hlock h (fun _ _ => rfl) h.1)
    (enough_stage_and_publish hlock h) (fun s _ => retries_staging hlock hverified h) ?_ ?_
  · have hother (other : String) (hother : other ≠ STAGING_DIRECTORY) :
        (put entries STAGING_DIRECTORY none).lookup other = entries.lookup other :=
      lookup_put_ne _ hother _
    rintro entries' (⟨rfl, habsent⟩ | rfl)
    · refine retries_stage_and_publish hlock hverified h ?_
      refine h.1.resolve_right fun hmanaged => ?_
      rw [hmanaged.present] at habsent
      cases habsent
    · refine retries_stage_and_publish ?_ ?_ ⟨.inl (lookup_put_self ..), h.2.1, ?_⟩
        (lookup_put_self ..)
      · rwa [lockable, hother _ (by decide)]
      · rwa [hother _ (by decide)]
      · rw [hother _ (by decide), hother _ (by decide)]
        exact h.2.2
  · refine h.1.imp (fun hnone => ?_) id
    rw [hnone]
    rfl

/-! ## Offline -/

/-- `current` is as it was, but for its runtime, which can be replaced. -/
def Exchangeable (entries entries' : List (String × Node)) : Prop :=
  entries'.lookup CURRENT_DIRECTORY = entries.lookup CURRENT_DIRECTORY ∨
    ∃ node, replaceable node ∧ entries'.lookup CURRENT_DIRECTORY =
      with_runtime (entries.lookup CURRENT_DIRECTORY) node

/-- The installation is a directory that differs in its runtime at most. -/
theorem Exchangeable.dir {current : List (String × Node)} (h : Exchangeable entries entries')
    (hcurrent : entries.lookup CURRENT_DIRECTORY = some (.dir current)) :
    ∃ below, entries'.lookup CURRENT_DIRECTORY = some (.dir below) ∧
      ∀ node, put below "runtime" node = put current "runtime" node := by
  rw [Exchangeable, hcurrent] at h
  rcases h with hkept | ⟨node, -, hkept⟩
  · exact ⟨current, hkept, fun _ => rfl⟩
  · exact ⟨_, hkept, fun _ => put_put ..⟩

/-- An offline setup needs what is kept, and the recovery directory to be clear. -/
theorem enough_offline (hlock : lockable entries) (h : repairable host manifest runtime entries)
    (hsame : entries'.lookup "install.lock" = entries.lookup "install.lock")
    (hcurrent : Exchangeable entries entries')
    (hclear : clear (entries'.lookup RUNTIME_RECOVERY_DIRECTORY)) :
    Enough host manifest runtime .Offline (root entries') := by
  obtain ⟨hrecoverable, hrecovers⟩ := h
  refine ⟨entries', .inr rfl, ?_, .inr ?_⟩
  · rw [lockable, hsame]
    exact hlock
  rcases hcurrent with hkept | ⟨node, hnode, hkept⟩
  · refine ⟨⟨?_, hclear, ?_, ?_⟩, ?_⟩ <;> rw [hkept]
    · exact hrecoverable.kept
    · exact hrecoverable.extracts
    · exact hrecoverable.replaces
    · exact hrecovers
  · refine ⟨⟨?_, hclear, ?_, ?_⟩, ?_⟩ <;> rw [hkept]
    · exact (kept_with_runtime ..).2 hrecoverable.kept
    · rw [recovered_with_runtime]
      exact hrecoverable.extracts
    · rw [find_runtime hrecoverable.kept.managed]
      exact hnode
    · exact (recovers_with_runtime ..).2 hrecovers

/-- A recovery directory may be left without its marker. -/
theorem retries_recovery (hlock : lockable entries)
    (hverified : ¬ verified host manifest runtime (entries.lookup CURRENT_DIRECTORY))
    (h : repairable host manifest runtime entries)
    (hremade : Remade RUNTIME_RECOVERY_DIRECTORY entries s) :
    Retries host manifest runtime .Offline s s := by
  obtain ⟨entries', rfl, ⟨below, hbelow⟩, hsame⟩ := hremade
  refine retries_self ?_
  rcases clear_or_unmarked with hmanaged | hunmarked
  · refine .inl (enough_offline hlock h (hsame _ (by decide)) (.inl (hsame _ (by decide)))
      (.inr ?_))
    rw [hbelow]
    exact hmanaged
  · refine .inr ⟨fun hcurrent => hverified ?_, RUNTIME_RECOVERY_DIRECTORY, .head _, ?_⟩
    · rw [← hsame CURRENT_DIRECTORY (by decide)]
      exact hcurrent
    · change unmarked (entries'.lookup RUNTIME_RECOVERY_DIRECTORY)
      rw [hbelow]
      exact hunmarked

/-- The old runtime, whole, in part or gone. -/
def Stripped (entries : List (String × Node)) (s : Option Node) : Prop :=
  ∃ entries', s = root entries' ∧
    (∀ other, other ≠ CURRENT_DIRECTORY → entries'.lookup other = entries.lookup other) ∧
    Exchangeable entries entries'

theorem stripped_alter {act : Option Node → Option (Option Node)}
    (hact : ∀ node node', act node = some node' → replaceable node')
    (hmanaged : managed (entries.lookup CURRENT_DIRECTORY)) (h : Stripped entries s)
    (halter : alter false act [CURRENT_DIRECTORY, "runtime"] s = some s') :
    Stripped entries s' := by
  obtain ⟨entries', rfl, hsame, hcurrent⟩ := h
  obtain ⟨current, hbelow, -⟩ := hmanaged
  obtain ⟨below, hthere, hput⟩ := hcurrent.dir hbelow
  rw [alter_cons_dir, hthere, alter_cons_dir] at halter
  obtain ⟨node, hnode, rfl⟩ := Option.map_eq_some_iff.1 halter
  obtain ⟨node', hnode', rfl⟩ := Option.map_eq_some_iff.1 hnode
  refine ⟨_, rfl, fun other hother => ?_, .inr ⟨node', hact _ _ hnode', ?_⟩⟩
  · rw [lookup_put_ne _ hother]
    exact hsame other hother
  · rw [lookup_put_self, hbelow, hput]
    rfl

/-- Removing the runtime leaves the rest of the installation. -/
theorem stripped_remove_runtime {result : Option (Except ArtifactError Unit)}
    {fault : Op → Option Node → Prop} (hmanaged : managed (entries.lookup CURRENT_DIRECTORY))
    (h : Faulty (machine host) fault (remove_runtime [CURRENT_DIRECTORY, "runtime"]) (root entries)
      result s') : Stripped entries s' := by
  have hcalls : (remove_runtime [CURRENT_DIRECTORY, "runtime"]).Calls fun op =>
      op.looks ∨ op = .change .remove_dir_all [CURRENT_DIRECTORY, "runtime"] := by
    refine Calls.bind ⟨.inl trivial, fun r => trivial⟩ fun present => ?_
    cases present with
    | false => trivial
    | true =>
      exact Calls.bind ⟨.inl trivial, calls_fs⟩ fun metadata => Calls.bind trivial fun _ =>
        ⟨.inr rfl, calls_fs⟩
  refine h.invariant (I := Stripped entries) (fun op s hop hs => ?_) (fun op s torn hop ht hs => ?_)
    hcalls ⟨entries, rfl, fun _ _ => rfl, .inl rfl⟩
  · rcases hop with hlooks | rfl
    · rw [exec_looks hlooks]
      exact hs
    · change Stripped entries (done s (Change.remove_dir_all.apply _ s)).2
      cases happly : Change.remove_dir_all.apply [CURRENT_DIRECTORY, "runtime"] s with
      | none => exact hs
      | some s' =>
        refine stripped_alter (fun node node' hact => .inl ?_) hmanaged hs happly
        cases node with
        | none => cases hact
        | some node =>
          cases node with
          | file | other => cases hact
          | _ => exact (Option.some.inj hact).symm
  · rcases hop with hlooks | rfl
    · rw [torn_looks hlooks ht]
      exact hs
    · rcases ht with rfl | ⟨below, node, -, hpruned, halter⟩
      · exact hs
      · refine stripped_alter (fun _ node' hact => ?_) hmanaged hs halter
        obtain ⟨below', rfl⟩ := hpruned.dir
        cases hact
        exact .inr ⟨below', rfl⟩

/-- The recovery directory holds the recovered runtime. -/
structure Replacing (host : Host) (manifest : ArtifactManifest) (runtime : RuntimeArtifact)
    (entries : List (String × Node)) : Prop where
  repairable : repairable host manifest runtime entries
  recovery : ∃ below, entries.lookup RUNTIME_RECOVERY_DIRECTORY = some (.dir below) ∧
    managed (some (.dir below)) ∧
    below.lookup "runtime" = (recovered host runtime (entries.lookup CURRENT_DIRECTORY)).2

/-- However the replacement ends, the root is enough. -/
theorem enough_replace_runtime {result : Option (Except ArtifactError Unit)}
    {fault : Op → Option Node → Prop} (hlock : lockable entries)
    (h : Replacing host manifest runtime entries)
    (hp : Faulty (machine host) fault replace_runtime (root entries) result s') :
    Enough host manifest runtime .Offline s' := by
  obtain ⟨hrepairable, below, hbelow, hmanaged, hnew⟩ := h
  have hcurrent := hrepairable.1.kept.managed
  have hstripped (s : Option Node) (hs : Stripped entries s) :
      Enough host manifest runtime .Offline s := by
    obtain ⟨entries', rfl, hsame, hexchange⟩ := hs
    refine enough_offline hlock hrepairable (hsame _ (by decide)) hexchange (.inr ?_)
    rw [hsame _ (by decide), hbelow]
    exact hmanaged
  rw [replace_runtime] at hp
  -- Until the rename the recovery directory is whole, whatever is left of the old runtime.
  rcases hp.of_bind with ⟨-, hp⟩ | ⟨e, -, hp⟩ | ⟨a, s₁, hp, hrest⟩
  · exact hstripped _ (stripped_remove_runtime hcurrent hp)
  · exact hstripped _ (stripped_remove_runtime hcurrent hp)
  have hs := stripped_remove_runtime hcurrent hp
  rcases hrest.of_bind with ⟨-, hp⟩ | ⟨e, -, hp⟩ | ⟨a, s₂, hp, hremove⟩
  · rcases faulty_rename hp with ⟨hr, -⟩ | ⟨-, rfl⟩
    · cases hr
    · exact hstripped _ hs
  · rcases faulty_rename hp with ⟨hr, -⟩ | ⟨-, rfl⟩
    · cases hr
    · exact hstripped _ hs
  rcases faulty_rename hp with ⟨-, hmoved⟩ | ⟨hnot, -⟩
  swap
  · exact absurd rfl hnot
  -- From the rename on `current` verifies, and the recovery directory no longer matters.
  obtain ⟨entries₁, rfl, hsame, hexchange⟩ := hs
  obtain ⟨current, hdir, -⟩ := hcurrent
  obtain ⟨below₁, hdir₁, hput⟩ := hexchange.dir hdir
  obtain ⟨hrecoverable, hverified⟩ := hrepairable
  obtain ⟨tree, htree, -⟩ := recovered_ok hrecoverable.extracts
  rw [recovers, htree] at hverified
  rw [htree] at hnew
  rw [rename_runtime hdir₁ ((hsame _ (by decide)).trans hbelow) hnew] at hmoved
  split at hmoved
  · cases hmoved
    have hapart := hremove.invariant (fun _ _ => apart_exec host) (fun _ _ _ => apart_torn host)
      (only_remove_managed (List.mem_singleton_self _)) (apart_self _ _)
    obtain ⟨entries', rfl, hframe⟩ := hapart
    refine ⟨entries', .inr rfl, ?_, .inl ?_⟩
    · rw [lockable, hframe _ (by decide), lookup_put_ne _ (by decide), lookup_put_ne _ (by decide),
        hsame _ (by decide)]
      exact hlock
    · rw [hframe _ (by decide), lookup_put_self, hput]
      rwa [hdir] at hverified
  · cases hmoved

/-- An interrupted recovery can be made up for. -/
theorem retries_recover_and_replace (hlock : lockable entries)
    (hverified : ¬ verified host manifest runtime (entries.lookup CURRENT_DIRECTORY))
    (h : repairable host manifest runtime entries)
    (hnone : entries.lookup RUNTIME_RECOVERY_DIRECTORY = none) :
    Always (machine host) (recover_and_replace host runtime) (root entries)
      fun _ torn _ s' => Retries host manifest runtime .Offline torn s' := by
  refine retries_make (enough_offline hlock h rfl (.inl rfl) h.1.cleared) hnone
    (fun s => retries_recovery hlock hverified h)
    (strict_fill_recovery host runtime _ (archive_path runtime)) (fun s hfilled => ?_)
    fun a s' hrun => ?_
  · have hmanaged := hfilled.managed (by decide) managed_marked
    obtain ⟨entries', below, rfl, -, hsame, -⟩ := hfilled
    exact enough_offline hlock h (hsame _ (by decide)) (.inl (hsame _ (by decide)))
      (.inr hmanaged)
  obtain ⟨entries', below, hfill, hbelow, hnew, hmanaged, hframe⟩ := run_fill_recovery host runtime
    (lookup_put_self entries RUNTIME_RECOVERY_DIRECTORY (some marked))
  obtain rfl : root entries' = s' := congrArg Prod.snd (hfill.symm.trans hrun)
  have hsame (other : String) (hother : other ≠ RUNTIME_RECOVERY_DIRECTORY) :
      entries'.lookup other = entries.lookup other := by
    rw [hframe _ hother, lookup_put_ne _ hother]
  have hlock' : lockable entries' := by rwa [lockable, hsame _ (by decide)]
  -- After the extraction a new recovery can still be made.
  have hrecoverable : repairable host manifest runtime entries' := by
    obtain ⟨hrecoverable, hrecovers⟩ := h
    refine ⟨⟨?_, ?_, ?_, ?_⟩, ?_⟩
    · rw [hsame _ (by decide)]
      exact hrecoverable.kept
    · rw [hbelow]
      exact .inr hmanaged
    · rw [hsame _ (by decide)]
      exact hrecoverable.extracts
    · rw [hsame _ (by decide)]
      exact hrecoverable.replaces
    · rw [hsame _ (by decide)]
      exact hrecovers
  have hreplacing : Replacing host manifest runtime entries' := by
    refine ⟨hrecoverable, below, hbelow, hmanaged, ?_⟩
    rw [hnew, lookup_put_ne _ (by decide), hsame _ (by decide)]
  intro op torn result s' hi
  have hdied : Faulty (machine host) (fun _ _ => True) _ _ none torn := hi.died
  exact retries_of_enough (enough_replace_runtime hlock' hreplacing hdied)
    (enough_replace_runtime hlock' hreplacing (hi.faulty fun _ _ => trivial))

/-- A run that ends with a verified `current` leaves a root that is enough. -/
theorem enough_of_run {p : Io Unit} (hlock : lockable entries) {names : List String}
    (hnames : "install.lock" ∉ names) (hp : p.Calls (Op.only names))
    (h : verified host manifest runtime
      (find [CURRENT_DIRECTORY] (run (machine host) p (root entries)).2)) :
    Enough host manifest runtime mode (run (machine host) p (root entries)).2 := by
  obtain ⟨entries', hs, hsame⟩ := apart_run host hp entries
  rw [hs] at h ⊢
  refine ⟨entries', .inr rfl, ?_, .inl h⟩
  rw [lockable, hsame _ hnames]
  exact hlock

theorem only_recover_and_replace (host : Host) (runtime : RuntimeArtifact) :
    (recover_and_replace host runtime).Calls
      (Op.only [CURRENT_DIRECTORY, RUNTIME_RECOVERY_DIRECTORY]) :=
  Calls.bind (only_change (by simp)) fun _ => only_exchange host runtime _

theorem enough_recover_and_replace (hlock : lockable entries)
    (h : repairable host manifest runtime entries) : Enough host manifest runtime .Offline
      (run (machine host) (recover_and_replace host runtime) (root entries)).2 := by
  by_cases hnone : entries.lookup RUNTIME_RECOVERY_DIRECTORY = none
  · refine enough_of_run hlock (by decide) (only_recover_and_replace host runtime) ?_
    obtain ⟨hrecoverable, hrecovers⟩ := h
    obtain ⟨entries', hs, ⟨-, hlookup, -⟩ | ⟨-, -, hnot⟩⟩ :=
      recovers_and_replaces host runtime hrecoverable.kept.managed
    · rw [hs]
      change verified host manifest runtime (entries'.lookup CURRENT_DIRECTORY)
      rw [hlookup]
      exact hrecovers
    · exact absurd ⟨hnone, hrecoverable.extracts, hrecoverable.replaces⟩ hnot
  · rw [recover_and_replace, run_bind_error _ (run_create_dir_error hnone)]
    exact enough_offline hlock h rfl (.inl rfl) h.1.cleared

/-- So it can when there was a recovery directory before. -/
theorem retries_recover_again (hlock : lockable entries)
    (hverified : ¬ verified host manifest runtime (entries.lookup CURRENT_DIRECTORY))
    (h : repairable host manifest runtime entries) :
    Always (machine host) (recover_again host runtime) (root entries)
      fun _ torn _ s' => Retries host manifest runtime .Offline torn s' := by
  refine retries_remove_managed (enough_offline hlock h rfl (.inl rfl) h.1.cleared)
    (enough_recover_and_replace hlock h) (fun s _ => retries_recovery hlock hverified h) ?_ ?_
  · rintro entries' (⟨rfl, habsent⟩ | rfl)
    · refine retries_recover_and_replace hlock hverified h ?_
      refine h.1.cleared.resolve_right fun hmanaged => ?_
      rw [hmanaged.present] at habsent
      cases habsent
    · have hcurrent : (put entries RUNTIME_RECOVERY_DIRECTORY none).lookup CURRENT_DIRECTORY =
          entries.lookup CURRENT_DIRECTORY := lookup_put_ne _ (by decide) _
      refine retries_recover_and_replace ?_ ?_ ⟨⟨?_, ?_, ?_, ?_⟩, ?_⟩ (lookup_put_self ..)
      · rwa [lockable, lookup_put_ne _ (by decide)]
      · rwa [hcurrent]
      · rw [hcurrent]
        exact h.1.kept
      · exact .inl (lookup_put_self ..)
      · rw [hcurrent]
        exact h.1.extracts
      · rw [hcurrent]
        exact h.1.replaces
      · rw [hcurrent]
        exact h.2
  · refine h.1.cleared.imp (fun hnone => ?_) id
    rw [hnone]
    rfl

theorem retries_recover_runtime (hlock : lockable entries)
    (hverified : ¬ verified host manifest runtime (entries.lookup CURRENT_DIRECTORY))
    (h : repairable host manifest runtime entries) :
    Always (machine host) (recover_runtime host [CURRENT_DIRECTORY] manifest runtime)
      (root entries) fun _ torn _ s' => Retries host manifest runtime .Offline torn s' := by
  refine always_bind ((inspects_check_kept.always [CURRENT_DIRECTORY] _).mono ?_)
    fun state s' hrun => ?_
  · rintro op torn result s' ⟨-, rfl, rfl, hnot⟩
    exact then_of_not_ok hnot
      (retries_self (.inl (enough_offline hlock h rfl (.inl rfl) h.1.cleared)))
  · obtain rfl := inspects_check_kept.frame hrun
    have harchive : join [CURRENT_DIRECTORY] state.runtime_archive = archive_path runtime := by
      rw [(kept_state (congrArg Prod.fst hrun)).1, archive_path]
    rw [harchive]
    exact retries_recover_again hlock hverified h

/-- A part that only looks is no part of the retry. -/
theorem then_of_looks {f : α → Io β} {op : Op} {result : Option (Except ArtifactError α)}
    {Q : Option Node → Option Node → Prop} (hf : ∀ a s, (run (machine host) (f a) s).2 = s)
    (h : Q torn s') : Then (machine host) f (fun _ torn _ s' => Q torn s') op torn result s' := by
  cases result with
  | none => exact h
  | some r =>
    cases r with
    | error e => exact h
    | ok a =>
      change Q torn (run (machine host) (f a) s').2
      rwa [hf]

/-- So can an interrupted repair. -/
theorem retries_repair_offline (hlock : lockable entries)
    (hverified : ¬ verified host manifest runtime (entries.lookup CURRENT_DIRECTORY))
    (h : repairable host manifest runtime entries) :
    Always (machine host) (repair_offline host manifest runtime) (root entries)
      fun _ torn _ s' => Retries host manifest runtime .Offline torn s' := by
  have hlooks (s : Option Node) : (run (machine host) ((verify_current host [CURRENT_DIRECTORY]
      manifest runtime .Full).map_err fun _ => ArtifactError.OfflineUnavailable) s).2 = s := by
    rw [run_map_err]
    exact (inspects_verify_current .Full).frame rfl
  refine always_bind (always_map_err ((retries_recover_runtime hlock hverified h).mono ?_))
    fun _ s' hrun => ?_
  · exact fun op torn result s' hretries => then_of_looks (fun _ => hlooks) hretries
  rw [run_map_err] at hrun
  have henough : Enough host manifest runtime .Offline s' := by
    have hs : (run (machine host) (recover_runtime host [CURRENT_DIRECTORY] manifest runtime)
        (root entries)).2 = s' := congrArg Prod.snd hrun
    rw [← hs]
    refine enough_of_run hlock (by decide) (only_recover_runtime host manifest runtime) ?_
    obtain ⟨hrecoverable, hrecovers⟩ := h
    obtain ⟨entries', hs, ⟨-, hlookup, -⟩ | ⟨-, -, hnot⟩⟩ :=
      recovers_runtime host manifest runtime entries
    · rw [hs]
      change verified host manifest runtime (entries'.lookup CURRENT_DIRECTORY)
      rw [hlookup]
      exact hrecovers
    · exact absurd hrecoverable hnot
  refine always_map_err (((inspects_verify_current .Full).always [CURRENT_DIRECTORY] _).mono ?_)
  rintro op torn result s' ⟨-, rfl, rfl, -⟩
  exact retries_self (.inl henough)

/-! ## The whole run -/

/-- So can whatever the mode does. -/
theorem retries_install (hlock : lockable entries)
    (hverified : ¬ verified host manifest runtime (entries.lookup CURRENT_DIRECTORY))
    (h : lasting host manifest runtime mode entries) :
    Always (machine host) (install host manifest runtime mode) (root entries)
      fun _ torn _ s' => Retries host manifest runtime mode torn s' := by
  have hrest := h.resolve_left hverified
  cases mode with
  | Online => exact retries_install_online hlock hverified hrest
  | Offline => exact retries_repair_offline hlock hverified hrest

/-- An installation that need not have been tried leaves the root enough, unless
    a recovery spoils what is there. -/
theorem enough_install (hlock : lockable entries)
    (h : lasting host manifest runtime mode entries)
    (hnot : mode = .Offline → ¬ unrecovered host manifest runtime (root entries)) :
    Enough host manifest runtime mode
      (run (machine host) (install host manifest runtime mode) (root entries)).2 := by
  cases mode with
  | Online =>
    rw [install]
    refine enough_of_run hlock (by decide) (only_install_online host manifest runtime) ?_
    obtain ⟨entries', hs, ⟨-, hverified, -⟩ | ⟨-, hcurrent, hnot⟩⟩ :=
      installs_online host manifest runtime entries
    · rw [hs]
      exact hverified
    · rw [hs]
      change verified host manifest runtime (entries'.lookup CURRENT_DIRECTORY)
      rw [hcurrent]
      exact h.resolve_right hnot
  | Offline =>
    rw [install]
    have hcalls : (repair_offline host manifest runtime).Calls
        (Op.only [CURRENT_DIRECTORY, RUNTIME_RECOVERY_DIRECTORY]) :=
      Calls.bind (only_recover_runtime host manifest runtime).map_err fun _ =>
        (only_verify_current _).map_err
    refine enough_of_run hlock (by decide) hcalls ?_
    obtain ⟨entries', hs, ⟨-, hverified, -⟩ | ⟨-, hunrepaired⟩⟩ :=
      repairs_offline host manifest runtime entries
    · rw [hs]
      exact hverified
    · have hverified := h.resolve_right hunrepaired.not_repairable
      rw [hs]
      change verified host manifest runtime (entries'.lookup CURRENT_DIRECTORY)
      -- The recovery left `current` alone, or gave it a runtime that does not verify.
      rcases hunrepaired with ⟨-, hcurrent⟩ | ⟨hrecoverable, hrecovers, -⟩
      · rwa [hcurrent]
      · exact absurd ⟨hverified, hrecoverable, hrecovers⟩ (hnot rfl)

/-- A recovery that spoils what is there cannot be repeated. -/
theorem not_enough_install (h : unrecovered host manifest runtime (root entries)) :
    ¬ Enough host manifest runtime .Offline
      (run (machine host) (install host manifest runtime .Offline) (root entries)).2 := by
  obtain ⟨-, hrecoverable, hnot⟩ := h
  obtain ⟨entries', hs, ⟨-, -, hrepairable⟩ | ⟨-, hunrepaired⟩⟩ :=
    repairs_offline host manifest runtime entries
  · exact absurd hrepairable.2 hnot
  rw [install, hs]
  rintro ⟨_, hroot, -, hlasting⟩
  obtain rfl := rooted.unique (.inr rfl) hroot
  obtain ⟨hunrecoverable, -⟩ | ⟨-, -, hcurrent⟩ := hunrepaired
  · exact hunrecoverable hrecoverable
  rcases hlasting with hverified | ⟨-, hrecovers⟩
  · rw [hcurrent] at hverified
    exact hnot hverified
  · rw [hcurrent, recovers_with_runtime] at hrecovers
    exact hnot hrecovers

/-- What an interruption of a run from `s` leaves behind. -/
def Retried (host : Host) (manifest : ArtifactManifest) (runtime : RuntimeArtifact)
    (mode : SetupMode) (s : Option Node) (op : Op) (torn : Option Node)
    (result : Option (Except ArtifactError α)) (s' : Option Node) : Prop :=
  Enough host manifest runtime mode s' ↔
    ¬ strands host manifest runtime mode torn ∧ ¬ spoils host manifest runtime mode s op result

theorem Retries.retried {op : Op} {result : Option (Except ArtifactError α)}
    (h : Retries host manifest runtime mode torn s')
    (hnot : ¬ spoils host manifest runtime mode s op result) :
    Retried host manifest runtime mode s op torn result s' :=
  Iff.trans h (and_iff_left hnot).symm

/-- What an interruption of the work of the setup leaves. -/
theorem retried_verify_or_install (hlock : lockable entries)
    (h : lasting host manifest runtime mode entries) :
    Always (machine host) (verify_or_install host mode manifest runtime) (root entries)
      (Retried host manifest runtime mode (root entries)) := by
  have hself : Enough host manifest runtime mode (root entries) := ⟨entries, .inr rfl, hlock, h⟩
  refine always_verify_or_install (fun op _ => ?_) (fun op hinspects => ?_) fun hverified => ?_
  · exact (retries_self (.inl hself)).retried fun hspoils => by cases hspoils.2.2.2
  · by_cases hspoils : mode = .Offline ∧ unrecovered host manifest runtime (root entries)
    · obtain ⟨rfl, hunrecovered⟩ := hspoils
      exact ⟨fun henough => absurd henough (not_enough_install hunrecovered),
        fun hnot => absurd ⟨rfl, hunrecovered, hinspects.not_opens, rfl⟩ hnot.2⟩
    · have henough := enough_install hlock h fun hmode hunrecovered =>
        hspoils ⟨hmode, hunrecovered⟩
      exact (retries_of_enough hself henough).retried fun h => hspoils ⟨h.1, h.2.1⟩
  · exact (retries_install hlock hverified h).mono fun op torn result s' hretries =>
      hretries.retried fun hspoils => hverified hspoils.2.1.1

theorem spoils_congr {op : Op} {result : Option (Except ArtifactError α)}
    (hcurrent : find [CURRENT_DIRECTORY] s' = find [CURRENT_DIRECTORY] s)
    (hrecovery : find [RUNTIME_RECOVERY_DIRECTORY] s' = find [RUNTIME_RECOVERY_DIRECTORY] s) :
    spoils host manifest runtime mode s' op result ↔
      spoils host manifest runtime mode s op result := by
  rw [spoils, spoils, unrecovered, unrecovered, hcurrent, hrecovery]

theorem enough_verify_or_install (hlock : lockable entries)
    (h : lasting host manifest runtime mode entries) : Enough host manifest runtime mode
      (run (machine host) (verify_or_install host mode manifest runtime) (root entries)).2 := by
  by_cases hverified : verified host manifest runtime (entries.lookup CURRENT_DIRECTORY)
  · rw [run_verify_or_install_verified hverified]
    exact ⟨entries, .inr rfl, hlock, h⟩
  · rw [run_verify_or_install hverified]
    exact enough_install hlock h fun _ hunrecovered => hverified hunrecovered.1

/-- A root is enough if and only if a run returns ready from it. -/
theorem ready_iff_enough (h : Chosen host manifest runtime profile target) :
    ready host mode s ↔ Enough host manifest runtime mode s := ready_iff h

theorem strands_congr (h : strands host manifest runtime mode s')
    (hsame : ∀ name, name ≠ "install.lock" → find [name] s' = find [name] s) :
    strands host manifest runtime mode s := by
  obtain ⟨hnot, name, hname, hunmarked⟩ := h
  rw [hsame _ (by decide)] at hnot
  refine ⟨hnot, name, hname, ?_⟩
  rwa [← hsame name]
  rintro rfl
  cases mode <;> revert hname <;> decide

/-- The run that is interrupted before it looks at `current`. -/
theorem retries_started (hlasting : lasting host manifest runtime mode entries)
    (h : rooted s entries) (hlock : lockable entries) {op : Op}
    {result : Option (Except ArtifactError Unit)}
    (hi : Interrupted (machine host) open_root s op torn result s') :
    op.opens ∧ ¬ strands host manifest runtime mode torn ∧ ∃ entries', rooted s' entries' ∧
      lockable entries' ∧ lasting host manifest runtime mode entries' ∧
      (result = some (.ok ()) → s' ≠ none) := by
  obtain ⟨hopens, ⟨entries', hroot, hlock', hsame⟩, hthere⟩ :=
    always_open_root h hlock op torn result s' hi
  refine ⟨hopens, fun hstrands => ?_, entries', hroot, hlock',
    (lasting_congr ?_ ?_ ?_ ?_).2 hlasting, hthere⟩
  · have hdied : Faulty (machine host) (fun _ _ => True) _ _ none torn := hi.died
    have hself : Enough host manifest runtime mode s := ⟨entries, h, hlock, hlasting⟩
    exact hself.not_strands (strands_congr hstrands fun name hname =>
      same_open_root hdied name fun h => hname (List.mem_singleton.1 h))
  all_goals exact hsame _ (by decide)

/-- From a root on which `setup` would return ready, a run can be interrupted
    anywhere: the next run of the mode returns ready if and only if the
    interruption neither leaves a directory without its marker, nor makes the
    offline mode recover what verified and does not after that. -/
theorem setup_retries_iff {op : Op} {result : Option (Except ArtifactError InstallStatus)}
    (h : ready host mode s)
    (hi : Interrupted (machine host) (setup host mode) s op torn result s') :
    ∃ manifest runtime profile target, Chosen host manifest runtime profile target ∧
      (ready host mode s' ↔ ¬ strands host manifest runtime mode torn ∧
        ¬ spoils host manifest runtime mode s op result) := by
  obtain ⟨manifest, runtime, profile, target, hchosen⟩ := h.chosen
  refine ⟨manifest, runtime, profile, target, hchosen, ?_⟩
  obtain ⟨entries, hroot, hlock, hlasting⟩ := (ready_iff hchosen).1 h
  obtain ⟨node, hopen, hlock'⟩ := run_open_root host hroot hlock
  have hlasting' : lasting host manifest runtime mode (put entries "install.lock" node) :=
    (lasting_put_lock node).2 hlasting
  rw [ready_iff_enough hchosen]
  rw [setup_eq hchosen] at hi
  suffices hall : Always (machine host) _ s (Retried host manifest runtime mode s) from
    hall op torn result s' hi
  refine always_bind ?_ fun _ s' hrun => ?_
  · intro op torn result s' hi
    obtain ⟨hopens, hnot, entries', hroot', hlock', hlasting', hthere⟩ :=
      retries_started hlasting hroot hlock hi
    have hretries : Retries host manifest runtime mode torn s' :=
      ⟨fun _ => hnot, fun _ => ⟨entries', hroot', hlock', hlasting'⟩⟩
    cases result with
    | none => exact hretries.retried fun hspoils => hspoils.2.2.1 hopens
    | some r =>
      cases r with
      | error e => exact hretries.retried fun hspoils => hspoils.2.2.1 hopens
      | ok a =>
        -- the root could not be looked at, and is there all the same
        obtain rfl : s' = root entries' := hroot'.resolve_left fun hnone => hthere rfl hnone.1
        have henough : Enough host manifest runtime mode _ :=
          enough_verify_or_install hlock' hlasting'
        refine ⟨fun _ => ⟨hnot, fun hspoils => hspoils.2.2.1 hopens⟩, fun _ => ?_⟩
        rw [run_bind]
        split
        · rename_i heq
          rwa [heq] at henough
        · rename_i heq
          rwa [heq] at henough
  · rw [hopen] at hrun
    cases hrun
    refine always_bind ((retried_verify_or_install hlock' hlasting').mono
      fun op torn result s' hretried => ?_) fun _ _ _ => always_done
    have hsame (name : String) (hname : name ≠ "install.lock") :
        find [name] (root (put entries "install.lock" node)) = find [name] s := by
      rw [hroot.find, find_cons_dir, lookup_put_ne entries hname]
    rw [Retried, spoils_congr (hsame _ (by decide)) (hsame _ (by decide))] at hretried
    cases result with
    | none => exact hretried
    | some r => cases r <;> exact hretried

/-- A setup can begin with nothing. -/
theorem ready_nothing : ready small_host .Online none :=
  ⟨"qwen2.5-0.5b-instruct-q4-k-m", "x86_64-unknown-linux-gnu", by decide +kernel⟩

/-- Without a root, the run that dies before it writes the marker of the staging
    directory. -/
theorem setup_retries_iff_nothing : ∃ op s',
    Interrupted (machine small_host) (setup small_host .Online) none op s' none s' ∧
      ∃ manifest runtime profile target, Chosen small_host manifest runtime profile target ∧
        (ready small_host .Online s' ↔ ¬ strands small_host manifest runtime .Online s' ∧
          ¬ spoils small_host manifest runtime .Online none op
            (none : Option (Except ArtifactError InstallStatus))) := by
  have hreach : (reach (machine small_host) 7 (setup small_host .Online) none).isSome = true := by
    decide +kernel
  obtain ⟨⟨op, s'⟩, hop⟩ := Option.isSome_iff_exists.1 hreach
  have hi := Interrupted.of_reach (M := machine small_host) hop (.inl rfl)
  exact ⟨op, s', hi, setup_retries_iff ready_nothing hi⟩

/-- That run cannot be repeated. -/
theorem setup_strands : ready small_host .Online none ∧ ∃ op torn s',
    Interrupted (machine small_host) (setup small_host .Online) none op torn none s' ∧
      ¬ ready small_host .Online s' := by
  refine ⟨ready_nothing, ?_⟩
  have hreach : ((reach (machine small_host) 7 (setup small_host .Online) none).any
      fun (_, s') => !(run (machine small_host) (setup small_host .Online) s').1.toBool) =
        true := by
    decide +kernel
  obtain ⟨⟨op, s'⟩, hop, hfails⟩ := (Option.any_eq_true ..).1 hreach
  refine ⟨op, s', s', .of_reach _ hop (.inl rfl), fun ⟨_, _, hready⟩ => ?_⟩
  dsimp only at hfails
  rw [hready] at hfails
  cases hfails

end Inferences.Artifacts
