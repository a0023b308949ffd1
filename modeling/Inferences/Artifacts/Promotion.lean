import Inferences.Artifacts.Interruption

/-!
# Promotion and crashes

A root that is good enough for the offline mode stays so when the online mode
dies, but for one moment: `promote` has moved `current` away, and has not yet
moved the staging directory in (`setup_online_dies`).
-/

namespace Inferences.Artifacts

open Node Program

variable {α β : Type} {host : Host} {manifest : ArtifactManifest} {runtime : RuntimeArtifact}
  {entries : List (String × Node)} {names : List String} {profile target : String}
  {s : Option Node}

/-- The rename that moves the staging directory in. -/
def move_in : Op := .rename [STAGING_DIRECTORY] [CURRENT_DIRECTORY]

/-- The root is good enough for the offline mode. -/
def usable (host : Host) (manifest : ArtifactManifest) (runtime : RuntimeArtifact)
    (entries : List (String × Node)) : Prop :=
  lockable entries ∧ lasting host manifest runtime .Offline entries

/-- What the online mode leaves behind when it dies at the operation. -/
def Dies (host : Host) (manifest : ArtifactManifest) (runtime : RuntimeArtifact) (op : Op)
    (_ : Option Node) (result : Option (Except ArtifactError α)) (s' : Option Node) : Prop :=
  result = none → ∃ entries', s' = root entries' ∧
    (usable host manifest runtime entries' ↔ op ≠ move_in)

theorem usable_congr {entries' : List (String × Node)} (h : usable host manifest runtime entries)
    (hcurrent : entries'.lookup CURRENT_DIRECTORY = entries.lookup CURRENT_DIRECTORY)
    (hrecovery : entries'.lookup RUNTIME_RECOVERY_DIRECTORY =
      entries.lookup RUNTIME_RECOVERY_DIRECTORY)
    (hlock : entries'.lookup "install.lock" = entries.lookup "install.lock") :
    usable host manifest runtime entries' := by
  unfold usable lockable lasting repairable at *
  rwa [hcurrent, hrecovery, hlock]

/-- An installation that is good enough for the offline mode is the installer's. -/
theorem usable.managed (h : usable host manifest runtime entries) :
    managed (entries.lookup CURRENT_DIRECTORY) := by
  rcases h.2 with hverified | hrepairable
  · exact hverified.managed
  · exact hrepairable.1.kept.managed

/-- None of the entries that the offline mode depends on. -/
def Spares (names : List String) : Prop :=
  CURRENT_DIRECTORY ∉ names ∧ RUNTIME_RECOVERY_DIRECTORY ∉ names ∧ "install.lock" ∉ names

instance : Decidable (Spares names) := inferInstanceAs (Decidable (_ ∧ _ ∧ _))

theorem Spares.usable {entries' : List (String × Node)} (h : Spares names)
    (husable : usable host manifest runtime entries)
    (hsame : ∀ name, name ∉ names → entries'.lookup name = entries.lookup name) :
    usable host manifest runtime entries' :=
  usable_congr husable (hsame _ h.1) (hsame _ h.2.1) (hsame _ h.2.2)

/-- The parts that leave `current` alone. -/
theorem dies_apart {p : Io α} (names : List String) (hp : p.Calls (Op.only names))
    (hnames : Spares names) (h : usable host manifest runtime entries) :
    Always (machine host) p (root entries) (Dies host manifest runtime) := by
  refine (apart_always hp entries).mono ?_
  rintro op torn result s' ⟨honly, -, entries', rfl, hsame⟩ -
  refine ⟨entries', rfl, fun _ hop => ?_, fun _ => hnames.usable h hsame⟩
  rw [hop] at honly
  obtain ⟨-, name, hname, below, htarget⟩ := honly
  cases htarget
  exact hnames.1 hname

theorem dies_bind {p : Io α} {f : α → Io β}
    (hp : Always (machine host) p s (Dies host manifest runtime))
    (hf : ∀ a s', run (machine host) p s = (.ok a, s') →
      Always (machine host) (f a) s' (Dies host manifest runtime)) :
    Always (machine host) (p >>= f) s (Dies host manifest runtime) := by
  refine always_bind (hp.mono ?_) hf
  intro op torn result s' h
  cases result with
  | none => exact fun _ => h rfl
  | some result => cases result <;> exact fun hnone => by cases hnone

/-- A part that leaves `current` alone, and what follows it. -/
theorem dies_apart_bind {p : Io α} {f : α → Io β} (names : List String)
    (hp : p.Calls (Op.only names)) (hnames : Spares names)
    (h : usable host manifest runtime entries)
    (hf : ∀ a entries', run (machine host) p (root entries) = (.ok a, root entries') →
      usable host manifest runtime entries' →
      (∀ name, name ∉ names → entries'.lookup name = entries.lookup name) →
      Always (machine host) (f a) (root entries') (Dies host manifest runtime)) :
    Always (machine host) (p >>= f) (root entries) (Dies host manifest runtime) := by
  refine dies_bind (dies_apart names hp hnames h) fun a s' hrun => ?_
  obtain ⟨entries', hs, hsame⟩ := apart_run host hp entries
  rw [hrun] at hs
  cases hs
  exact hf a entries' hrun (hnames.usable h hsame) hsame

/-! ## The moment in `promote` -/

/-- From the rename on that moves the staging directory in. -/
theorem dies_take_place (hlock : lockable entries) {below : List (String × Node)}
    (hstaging : entries.lookup STAGING_DIRECTORY = some (.dir below))
    (hverified : verified host manifest runtime (some (.dir below)))
    (hcurrent : entries.lookup CURRENT_DIRECTORY = none) :
    Always (machine host)
      (take_place [STAGING_DIRECTORY] [CURRENT_DIRECTORY] [PREVIOUS_DIRECTORY]) (root entries)
      (Dies host manifest runtime) := by
  have hgone : ¬ usable host manifest runtime entries := fun h => by
    obtain ⟨below, hbelow, -⟩ := h.managed
    rw [hcurrent] at hbelow
    cases hbelow
  have hrename : run (machine host) (rename [STAGING_DIRECTORY] [CURRENT_DIRECTORY])
      (root entries) = _ := run_rename_root (by decide) hstaging (by rw [hcurrent]; rfl)
  refine dies_bind (always_attempt (always_rename (fun _ => ?_) fun hnone => ?_))
    fun result s' hrun => ?_
  · exact ⟨entries, rfl, fun h => absurd h hgone, fun hop => absurd rfl hop⟩
  · cases hnone
  · rw [run_attempt, hrename] at hrun
    cases hrun
    refine dies_apart [PREVIOUS_DIRECTORY] (only_remove_managed (.head _)) (by decide) ⟨?_, .inl ?_⟩
    · rwa [lockable, lookup_put_ne _ (by decide), lookup_put_ne _ (by decide)]
    · rwa [lookup_put_self]

/-- Nothing is done before `current` is moved away. -/
theorem dies_set_aside (h : usable host manifest runtime entries) :
    Always (machine host) (set_aside [CURRENT_DIRECTORY] [PREVIOUS_DIRECTORY]) (root entries)
      (Dies host manifest runtime) := by
  have hdies : ∀ op, op ≠ move_in → ∀ torn,
      Dies host manifest runtime op torn (none : Option (Except ArtifactError Unit))
        (root entries) :=
    fun op hop _ _ => ⟨entries, rfl, fun _ => hop, fun _ => h⟩
  refine dies_bind (always_path_exists (fun _ => ?_) fun hnone => ?_) fun there s' hrun => ?_
  · exact hdies _ (fun hop => by cases hop) none rfl
  · cases hnone
  · rw [run_path_exists, find_cons_dir, find_nil, h.managed.follow] at hrun
    cases hrun
    refine dies_bind ((inspects_assert_managed_directory.always [CURRENT_DIRECTORY] _).mono ?_)
      fun _ s' hrun => ?_
    · rintro op torn result s' ⟨hlooks, rfl, rfl, -⟩ hnone
      exact hdies op (fun hop => by rw [hop] at hlooks; exact hlooks) none rfl
    · rw [managed.run host h.managed] at hrun
      cases hrun
      refine always_rename (fun _ => ?_) fun hnone => ?_
      · exact hdies _ (by decide) none rfl
      · cases hnone

/-- A promotion of what verifies, from a root that is good enough. -/
theorem dies_promote (h : usable host manifest runtime entries)
    (hverified : verified host manifest runtime (entries.lookup STAGING_DIRECTORY)) :
    Always (machine host) (promote [STAGING_DIRECTORY] [CURRENT_DIRECTORY]) (root entries)
      (Dies host manifest runtime) := by
  refine dies_apart_bind [PREVIOUS_DIRECTORY] (only_remove_managed (.head _)) (by decide) h
    fun _ entries₁ _ h₁ hsame => ?_
  rw [← hsame STAGING_DIRECTORY (by decide)] at hverified
  obtain ⟨below, hbelow, -⟩ := hverified.managed
  refine dies_bind (dies_set_aside h₁) fun _ s' hrun => ?_
  -- it is moved away now
  obtain ⟨current, hcurrent, -⟩ := h₁.managed
  rw [run_set_aside_managed host h₁.managed] at hrun
  cases hreplaces : replaces (.dir current) (entries₁.lookup PREVIOUS_DIRECTORY) with
  | false =>
    rw [run_rename_root_error (by decide) hcurrent hreplaces] at hrun
    cases hrun
  | true =>
    rw [run_rename_root (by decide) hcurrent hreplaces] at hrun
    cases hrun
    refine dies_take_place ?_ ?_ (hbelow ▸ hverified) ?_
    · have hlock := h₁.1
      rwa [lockable, lookup_put_ne _ (by decide), lookup_put_ne _ (by decide)]
    · rwa [lookup_put_ne _ (by decide), lookup_put_ne _ (by decide)]
    · rw [lookup_put_ne _ (by decide), lookup_put_self]

/-! ## The whole run -/

theorem dies_install_online (h : usable host manifest runtime entries) :
    Always (machine host) (install_online host manifest runtime) (root entries)
      (Dies host manifest runtime) := by
  refine dies_apart_bind [STAGING_DIRECTORY] (only_remove_managed (.head _)) (by decide) h
    fun _ entries₁ _ h₁ _ => dies_apart_bind [STAGING_DIRECTORY] (only_change (.head _)) (by decide)
    h₁ fun _ entries₂ _ h₂ _ => dies_apart_bind [STAGING_DIRECTORY] (only_write_marker (.head _))
    (by decide) h₂ fun _ entries₃ _ h₃ _ => dies_apart_bind [STAGING_DIRECTORY]
    (only_fill_staging (.head _)) (by decide) h₃ fun _ entries₄ _ h₄ _ => dies_apart_bind []
    (only_verify_current _) (by decide) h₄ fun _ entries₅ hverify h₅ _ => ?_
  have hverified := (verified_of_run hverify).2
  cases (verified_of_run hverify).1
  refine dies_bind (dies_promote h₄ hverified) fun _ s' hpromote => ?_
  obtain ⟨below, hbelow, -⟩ := hverified.managed
  by_cases h : promotable (entries₄.lookup CURRENT_DIRECTORY) (entries₄.lookup PREVIOUS_DIRECTORY)
  · obtain ⟨entries', hrun, hcurrent⟩ := run_promote_ok host hbelow h
    obtain ⟨entries'', hs, hsame⟩ := apart_run host only_promote entries₄
    rw [hrun] at hpromote hs
    cases hpromote
    cases hs
    refine dies_apart [] (only_verify_current _) (by decide) ⟨?_, .inl ?_⟩
    · rw [lockable, hsame _ (by decide)]
      exact h₄.1
    · rwa [hcurrent, ← hbelow]
  · obtain ⟨e, entries', hrun, -⟩ := run_promote_error host hbelow h
    rw [hrun] at hpromote
    cases hpromote

/-- What the whole run leaves behind, when nothing befalls it. -/
theorem usable_install_online (h : usable host manifest runtime entries) :
    ∃ entries', (run (machine host) (install_online host manifest runtime) (root entries)).2 =
      root entries' ∧ usable host manifest runtime entries' := by
  obtain ⟨entries', hs, hout⟩ := installs_online host manifest runtime entries
  obtain ⟨entries'', hs', hsame⟩ := apart_run host
    (only_install_online host manifest runtime) entries
  rw [hs] at hs'
  cases hs'
  refine ⟨entries', hs, ?_⟩
  rcases hout with ⟨-, hverified, -⟩ | ⟨-, hcurrent, -⟩
  · refine ⟨?_, .inl hverified⟩
    rw [lockable, hsame _ (by decide)]
    exact h.1
  · exact usable_congr h hcurrent (hsame _ (by decide)) (hsame _ (by decide))

theorem ready_root_iff (h : Chosen host manifest runtime profile target) :
    ready host .Offline (root entries) ↔ usable host manifest runtime entries := by
  rw [ready_iff h]
  constructor
  · rintro ⟨entries', hroot, husable⟩
    obtain rfl := rooted.unique (.inr rfl) hroot
    exact husable
  · exact fun husable => ⟨entries, .inr rfl, husable⟩

/-- A root whose lock may have been made is as good as before. -/
theorem Opened.ready (h : Chosen host manifest runtime profile target)
    (hlasting : lasting host manifest runtime .Offline entries) (hopened : Opened entries s) :
    ready host .Offline s := by
  obtain ⟨entries', hroot, hlock, hsame⟩ := hopened
  refine (ready_iff h).2 ⟨entries', hroot, hlock, (lasting_congr ?_ ?_ ?_ ?_).2 hlasting⟩
  all_goals exact hsame _ (by decide)

/-- Under the lock, with what the offline mode needs. -/
theorem dies_verify_or_install (h : usable host manifest runtime entries) :
    Always (machine host) (verify_or_install host .Online manifest runtime) (root entries)
      (Dies host manifest runtime) := by
  refine always_verify_or_install (fun op hlooks _ => ?_) (fun op _ hnone => ?_)
    fun _ => dies_install_online h
  · refine ⟨entries, rfl, fun _ hop => ?_, fun _ => h⟩
    rw [hop] at hlooks
    exact hlooks
  · cases hnone

theorem usable_verify_or_install (h : usable host manifest runtime entries) :
    ∃ entries', (run (machine host) (verify_or_install host .Online manifest runtime)
      (root entries)).2 = root entries' ∧ usable host manifest runtime entries' := by
  by_cases hverified : verified host manifest runtime (entries.lookup CURRENT_DIRECTORY)
  · rw [run_verify_or_install_verified hverified]
    exact ⟨entries, rfl, h⟩
  · rw [run_verify_or_install hverified]
    exact usable_install_online h

/-- Wherever the online mode dies, the offline mode returns ready from what is
    left, but for the moment when `current` is moved away and the staging
    directory is not moved in. It also does when the online mode comes to its
    end. -/
theorem setup_online_dies (h : ready host .Offline s) :
    (∀ op torn s', Interrupted (machine host) (setup host .Online) s op torn none s' →
      (ready host .Offline s' ↔ op ≠ move_in)) ∧
    ready host .Offline (run (machine host) (setup host .Online) s).2 := by
  obtain ⟨manifest, runtime, profile, target, hchosen⟩ := h.chosen
  obtain ⟨entries, hroot, hlock, hlasting⟩ := (ready_iff hchosen).1 h
  obtain ⟨node, hopen, hlock'⟩ := run_open_root host hroot hlock
  have husable : usable host manifest runtime (put entries "install.lock" node) :=
    ⟨hlock', (lasting_put_lock node).2 hlasting⟩
  rw [setup_eq hchosen]
  constructor
  · suffices hall : Always (machine host) _ s fun op _ result s' =>
        result = none → (ready host .Offline s' ↔ op ≠ move_in) from
      fun op torn s' hi => hall op torn none s' hi rfl
    refine always_bind ((always_open_root hroot hlock).mono ?_) fun _ s' hrun => ?_
    · rintro op torn result s' ⟨hopens, hopened, -⟩
      cases result with
      | none =>
        refine fun _ => ⟨fun _ hop => ?_, fun _ => hopened.ready hchosen hlasting⟩
        rw [hop] at hopens
        exact hopens
      | some result => cases result <;> exact fun hnone => by cases hnone
    · rw [hopen] at hrun
      cases hrun
      refine (dies_bind (dies_verify_or_install husable) fun _ _ _ => always_done).mono ?_
      intro op torn result s' hdies hnone
      obtain ⟨entries', rfl, hiff⟩ := hdies hnone
      rw [ready_root_iff hchosen, hiff]
  · obtain ⟨entries', hs, husable'⟩ := usable_verify_or_install husable
    rw [run_bind_ok _ hopen, run_bind]
    have hready := (ready_root_iff hchosen).2 husable'
    rw [← hs] at hready
    split
    · rename_i heq
      rwa [heq] at hready
    · rename_i heq
      rwa [heq] at hready

/-- A root with an intact archive and model, whose runtime is gone. -/
def small_root : Option Node := root [(CURRENT_DIRECTORY, .dir [
  (MANAGED_MARKER, .file MANAGED_MARKER_VALUE.toUTF8.toList),
  ("downloads", .dir [("llama-b10964-bin-ubuntu-x64.tar.gz", .file small_archive)]),
  ("model", .dir [("qwen2.5-0.5b-instruct-q4_k_m.gguf", .file small_model)]),
  (STATE_FILE, .file (pretty small_state ++ "\n").toUTF8.data.toList)])]

theorem ready_small_root : ready small_host .Offline small_root :=
  ⟨"qwen2.5-0.5b-instruct-q4-k-m", "x86_64-unknown-linux-gnu", by decide +kernel⟩

theorem setup_online_dies_small_root :
    ready small_host .Offline (run (machine small_host) (setup small_host .Online) small_root).2 :=
  (setup_online_dies ready_small_root).2

/-- A crash between the two renames loses the installation. -/
theorem setup_online_dies_between : ready small_host .Offline small_root ∧ ∃ op torn s',
    Interrupted (machine small_host) (setup small_host .Online) small_root op torn none s' ∧
      ¬ ready small_host .Offline s' := by
  refine ⟨ready_small_root, ?_⟩
  have hreach : ((reach (machine small_host) 59 (setup small_host .Online) small_root).any
      fun (_, s') => !(run (machine small_host) (setup small_host .Offline) s').1.toBool) =
        true := by
    decide +kernel
  obtain ⟨⟨op, s'⟩, hop, hfails⟩ := (Option.any_eq_true ..).1 hreach
  refine ⟨op, s', s', .of_reach _ hop (.inl rfl), fun ⟨_, _, hready⟩ => ?_⟩
  dsimp only at hfails
  rw [hready] at hfails
  cases hfails

end Inferences.Artifacts
