import Inferences.Artifacts.Recover

/-!
# Repairing offline

What the steps of the offline mode do when nothing befalls them, and from which
roots they succeed (`repairs_offline`).
-/

namespace Inferences.Artifacts

open Node Program

variable {host : Host} {manifest : ArtifactManifest} {runtime : RuntimeArtifact}
  {entries : List (String × Node)}

/-! ## The old runtime -/

/-- The entry can be removed for another runtime. -/
def replaceable (runtime_node : Option Node) : Prop :=
  runtime_node = none ∨ ∃ below, runtime_node = some (.dir below)

/-- The part of `recover_runtime` that puts the recovered runtime in place. -/
def replace_runtime : Io Unit := do
  remove_runtime [CURRENT_DIRECTORY, "runtime"]
  rename [RUNTIME_RECOVERY_DIRECTORY, "runtime"] [CURRENT_DIRECTORY, "runtime"]
  remove_managed_directory_if_present [RUNTIME_RECOVERY_DIRECTORY]

section

variable {current below : List (String × Node)}

theorem run_remove_runtime_absent
    (hcurrent : entries.lookup CURRENT_DIRECTORY = some (.dir current))
    (h : present (current.lookup "runtime") = false) :
    run (machine host) (remove_runtime [CURRENT_DIRECTORY, "runtime"]) (root entries) =
      (.ok (), root entries) := by
  rw [present] at h
  rw [remove_runtime, run_bind, run_path_exists, find_cons_dir, hcurrent, find_cons_dir, find_nil,
    h]
  rfl

theorem run_remove_runtime_dir {old : List (String × Node)}
    (hcurrent : entries.lookup CURRENT_DIRECTORY = some (.dir current))
    (h : current.lookup "runtime" = some (.dir old)) :
    run (machine host) (remove_runtime [CURRENT_DIRECTORY, "runtime"]) (root entries) =
      (.ok (), root (put entries CURRENT_DIRECTORY
        (some (.dir (put current "runtime" none))))) := by
  have hmetadata : run (machine host) (symlink_metadata [CURRENT_DIRECTORY, "runtime"])
      (root entries) = (.ok ⟨.dir, 0⟩, root entries) := by
    rw [symlink_metadata, run_query, find_cons_dir, hcurrent, find_cons_dir, find_nil, h]
    rfl
  rw [remove_runtime, run_bind, run_path_exists, find_cons_dir, hcurrent, find_cons_dir, find_nil,
    h]
  change run (machine host) (symlink_metadata [CURRENT_DIRECTORY, "runtime"] >>= _) _ = _
  rw [run_bind_ok _ hmetadata]
  refine run_change ?_
  rw [Change.apply, alter_cons_dir, hcurrent, alter_cons_dir, h]
  rfl

theorem run_remove_runtime_other (host : Host)
    (hcurrent : entries.lookup CURRENT_DIRECTORY = some (.dir current))
    (hpresent : present (current.lookup "runtime") = true)
    (h : ¬ replaceable (current.lookup "runtime")) : ∃ e,
    run (machine host) (remove_runtime [CURRENT_DIRECTORY, "runtime"]) (root entries) =
      (.error e, root entries) := by
  cases hnode : current.lookup "runtime" with
  | none => exact absurd (.inl hnode) h
  | some node =>
    have hmetadata : run (machine host) (symlink_metadata [CURRENT_DIRECTORY, "runtime"])
        (root entries) = (.ok ⟨file_type node, file_len node⟩, root entries) := by
      rw [symlink_metadata, run_query, find_cons_dir, hcurrent, find_cons_dir, find_nil, hnode]
      rfl
    have hdir : file_type node ≠ .dir := by
      cases node with
      | dir old => exact absurd (.inr ⟨old, hnode⟩) h
      | _ => intro htype; cases htype
    rw [hnode, present] at hpresent
    rw [remove_runtime, run_bind, run_path_exists, find_cons_dir, hcurrent, find_cons_dir,
      find_nil, hnode, hpresent]
    simp only [if_true]
    rw [run_bind_ok _ hmetadata, run_bind, fail_if, if_pos (by simp [hdir])]
    exact ⟨_, rfl⟩

/-- A rename from one directory of the root to another. -/
theorem rename_runtime (hcurrent : entries.lookup CURRENT_DIRECTORY = some (.dir current))
    (hrecovery : entries.lookup RUNTIME_RECOVERY_DIRECTORY = some (.dir below)) {node : Node}
    (hnode : below.lookup "runtime" = some node) :
    rename_node [RUNTIME_RECOVERY_DIRECTORY, "runtime"] [CURRENT_DIRECTORY, "runtime"]
        (root entries) =
      if replaces node (current.lookup "runtime") then
        some (root (put (put entries RUNTIME_RECOVERY_DIRECTORY
          (some (.dir (put below "runtime" none)))) CURRENT_DIRECTORY
            (some (.dir (put current "runtime" (some node))))))
      else none := by
  have hremove : alter false (fun _ => some none) [RUNTIME_RECOVERY_DIRECTORY, "runtime"]
      (root entries) = some (root (put entries RUNTIME_RECOVERY_DIRECTORY
        (some (.dir (put below "runtime" none))))) := by
    rw [alter_cons_dir, hrecovery, alter_cons_dir]
    rfl
  have hplace : alter false (fun _ => some (some node)) [CURRENT_DIRECTORY, "runtime"]
      (root (put entries RUNTIME_RECOVERY_DIRECTORY (some (.dir (put below "runtime" none))))) =
        some (root (put (put entries RUNTIME_RECOVERY_DIRECTORY
          (some (.dir (put below "runtime" none)))) CURRENT_DIRECTORY
            (some (.dir (put current "runtime" (some node)))))) := by
    rw [alter_cons_dir, lookup_put_ne _ (by decide), hcurrent, alter_cons_dir]
    rfl
  rw [rename_node, if_neg (by decide), find_cons_dir, hrecovery, find_cons_dir, find_nil, hnode,
    find_cons_dir, hcurrent, find_cons_dir, find_nil]
  cases hreplaces : replaces node (current.lookup "runtime") with
  | false => simp [hreplaces]
  | true => simp [hreplaces, hremove, hplace]

theorem run_rename_runtime {node : Node}
    (hcurrent : entries.lookup CURRENT_DIRECTORY = some (.dir current))
    (hrecovery : entries.lookup RUNTIME_RECOVERY_DIRECTORY = some (.dir below))
    (hnode : below.lookup "runtime" = some node)
    (hreplaces : replaces node (current.lookup "runtime") = true) :
    run (machine host) (rename [RUNTIME_RECOVERY_DIRECTORY, "runtime"]
        [CURRENT_DIRECTORY, "runtime"]) (root entries) =
      (.ok (), root (put (put entries RUNTIME_RECOVERY_DIRECTORY
        (some (.dir (put below "runtime" none)))) CURRENT_DIRECTORY
          (some (.dir (put current "runtime" (some node)))))) :=
  run_rename (by rw [rename_runtime hcurrent hrecovery hnode, if_pos hreplaces])

theorem run_rename_runtime_error {node : Node}
    (hcurrent : entries.lookup CURRENT_DIRECTORY = some (.dir current))
    (hrecovery : entries.lookup RUNTIME_RECOVERY_DIRECTORY = some (.dir below))
    (hnode : below.lookup "runtime" = some node)
    (hreplaces : replaces node (current.lookup "runtime") = false) :
    run (machine host) (rename [RUNTIME_RECOVERY_DIRECTORY, "runtime"]
        [CURRENT_DIRECTORY, "runtime"]) (root entries) = (.error .Filesystem, root entries) :=
  run_rename_error (by rw [rename_runtime hcurrent hrecovery hnode, hreplaces]; rfl)

/-- The marker of the recovery directory stays when the runtime is taken from it. -/
theorem managed_without_runtime (h : managed (some (.dir below))) :
    managed (some (.dir (put below "runtime" none))) := by
  obtain ⟨_, hbelow, hmarker⟩ := h
  cases hbelow
  exact ⟨_, rfl, by rwa [lookup_put_ne _ (by decide)]⟩

/-- From the rename on. -/
theorem run_rename_and_remove (host : Host) {new : List (String × Node)}
    (hcurrent : entries.lookup CURRENT_DIRECTORY = some (.dir current))
    (hrecovery : entries.lookup RUNTIME_RECOVERY_DIRECTORY = some (.dir below))
    (hmanaged : managed (some (.dir below))) (hnew : below.lookup "runtime" = some (.dir new))
    (hreplaces : replaces (.dir new) (current.lookup "runtime") = true) :
    ∃ entries', run (machine host) (do
        rename [RUNTIME_RECOVERY_DIRECTORY, "runtime"] [CURRENT_DIRECTORY, "runtime"]
        remove_managed_directory_if_present [RUNTIME_RECOVERY_DIRECTORY]) (root entries) =
          (.ok (), root entries') ∧
      entries'.lookup CURRENT_DIRECTORY =
        some (.dir (put current "runtime" (some (.dir new)))) := by
  rw [run_bind_ok _ (run_rename_runtime hcurrent hrecovery hnew hreplaces)]
  refine ⟨_, run_remove_managed ?_, ?_⟩
  · rw [lookup_put_ne _ (by decide), lookup_put_self]
    exact managed_without_runtime hmanaged
  · rw [lookup_put_ne _ (by decide), lookup_put_self]

/-- A runtime that can be replaced is replaced. -/
theorem run_replace_ok (host : Host) {new : List (String × Node)}
    (hcurrent : entries.lookup CURRENT_DIRECTORY = some (.dir current))
    (hrecovery : entries.lookup RUNTIME_RECOVERY_DIRECTORY = some (.dir below))
    (hmanaged : managed (some (.dir below))) (hnew : below.lookup "runtime" = some (.dir new))
    (h : replaceable (current.lookup "runtime")) :
    ∃ entries', run (machine host) replace_runtime (root entries) = (.ok (), root entries') ∧
      entries'.lookup CURRENT_DIRECTORY =
        some (.dir (put current "runtime" (some (.dir new)))) := by
  rw [replace_runtime]
  rcases h with hnone | ⟨old, hold⟩
  · rw [run_bind_ok _ (run_remove_runtime_absent hcurrent (by rw [hnone]; rfl))]
    exact run_rename_and_remove host hcurrent hrecovery hmanaged hnew (by rw [hnone]; rfl)
  · rw [run_bind_ok _ (run_remove_runtime_dir hcurrent hold)]
    have hrecovery' : (put entries CURRENT_DIRECTORY
        (some (.dir (put current "runtime" none)))).lookup
        RUNTIME_RECOVERY_DIRECTORY = some (.dir below) := by rwa [lookup_put_ne _ (by decide)]
    obtain ⟨entries', hrun, hlookup⟩ := run_rename_and_remove host (lookup_put_self ..)
      hrecovery' hmanaged hnew (by rw [lookup_put_self]; rfl)
    refine ⟨entries', hrun, ?_⟩
    rw [hlookup, put_put]

/-- One that cannot be replaced stays. -/
theorem run_replace_error (host : Host) {new : List (String × Node)}
    (hcurrent : entries.lookup CURRENT_DIRECTORY = some (.dir current))
    (hrecovery : entries.lookup RUNTIME_RECOVERY_DIRECTORY = some (.dir below))
    (hnew : below.lookup "runtime" = some (.dir new))
    (h : ¬ replaceable (current.lookup "runtime")) :
    ∃ e, run (machine host) replace_runtime (root entries) = (.error e, root entries) := by
  rw [replace_runtime]
  cases hpresent : present (current.lookup "runtime") with
  | true =>
    obtain ⟨e, he⟩ := run_remove_runtime_other host hcurrent hpresent h
    exact ⟨e, run_bind_error _ he _⟩
  | false =>
    rw [run_bind_ok _ (run_remove_runtime_absent hcurrent hpresent)]
    have hreplaces := replaces_absent new hpresent fun hnone => h (.inl hnone)
    exact ⟨_, run_bind_error _ (run_rename_runtime_error hcurrent hrecovery hnew hreplaces) _⟩

end

/-! ## The whole repair -/

/-- The part of `recover_runtime` that follows the removal of an old recovery. -/
def recover_and_replace (host : Host) (runtime : RuntimeArtifact) : Io Unit := do
  change .create_dir [RUNTIME_RECOVERY_DIRECTORY]
  write_marker [RUNTIME_RECOVERY_DIRECTORY]
  fill_recovery host runtime [RUNTIME_RECOVERY_DIRECTORY] (archive_path runtime)
  replace_runtime

/-- The part of `recover_runtime` that follows the checks. -/
def recover_again (host : Host) (runtime : RuntimeArtifact) : Io Unit := do
  remove_managed_directory_if_present [RUNTIME_RECOVERY_DIRECTORY]
  recover_and_replace host runtime

/-- A run that succeeds if `possible` and leaves `current` with the recovered
    runtime, and otherwise leaves `current` alone. -/
def Recovers (host : Host) (runtime : RuntimeArtifact) (entries : List (String × Node))
    (possible : Prop) (out : Except ArtifactError Unit × Option Node) : Prop :=
  ∃ entries', out.2 = root entries' ∧
    ((out.1 = .ok () ∧ entries'.lookup CURRENT_DIRECTORY =
        with_runtime (entries.lookup CURRENT_DIRECTORY)
          (recovered host runtime (entries.lookup CURRENT_DIRECTORY)).2 ∧ possible) ∨
      ((∃ e, out.1 = .error e) ∧
        entries'.lookup CURRENT_DIRECTORY = entries.lookup CURRENT_DIRECTORY ∧ ¬ possible))

/-- What the recovery does when there is no recovery directory. -/
theorem recovers_and_replaces (host : Host) (runtime : RuntimeArtifact)
    (hmanaged : managed (entries.lookup CURRENT_DIRECTORY)) :
    Recovers host runtime entries
      (entries.lookup RUNTIME_RECOVERY_DIRECTORY = none ∧
        (recovered host runtime (entries.lookup CURRENT_DIRECTORY)).1 = .ok () ∧
        replaceable (find ["runtime"] (entries.lookup CURRENT_DIRECTORY)))
      (run (machine host) (recover_and_replace host runtime) (root entries)) := by
  by_cases hnone : entries.lookup RUNTIME_RECOVERY_DIRECTORY = none
  · have hmarker := run_write_marker host (lookup_put_self entries RUNTIME_RECOVERY_DIRECTORY
      (some (.dir [])))
    rw [put_put] at hmarker
    obtain ⟨entries₁, below, hfill, hrecovery, hnew, hbelow, hframe⟩ :=
      run_fill_recovery host runtime
      (lookup_put_self entries RUNTIME_RECOVERY_DIRECTORY (some marked))
    rw [lookup_put_ne _ (by decide)] at hfill hnew
    have hcurrent : entries₁.lookup CURRENT_DIRECTORY = entries.lookup CURRENT_DIRECTORY := by
      rw [hframe _ (by decide), lookup_put_ne _ (by decide)]
    rw [recover_and_replace, run_bind_ok _ (run_create_dir hnone), run_bind_ok _ hmarker]
    -- Where the archive is not extracted, the installation stays.
    cases hresult : (recovered host runtime (entries.lookup CURRENT_DIRECTORY)).1 with
    | error e =>
      rw [hresult] at hfill
      rw [run_bind_error _ hfill]
      exact ⟨entries₁, rfl, .inr ⟨⟨e, rfl⟩, hcurrent, fun h => by cases h.2.1⟩⟩
    | ok =>
      rw [hresult] at hfill
      rw [run_bind_ok _ hfill]
      obtain ⟨tree, htree, new, hdir, -⟩ := recovered_ok hresult
      rw [htree, hdir] at hnew
      obtain ⟨current, hdir', -⟩ := hmanaged
      have hold : find ["runtime"] (entries.lookup CURRENT_DIRECTORY) =
          current.lookup "runtime" := by
        rw [hdir']
        rfl
      rw [hdir'] at hcurrent
      -- What is extracted is a directory: it replaces what a directory can.
      by_cases hreplaceable : replaceable (current.lookup "runtime")
      · obtain ⟨entries', hrun, hlookup⟩ := run_replace_ok host hcurrent hrecovery hbelow hnew
          hreplaceable
        rw [hrun]
        refine ⟨entries', rfl, .inl ⟨rfl, ?_, hnone, rfl, by rwa [hold]⟩⟩
        rw [hlookup, htree, hdir, hdir']
        rfl
      · obtain ⟨e, he⟩ := run_replace_error host hcurrent hrecovery hnew hreplaceable
        rw [he]
        refine ⟨entries₁, rfl, .inr ⟨⟨e, rfl⟩, by rw [hcurrent, hdir'], fun h => hreplaceable ?_⟩⟩
        rw [← hold]
        exact h.2.2
  · rw [recover_and_replace, run_bind_error _ (run_create_dir_error hnone)]
    exact ⟨entries, rfl, .inr ⟨⟨_, rfl⟩, rfl, fun h => hnone h.1⟩⟩

/-- What it does when there may be one. -/
theorem recovers_again (host : Host) (runtime : RuntimeArtifact)
    (hmanaged : managed (entries.lookup CURRENT_DIRECTORY)) :
    Recovers host runtime entries
      (clear (entries.lookup RUNTIME_RECOVERY_DIRECTORY) ∧
        (recovered host runtime (entries.lookup CURRENT_DIRECTORY)).1 = .ok () ∧
        replaceable (find ["runtime"] (entries.lookup CURRENT_DIRECTORY)))
      (run (machine host) (recover_again host runtime) (root entries)) := by
  rw [recover_again]
  by_cases hrecovery : managed (entries.lookup RUNTIME_RECOVERY_DIRECTORY)
  · rw [run_bind_ok _ (run_remove_managed hrecovery)]
    have hcurrent : (put entries RUNTIME_RECOVERY_DIRECTORY none).lookup CURRENT_DIRECTORY =
        entries.lookup CURRENT_DIRECTORY := lookup_put_ne _ (by decide) _
    obtain ⟨entries', hstate, h⟩ := recovers_and_replaces host runtime (hcurrent.symm ▸ hmanaged)
    rw [hcurrent, lookup_put_self] at h
    refine ⟨entries', hstate, ?_⟩
    rcases h with ⟨hok, hlookup, -, h⟩ | ⟨herror, hsame, hnot⟩
    · exact .inl ⟨hok, hlookup, .inr hrecovery, h⟩
    · exact .inr ⟨herror, hsame, fun h => hnot ⟨rfl, h.2⟩⟩
  · cases hpresent : present (entries.lookup RUNTIME_RECOVERY_DIRECTORY) with
    | true =>
      obtain ⟨e, he⟩ := run_remove_other host hpresent hrecovery
      rw [run_bind_error _ he]
      refine ⟨entries, rfl, .inr ⟨⟨e, rfl⟩, rfl, ?_⟩⟩
      rintro ⟨hnone | h, -⟩
      · rw [hnone] at hpresent
        cases hpresent
      · exact hrecovery h
    | false =>
      rw [run_bind_ok _ (run_remove_absent hpresent)]
      obtain ⟨entries', hstate, h⟩ := recovers_and_replaces host runtime hmanaged
      refine ⟨entries', hstate, h.imp (fun h => ?_) fun h => ?_⟩
      · exact ⟨h.1, h.2.1, .inl h.2.2.1, h.2.2.2⟩
      · exact ⟨h.1, h.2.1, fun hi => h.2.2 ⟨hi.1.resolve_right hrecovery, hi.2⟩⟩

/-- From these two entries, the runtime can be recovered. -/
structure recoverable (host : Host) (manifest : ArtifactManifest) (runtime : RuntimeArtifact)
    (current recovery : Option Node) : Prop where
  kept : kept host manifest runtime current
  cleared : clear recovery
  extracts : (recovered host runtime current).1 = .ok ()
  replaces : replaceable (find ["runtime"] current)

/-- What it does to any installation. -/
theorem recovers_runtime (host : Host) (manifest : ArtifactManifest) (runtime : RuntimeArtifact)
    (entries : List (String × Node)) :
    Recovers host runtime entries
      (recoverable host manifest runtime (entries.lookup CURRENT_DIRECTORY)
        (entries.lookup RUNTIME_RECOVERY_DIRECTORY))
      (run (machine host) (recover_runtime host [CURRENT_DIRECTORY] manifest runtime)
        (root entries)) := by
  by_cases hkept : kept host manifest runtime (entries.lookup CURRENT_DIRECTORY)
  · obtain ⟨state, hstate⟩ := hkept
    have hcheck : run (machine host) (check_kept host [CURRENT_DIRECTORY] manifest runtime)
      (root entries) = (.ok state, root entries) := inspects_check_kept.run_ok hstate
    have harchive : join [CURRENT_DIRECTORY] state.runtime_archive = archive_path runtime := by
      rw [(kept_state hstate).1, archive_path]
    have hrun : run (machine host) (recover_runtime host [CURRENT_DIRECTORY] manifest runtime)
        (root entries) = run (machine host) (recover_again host runtime) (root entries) := by
      rw [recover_runtime, run_bind_ok _ hcheck, harchive]
      rfl
    rw [hrun]
    obtain ⟨entries', hs, h⟩ := recovers_again host runtime (kept.managed ⟨state, hstate⟩)
    refine ⟨entries', hs, h.imp (fun h => ?_) fun h => ?_⟩
    · exact ⟨h.1, h.2.1, ⟨⟨state, hstate⟩, h.2.2.1, h.2.2.2.1, h.2.2.2.2⟩⟩
    · exact ⟨h.1, h.2.1, fun hi => h.2.2 ⟨hi.cleared, hi.extracts, hi.replaces⟩⟩
  · have hcheck : ∃ e, run (machine host) (check_kept host [CURRENT_DIRECTORY] manifest runtime)
        (root entries) = (.error e, root entries) :=
      inspects_check_kept.run_error fun state hstate => hkept ⟨state, hstate⟩
    obtain ⟨e, he⟩ := hcheck
    rw [recover_runtime, run_bind_error _ he]
    exact ⟨entries, rfl, .inr ⟨⟨e, rfl⟩, rfl, fun h => hkept h.kept⟩⟩

/-- The roots from which the offline mode repairs. -/
def repairable (host : Host) (manifest : ArtifactManifest) (runtime : RuntimeArtifact)
    (entries : List (String × Node)) : Prop :=
  recoverable host manifest runtime (entries.lookup CURRENT_DIRECTORY)
      (entries.lookup RUNTIME_RECOVERY_DIRECTORY) ∧
    recovers host manifest runtime (entries.lookup CURRENT_DIRECTORY)

/-- The recovery has left `current` as it was, or given it a runtime with which it
    does not verify. -/
def Unrepaired (host : Host) (manifest : ArtifactManifest) (runtime : RuntimeArtifact)
    (entries entries' : List (String × Node)) : Prop :=
  let current := entries.lookup CURRENT_DIRECTORY
  let recovery := entries.lookup RUNTIME_RECOVERY_DIRECTORY
  ¬ recoverable host manifest runtime current recovery ∧
      entries'.lookup CURRENT_DIRECTORY = current ∨
    recoverable host manifest runtime current recovery ∧
      ¬ recovers host manifest runtime current ∧
      entries'.lookup CURRENT_DIRECTORY = with_runtime current (recovered host runtime current).2

theorem Unrepaired.not_repairable {entries' : List (String × Node)}
    (h : Unrepaired host manifest runtime entries entries') :
    ¬ repairable host manifest runtime entries := by
  rintro ⟨hrecoverable, hrecovers⟩
  rcases h with ⟨hnot, -⟩ | ⟨-, hnot, -⟩
  · exact hnot hrecoverable
  · exact hnot hrecovers

/-- A repair ends with a verified installation, or with an error. -/
theorem repairs_offline (host : Host) (manifest : ArtifactManifest) (runtime : RuntimeArtifact)
    (entries : List (String × Node)) :
    ∃ entries', (run (machine host) (repair_offline host manifest runtime) (root entries)).2 =
        root entries' ∧
      (((run (machine host) (repair_offline host manifest runtime) (root entries)).1 = .ok () ∧
        verified host manifest runtime (entries'.lookup CURRENT_DIRECTORY) ∧
        repairable host manifest runtime entries) ∨
      ((∃ e, (run (machine host) (repair_offline host manifest runtime) (root entries)).1 =
        .error e) ∧
        Unrepaired host manifest runtime entries entries')) := by
  obtain ⟨entries₁, hs, h⟩ := recovers_runtime host manifest runtime entries
  have hmap := run_map_err (machine host) (fun _ => ArtifactError.OfflineUnavailable)
    (recover_runtime host [CURRENT_DIRECTORY] manifest runtime) (root entries)
  rw [hs] at hmap
  rw [repair_offline]
  rcases h with ⟨hok, hlookup, hrecoverable⟩ | ⟨⟨e, he⟩, hsame, hnot⟩
  · rw [hok] at hmap
    rw [run_bind_ok _ hmap, run_map_err]
    by_cases hverified : verified host manifest runtime (entries₁.lookup CURRENT_DIRECTORY)
    · rw [hverified.run]
      have hrecovers : recovers host manifest runtime (entries.lookup CURRENT_DIRECTORY) := by
        rwa [recovers, ← hlookup]
      exact ⟨entries₁, rfl, .inl ⟨rfl, hverified, hrecoverable, hrecovers⟩⟩
    · obtain ⟨e, he⟩ := run_verify_error hverified
      rw [he]
      refine ⟨entries₁, rfl, .inr ⟨⟨_, rfl⟩, .inr ⟨hrecoverable, fun h => hverified ?_,
        hlookup⟩⟩⟩
      rw [hlookup]
      exact h
  · rw [he] at hmap
    rw [run_bind_error _ hmap]
    exact ⟨entries₁, rfl, .inr ⟨⟨_, rfl⟩, .inl ⟨hnot, hsame⟩⟩⟩

/-- When the repair succeeds. -/
theorem repair_offline_ok_iff (host : Host) (manifest : ArtifactManifest)
    (runtime : RuntimeArtifact) (entries : List (String × Node)) :
    (run (machine host) (repair_offline host manifest runtime) (root entries)).1 = .ok () ↔
      repairable host manifest runtime entries := by
  obtain ⟨_, -, ⟨hok, -, h⟩ | ⟨⟨e, he⟩, h⟩⟩ := repairs_offline host manifest runtime entries
  · exact ⟨fun _ => h, fun _ => hok⟩
  · exact ⟨fun hok => (by rw [he] at hok; cases hok), fun hi => absurd hi h.not_repairable⟩

end Inferences.Artifacts
