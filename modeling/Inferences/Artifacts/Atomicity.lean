import Inferences.Artifacts.Untouched

/-!
# Online setup and one error

When at most one operation of an online run returns an error, `current` is in
the end what it was, or the tree that was verified in the staging directory
(`setup_atomic`). The error may be the one that stops the promotion between its
two renames: then none is left for the way back.
-/

namespace Inferences.Artifacts

open Node Program

variable {host : Host} {manifest : ArtifactManifest} {runtime : RuntimeArtifact} {n : Nat}
  {s s₁ s' : Option Node}

/-- An operation that returns an error. To find nothing is an answer, and no error
    of an operation that looks. -/
def returns_error : (op : Op) → op.Res → Prop
  | .query .., _ => False
  | .change .., r | .rename .., r | .service _, r => r = .error ()
  | .send _, r => r = .error ()
  | .recv _, r => r = .error ()

instance : (op : Op) → (r : op.Res) → Decidable (returns_error op r)
  | .query .., _ => .isFalse id
  | .change .., .ok _ | .rename .., .ok _ | .service _, .ok _ | .send _, .ok _ | .recv _, .ok _ =>
    .isFalse nofun
  | .change .., .error () | .rename .., .error () | .service _, .error () | .send _, .error ()
  | .recv _, .error () => .isTrue rfl

/-! ## Renames -/

/-- A rename that returns an error has changed nothing. -/
theorem erring_rename {source target : Path} {result : Except ArtifactError Unit}
    (h : Erring (machine host) returns_error n (rename source target) s result s') :
    (result = .ok () ∧ rename_node source target s = some s') ∨
      ((∃ e, result = .error e) ∧ s' = s ∧ 0 < n) := by
  rcases faulty_rename h.faulty with ⟨hr, hrename⟩ | ⟨hr, rfl⟩
  · exact .inl ⟨Option.some.inj hr, hrename⟩
  cases result with
  | ok => exact absurd rfl hr
  | error e =>
    refine .inr ⟨⟨e, rfl⟩, rfl, ?_⟩
    cases h with
    | natural | fail => exact Nat.succ_pos _
    | step hfine h =>
      -- a rename that is not charged has succeeded
      change ¬ (done s' (rename_node source target s')).1 = .error () at hfine
      change Erring (machine host) returns_error n
        (fs (done s' (rename_node source target s')).1) _ _ s' at h
      cases hr : (done s' (rename_node source target s')).1 with
      | error => exact absurd hr hfine
      | ok =>
        rw [hr] at h
        cases h

/-- What a rename in the root moves. -/
theorem find_renamed {source target : String} (hne : source ≠ target)
    (h : rename_node [source] [target] s = some s') :
    find [target] s' = find [source] s ∧ find [source] s' = none := by
  rw [rename_node, if_neg (by simpa using hne)] at h
  obtain ⟨node, hnode, h⟩ := Option.bind_eq_some_iff.1 h
  split at h
  · obtain ⟨s₁, hremove, hplace⟩ := Option.bind_eq_some_iff.1 h
    have hgone := find_alter_self hremove
    have hthere := find_alter_self hplace
    constructor
    · rw [hnode]
      exact (Option.some.inj hthere).symm
    · rw [find_alter_ne hne hplace]
      exact (Option.some.inj hgone).symm
  · cases h

/-! ## The promotion -/

/-- The installation is set aside or stays where it is. -/
theorem erring_set_aside {result : Except ArtifactError Unit}
    (h : Erring (machine host) returns_error n
      (set_aside [CURRENT_DIRECTORY] [PREVIOUS_DIRECTORY]) s result s') :
    (s' = s ∧ (result = .ok () → (find [CURRENT_DIRECTORY] s).bind follow = none ∨ 0 < n)) ∨
      result = .ok () ∧ managed (find [CURRENT_DIRECTORY] s) ∧
        rename_node [CURRENT_DIRECTORY] [PREVIOUS_DIRECTORY] s = some s' := by
  rcases of_set_aside h.faulty with ⟨hs, habsent⟩ | ⟨hok, hmoved⟩
  · exact .inl ⟨hs, fun hok => habsent (congrArg some hok)⟩
  · exact .inr ⟨Option.some.inj hok, hmoved⟩

theorem not_erring_path_exists {path : Path} {e : ArtifactError} {fault : Op → Option Node → Prop} :
    ¬ Faulty (machine host) fault (path_exists path) s (some (.error e)) s' := by
  intro h
  cases h with
  | step h => cases h
  | fail _ _ h => cases h

/-- Without an error, the way back is taken if `.previous` is there and `current`
    is not. -/
theorem erring_roll_back {result : Except ArtifactError Unit}
    (h : Erring (machine host) returns_error 0
      (roll_back [PREVIOUS_DIRECTORY] [CURRENT_DIRECTORY]) s result s') :
    (s' = s ∧ ((find [PREVIOUS_DIRECTORY] s).bind follow = none ∨
        ((find [CURRENT_DIRECTORY] s).bind follow).isSome = true)) ∨
      ((find [PREVIOUS_DIRECTORY] s).bind follow).isSome = true ∧
        rename_node [PREVIOUS_DIRECTORY] [CURRENT_DIRECTORY] s = some s' := by
  unfold roll_back at h
  rcases h.of_bind with ⟨e, rfl, hp⟩ | ⟨present, s₁, m, k, hmk, hp, hrest⟩
  · exact absurd hp.faulty not_erring_path_exists
  -- No error is left to spend: each part has none.
  obtain ⟨rfl, rfl⟩ : m = 0 ∧ k = 0 := by omega
  obtain ⟨rfl, hpresent, habsent⟩ := absent_of_path_exists hp.faulty
  cases present with
  | false =>
    cases hrest
    exact .inl ⟨rfl, .inl ((habsent rfl).resolve_right (Nat.lt_irrefl 0))⟩
  | true =>
    rw [if_pos rfl] at hrest
    rcases hrest.of_bind with ⟨e, rfl, hp⟩ | ⟨taken, s₂, m, k, hmk, hp, hrename⟩
    · exact absurd hp.faulty not_erring_path_exists
    obtain ⟨rfl, rfl⟩ : m = 0 ∧ k = 0 := by omega
    obtain ⟨rfl, htaken, -⟩ := absent_of_path_exists hp.faulty
    cases taken with
    | true =>
      cases hrename
      exact .inl ⟨rfl, .inr (htaken rfl)⟩
    | false =>
      change Erring (machine host) returns_error 0
        (ignore (rename [PREVIOUS_DIRECTORY] [CURRENT_DIRECTORY])) s₂ result s' at hrename
      unfold ignore at hrename
      rcases hrename.of_bind with ⟨e, rfl, hp⟩ | ⟨r, s₃, m, k, hmk, hp, hdone⟩
      · obtain ⟨r, hr, -⟩ := hp.of_attempt
        cases hr
      obtain ⟨rfl, rfl⟩ : m = 0 ∧ k = 0 := by omega
      obtain ⟨r', -, hback⟩ := hp.of_attempt
      cases hdone
      rcases erring_rename hback with ⟨-, hmoved⟩ | ⟨-, -, hpos⟩
      · exact .inr ⟨hpresent rfl, hmoved⟩
      · exact absurd hpos (Nat.lt_irrefl 0)

/-- The staging directory takes the place of `current`, or an error is spent. -/
theorem erring_take_place {result : Except ArtifactError Unit}
    (h : Erring (machine host) returns_error n
      (take_place [STAGING_DIRECTORY] [CURRENT_DIRECTORY] [PREVIOUS_DIRECTORY]) s result s') :
    find [CURRENT_DIRECTORY] s' = find [STAGING_DIRECTORY] s ∨
      result ≠ .ok () ∧ ∃ k r, k < n ∧ Erring (machine host) returns_error k
        (roll_back [PREVIOUS_DIRECTORY] [CURRENT_DIRECTORY]) s r s' := by
  unfold take_place at h
  rcases h.of_bind with ⟨e, rfl, hp⟩ | ⟨moved, s₁, m, k, rfl, hp, hrest⟩
  · obtain ⟨r, hr, -⟩ := hp.of_attempt
    cases hr
  obtain ⟨r, hr, hp⟩ := hp.of_attempt
  cases hr
  rcases erring_rename hp with ⟨rfl, hmoved⟩ | ⟨⟨e, rfl⟩, rfl, hpos⟩
  · left
    have hsame := same_remove_managed hrest.faulty
    rw [hsame _ (by decide)]
    exact (find_renamed (by decide) hmoved).1
  · right
    change Erring (machine host) returns_error k
      (roll_back [PREVIOUS_DIRECTORY] [CURRENT_DIRECTORY] >>= fun _ => throw e) s₁ result s'
      at hrest
    rcases hrest.of_bind with ⟨e', rfl, hback⟩ | ⟨a, s₂, m', k', rfl, hback, hthrow⟩
    · exact ⟨nofun, k, _, Nat.lt_add_of_pos_left hpos, hback⟩
    · cases hthrow
      exact ⟨nofun, m', _, by omega, hback⟩

/-- A promotion with at most one error puts the staging directory in the place
    of `current`, or fails and leaves `current` as it was. -/
theorem erring_promote {result : Except ArtifactError Unit} (hn : n ≤ 1)
    (h : Erring (machine host) returns_error n
      (promote [STAGING_DIRECTORY] [CURRENT_DIRECTORY]) s result s') :
    find [CURRENT_DIRECTORY] s' = find [STAGING_DIRECTORY] s ∨
      result ≠ .ok () ∧ find [CURRENT_DIRECTORY] s' = find [CURRENT_DIRECTORY] s := by
  unfold promote at h
  rcases h.of_bind with ⟨e, rfl, hp⟩ | ⟨a, s₁, m, k, rfl, hp, hrest⟩
  · exact .inr ⟨nofun, same_remove_managed hp.faulty _ (by decide)⟩
  have hsame := same_remove_managed hp.faulty
  -- Unless it is overlooked, `.previous` is out of the way.
  have hcleared : (find [PREVIOUS_DIRECTORY] s₁).bind follow = none ∨ 0 < m := by
    rcases faulty_remove_managed hp.faulty with ⟨rfl, habsent⟩ | ⟨-, -, hgone⟩
    · exact habsent rfl
    · rw [hgone rfl]
      exact .inl rfl
  rw [← hsame STAGING_DIRECTORY (by decide), ← hsame CURRENT_DIRECTORY (by decide)]
  rcases hrest.of_bind with ⟨e, rfl, hp⟩ | ⟨a, s₂, m', k', rfl, hp, htake⟩
  · rcases erring_set_aside hp with ⟨rfl, -⟩ | ⟨hok, -⟩
    · exact .inr ⟨nofun, rfl⟩
    · cases hok
  rcases erring_take_place htake with hplaced | ⟨hr, k, r, hk, hback⟩
  · have haside : Same [CURRENT_DIRECTORY, PREVIOUS_DIRECTORY] s₁ s₂ :=
      same_of_calls (only_set_aside (.head _) (.tail _ (.head _))) hp.faulty
    exact .inl (hplaced.trans (haside _ (by decide)))
  -- The error is spent: nothing has failed before, and nothing fails on the way back.
  obtain ⟨rfl, rfl, rfl⟩ : m = 0 ∧ m' = 0 ∧ k = 0 := by omega
  refine .inr ⟨hr, ?_⟩
  rcases erring_set_aside hp with ⟨rfl, -⟩ | ⟨-, hmanaged, hmoved⟩
  · -- `current` was not moved, so nothing is moved back
    rcases erring_roll_back hback with ⟨rfl, -⟩ | ⟨hpresent, -⟩
    · rfl
    · rw [hcleared.resolve_right (Nat.lt_irrefl 0)] at hpresent
      cases hpresent
  · -- `current` is at `.previous`, and comes back
    obtain ⟨hprevious, hcurrent⟩ := find_renamed (by decide) hmoved
    rcases erring_roll_back hback with ⟨-, habsent | hpresent⟩ | ⟨-, hmoved⟩
    · have hfollow := hmanaged.follow
      rw [← hprevious, habsent] at hfollow
      cases hfollow
    · rw [hcurrent] at hpresent
      cases hpresent
    · rw [(find_renamed (by decide) hmoved).1, hprevious]

/-! ## The whole run -/

/-- The part of `install_online` that comes before the promotion. -/
def stage (host : Host) (manifest : ArtifactManifest) (runtime : RuntimeArtifact) : Io Unit := do
  remove_managed_directory_if_present [STAGING_DIRECTORY]
  change .create_dir [STAGING_DIRECTORY]
  write_marker [STAGING_DIRECTORY]
  fill_staging host manifest runtime [STAGING_DIRECTORY]
  verify_current host [STAGING_DIRECTORY] manifest runtime .Full

/-- The installation, in its parts. -/
theorem install_online_eq (host : Host) (manifest : ArtifactManifest) (runtime : RuntimeArtifact) :
    install_online host manifest runtime = stage host manifest runtime >>= fun _ =>
      promote [STAGING_DIRECTORY] [CURRENT_DIRECTORY] >>= fun _ =>
        verify_current host [CURRENT_DIRECTORY] manifest runtime .Full := by
  simp only [install_online, stage, publish, bind_assoc']

theorem only_stage (host : Host) (manifest : ArtifactManifest) (runtime : RuntimeArtifact) :
    (stage host manifest runtime).Calls (Op.only [STAGING_DIRECTORY]) :=
  Calls.bind (only_remove_managed (.head _)) fun _ => Calls.bind (only_change (.head _)) fun _ =>
    Calls.bind (only_write_marker (.head _)) fun _ => Calls.bind (only_fill_staging (.head _))
      fun _ => only_verify_current _

/-- The tree passes the full verification, and a run of the installation from a
    root like `s` has staged it. -/
structure Published (host : Host) (manifest : ArtifactManifest) (runtime : RuntimeArtifact)
    (s tree : Option Node) : Prop where
  verified : verified host manifest runtime tree
  staged : ∃ n ≤ 1, ∃ s₁ s₂, (∀ name, name ≠ "install.lock" → find [name] s₁ = find [name] s) ∧
    Erring (machine host) returns_error n (stage host manifest runtime) s₁ (.ok ()) s₂ ∧
    find [STAGING_DIRECTORY] s₂ = tree

/-- What is staged is verified. -/
theorem verified_of_stage {a : Unit}
    (h : Erring (machine host) returns_error n (stage host manifest runtime) s (.ok a) s') :
    verified host manifest runtime (find [STAGING_DIRECTORY] s') := by
  have hassoc : stage host manifest runtime = (remove_managed_directory_if_present
      [STAGING_DIRECTORY] >>= fun _ => change .create_dir [STAGING_DIRECTORY] >>= fun _ =>
        write_marker [STAGING_DIRECTORY] >>= fun _ =>
          fill_staging host manifest runtime [STAGING_DIRECTORY]) >>= fun _ =>
            verify_current host [STAGING_DIRECTORY] manifest runtime .Full := by
    simp only [stage, bind_assoc']
  rw [hassoc] at h
  rcases h.of_bind with ⟨e, hr, -⟩ | ⟨b, s₁, m, k, -, -, hverify⟩
  · cases hr
  · obtain ⟨rfl, hverified⟩ := (inspects_verify_current .Full).of_faulty hverify.faulty
    exact hverified a rfl

/-- What is at `current` in the end: what was there, or a published tree. If the
    run succeeds, it verifies. -/
def Installed (host : Host) (manifest : ArtifactManifest) (runtime : RuntimeArtifact)
    (s : Option Node) (result : Except ArtifactError Unit) (s' : Option Node) : Prop :=
  (find [CURRENT_DIRECTORY] s' = find [CURRENT_DIRECTORY] s ∨
      Published host manifest runtime s (find [CURRENT_DIRECTORY] s')) ∧
    (result = .ok () → verified host manifest runtime (find [CURRENT_DIRECTORY] s'))

/-- With one error at most, the old or the new installation stands. -/
theorem installed_install_online {result : Except ArtifactError Unit} (hn : n ≤ 1)
    (h : Erring (machine host) returns_error n (install_online host manifest runtime) s result s') :
    Installed host manifest runtime s result s' := by
  rw [install_online_eq] at h
  rcases h.of_bind with ⟨e, rfl, hp⟩ | ⟨a, s₁, m, k, rfl, hstage, hrest⟩
  · exact ⟨.inl (same_of_calls (only_stage host manifest runtime) hp.faulty _ (by decide)), nofun⟩
  have hsame := same_of_calls (only_stage host manifest runtime) hstage.faulty
  have hcurrent : find [CURRENT_DIRECTORY] s₁ = find [CURRENT_DIRECTORY] s := hsame _ (by decide)
  have hpublished : Published host manifest runtime s (find [STAGING_DIRECTORY] s₁) :=
    ⟨verified_of_stage hstage, m, by omega, s, s₁, fun _ _ => rfl, hstage, rfl⟩
  have hpromote {j : Nat} {r : Except ArtifactError Unit} {s₂ : Option Node} (hj : j ≤ k)
      (hp : Erring (machine host) returns_error j
        (promote [STAGING_DIRECTORY] [CURRENT_DIRECTORY]) s₁ r s₂) :
      find [CURRENT_DIRECTORY] s₂ = find [CURRENT_DIRECTORY] s ∨
        Published host manifest runtime s (find [CURRENT_DIRECTORY] s₂) := by
    rcases erring_promote (by omega) hp with hplaced | ⟨-, hkept⟩
    · exact .inr (hplaced ▸ hpublished)
    · exact .inl (hkept.trans hcurrent)
  rcases hrest.of_bind with ⟨e, rfl, hp⟩ | ⟨b, s₂, j, i, hk, hp, hcheck⟩
  · exact ⟨hpromote le_rfl hp, nofun⟩
  · obtain ⟨rfl, hverified⟩ := (inspects_verify_current .Full).of_faulty hcheck.faulty
    refine ⟨hpromote (by omega) hp, fun hok => ?_⟩
    exact hverified () (congrArg some hok)

/-- The same for the whole work of the setup. -/
theorem installed_verify_or_install {result : Except ArtifactError Unit} (hn : n ≤ 1)
    (h : Erring (machine host) returns_error n
      (verify_or_install host .Online manifest runtime) s result s') :
    Installed host manifest runtime s result s' := by
  rw [verify_or_install_eq] at h
  rcases h.of_bind with ⟨e, rfl, hp⟩ | ⟨checked, s₁, m, k, rfl, hp, hrest⟩
  · obtain ⟨r, hr, -⟩ := hp.of_attempt
    cases hr
  obtain ⟨r, hr, hcheck⟩ := hp.of_attempt
  cases hr
  obtain ⟨rfl, hverified⟩ := (inspects_verify_current .Full).of_faulty hcheck.faulty
  cases checked with
  | ok =>
    cases hrest
    exact ⟨.inl rfl, fun _ => hverified () rfl⟩
  | error e => exact installed_install_online (by omega) hrest

/-- What an online run leaves at `current`. -/
structure Atomic (host : Host) (s : Option Node) (result : Except ArtifactError InstallStatus)
    (s' : Option Node) : Prop where
  failed : ∀ e, result = .error e → find [CURRENT_DIRECTORY] s' = find [CURRENT_DIRECTORY] s ∨
    ∃ manifest target runtime, parse_manifest host = .ok manifest ∧
      host.host_target = some target ∧ select_runtime manifest target = .ok runtime ∧
      Published host manifest runtime s (find [CURRENT_DIRECTORY] s')
  ready : ∀ status, result = .ok status → ∃ manifest target runtime,
    parse_manifest host = .ok manifest ∧ host.host_target = some target ∧
      select_runtime manifest target = .ok runtime ∧
      verified host manifest runtime (find [CURRENT_DIRECTORY] s')

/-- An online run in which at most one operation returns an error is atomic for
    `current`. -/
theorem setup_atomic {result : Except ArtifactError InstallStatus}
    (h : Erring (machine host) returns_error 1 (setup host .Online) s result s') :
    Atomic host s result s' := by
  rcases setup_cases host .Online with
    ⟨e, hsetup⟩ | ⟨manifest, target, runtime, r, hparsed, htarget, hselected, hsetup⟩
  · rw [hsetup] at h
    cases h
    exact ⟨fun _ _ => .inl rfl, nofun⟩
  rw [hsetup] at h
  rcases h.of_bind with ⟨e, rfl, hp⟩ | ⟨a, s₁, m, k, hmk, hopen, hrest⟩
  · exact ⟨fun _ _ => .inl (same_open_root hp.faulty _ (by decide)), nofun⟩
  have hsame := same_open_root hopen.faulty
  have hcurrent : find [CURRENT_DIRECTORY] s₁ = find [CURRENT_DIRECTORY] s := hsame _ (by decide)
  have hlift {r : Except ArtifactError Unit} {s₂ : Option Node}
      (h : Installed host manifest runtime s₁ r s₂) :
      find [CURRENT_DIRECTORY] s₂ = find [CURRENT_DIRECTORY] s ∨
        Published host manifest runtime s (find [CURRENT_DIRECTORY] s₂) := by
    rcases h.1 with hkept | ⟨hverified, n, hn, s₃, s₄, hlike, hstage, hstaged⟩
    · exact .inl (hkept.trans hcurrent)
    · refine .inr ⟨hverified, n, hn, s₃, s₄, fun name hlock => ?_, hstage, hstaged⟩
      rw [hlike name hlock]
      exact hsame name fun h => hlock (List.mem_singleton.1 h)
  rcases hrest.of_bind with ⟨e, rfl, hp⟩ | ⟨b, s₂, j, i, rfl, hp, hdone⟩
  · refine ⟨fun _ _ => ?_, nofun⟩
    exact (hlift (installed_verify_or_install (by omega) hp)).imp_right fun h =>
      ⟨manifest, target, runtime, hparsed, htarget, hselected, h⟩
  · have hinstalled := installed_verify_or_install (by omega) hp
    cases hdone
    refine ⟨fun _ _ => ?_, fun _ _ => ?_⟩
    · exact (hlift hinstalled).imp_right fun h =>
        ⟨manifest, target, runtime, hparsed, htarget, hselected, h⟩
    · exact ⟨manifest, target, runtime, hparsed, htarget, hselected, hinstalled.2 rfl⟩

/-- The second rename of the promotion fails. -/
theorem setup_atomic_small_root :
    (reach (machine small_host) 59 (setup small_host .Online) small_root).map Prod.fst =
        some (.rename [STAGING_DIRECTORY] [CURRENT_DIRECTORY]) ∧
      Atomic small_host small_root
        (falter (machine small_host) 59 (setup small_host .Online) small_root).1
        (falter (machine small_host) 59 (setup small_host .Online) small_root).2 := by
  have hone : falter_errors (machine small_host) returns_error 59 (setup small_host .Online)
      small_root = 1 := by decide +kernel
  have herring : Erring (machine small_host) returns_error _ _ small_root _ _ :=
    .of_falter (fun _ _ => Or.inl rfl) 59 (setup small_host .Online) small_root
  rw [hone] at herring
  exact ⟨by decide +kernel, setup_atomic herring⟩

end Inferences.Artifacts
