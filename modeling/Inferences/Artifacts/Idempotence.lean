import Inferences.Artifacts.Atomicity

/-!
# Setup after setup

Whatever operations of a setup fail, and however far each of them gets: when
the setup returns ready, a setup after it, in either mode, returns the same,
sends and receives nothing, and leaves every entry of the root as it is
(`setup_again`).
-/

namespace Inferences.Artifacts

open Node Program

variable {α : Type} {host : Host} {fault : Op → Option Node → Prop} {manifest : ArtifactManifest}
  {runtime : RuntimeArtifact} {entries : List (String × Node)} {mode : SetupMode}
  {s s' : Option Node}

/-! ## What a setup returns -/

theorem yields_lift (result : Except ArtifactError α) : (lift result).Yields (result = .ok ·) := by
  cases result with
  | ok a => rfl
  | error e => trivial

/-- A run that returns `a` has a program that may. -/
theorem yields_of_faulty {p : Io α} {Q : α → Prop} (hp : p.Yields Q) {a : α}
    (h : Faulty (machine host) fault p s (some (.ok a)) s') : Q a := by
  induction p generalizing s with
  | done result =>
    cases h
    exact hp
  | call op next ih =>
    cases h with
    | step h => exact ih _ (hp _) h
    | fail _ _ h => exact ih _ (hp _) h

/-- A setup returns what it knew before it looked at its root. -/
theorem yields_setup (host : Host) (mode : SetupMode) :
    (setup host mode).Yields fun status => ∃ manifest runtime profile target,
      Chosen host manifest runtime profile target ∧ status = .ready profile target := by
  refine (yields_lift _).bind fun manifest hparsed => ?_
  refine (yields_lift _).bind fun host_target htarget => ?_
  refine (yields_lift _).bind fun runtime hselected => ?_
  refine (yields_true _).bind fun _ _ => (yields_true _).bind fun _ _ =>
    (yields_true _).bind fun _ _ => (yields_true _).bind fun _ _ => ?_
  refine (yields_lift _).bind fun profile hprofiled => ?_
  refine (yields_lift _).bind fun target htargeted => ?_
  refine ⟨manifest, runtime, profile, target, ⟨hparsed, ⟨host_target, ?_, hselected⟩, hprofiled,
    htargeted⟩, rfl⟩
  cases hhost : host.host_target with
  | none =>
    rw [hhost] at htarget
    cases htarget
  | some host_target =>
    rw [hhost] at htarget
    cases htarget
    rfl

/-! ## The root and its lock -/

/-- The lock is there, and opening it changes nothing. -/
def locked (entries : List (String × Node)) : Prop :=
  Change.open_lock.act (entries.lookup "install.lock") = some (entries.lookup "install.lock")

theorem overwrite_id : (node : Node) → {node' : Node} → overwrite id node = some node' →
    overwrite id node' = some node'
  | .file _, _, h | .dead_link, _, h => by
    cases h
    rfl
  | .link node, _, h => by
    obtain ⟨node', hnode, rfl⟩ := Option.map_eq_some_iff.1 h
    rw [overwrite, overwrite_id node hnode]
    rfl
  | .dir _, _, h | .other, _, h => by cases h

theorem open_lock_twice {node node' : Option Node} (h : Change.open_lock.act node = some node') :
    Change.open_lock.act node' = some node' := by
  cases node with
  | none =>
    cases h
    rfl
  | some node =>
    obtain ⟨node', hnode, rfl⟩ := Option.map_eq_some_iff.1 h
    rw [Change.act, overwrite_id node hnode]
    rfl

/-- A change that succeeds is made. -/
theorem apply_of_faulty {c : Change} {path : Path}
    (h : Faulty (machine host) fault (change c path) s (some (.ok ())) s') :
    c.apply path s = some s' := by
  cases h with
  | step h =>
    change Faulty (machine host) fault (fs (done s (c.apply path s)).1)
      (done s (c.apply path s)).2 (some (.ok ())) s' at h
    cases happly : c.apply path s with
    | none =>
      rw [happly] at h
      cases h
    | some s₁ =>
      rw [happly] at h
      cases h
      rfl
  | fail _ _ h => cases h

theorem rooted_of_ensure_root (h : rooted s entries)
    (hensure : Faulty (machine host) fault ensure_root s (some (.ok ())) s') :
    s' = root entries := by
  rcases hensure.of_bind with ⟨hnone, -⟩ | ⟨e, herror, -⟩ | ⟨metadata, s₁, hlook, hrest⟩
  · cases hnone
  · cases herror
  have hmake (hs : s₁ = s)
      (hchange : Faulty (machine host) fault (change .create_dir_all []) s₁ (some (.ok ())) s') :
      s' = root entries := by
    subst hs
    have happly := apply_of_faulty hchange
    rcases h with ⟨rfl, rfl⟩ | rfl <;> exact (Option.some.inj happly).symm
  rcases hlook.of_attempt with ⟨hnone, -⟩ | ⟨r, hr, hquery⟩
  · cases hnone
  obtain rfl : metadata = r := by simpa using hr
  cases hquery with
  | step hquery =>
    rcases h with ⟨rfl, rfl⟩ | rfl
    · cases hquery
      exact hmake rfl hrest
    · cases hquery
      cases hrest
      rfl
  | fail _ htorn hquery =>
    obtain rfl := htorn.resolve_right id
    cases hquery
    exact hmake rfl hrest

/-- When the start of a setup succeeds, the root is there with its lock. -/
theorem locked_of_open_root (h : rooted s entries)
    (hopen : Faulty (machine host) fault open_root s (some (.ok ())) s') :
    ∃ entries', s' = root entries' ∧ locked entries' := by
  rcases hopen.of_bind with ⟨hnone, -⟩ | ⟨e, herror, -⟩ | ⟨_, s₁, hensure, hrest⟩
  · cases hnone
  · cases herror
  obtain rfl := rooted_of_ensure_root h hensure
  rcases hrest.of_bind with ⟨hnone, -⟩ | ⟨e, herror, -⟩ | ⟨_, s₂, hchange, hservice⟩
  · cases hnone
  · cases herror
  have happly := apply_of_faulty hchange
  rw [apply_root] at happly
  obtain ⟨node, hnode, rfl⟩ := Option.map_eq_some_iff.1 happly
  cases hservice with
  | step hservice =>
    cases hservice
    refine ⟨_, rfl, ?_⟩
    rw [locked, lookup_put_self]
    exact open_lock_twice hnode
  | fail _ _ hservice => cases hservice

/-! ## Below the root -/

theorem only_verify_or_install (host : Host) (mode : SetupMode) (manifest : ArtifactManifest)
    (runtime : RuntimeArtifact) :
    (verify_or_install host mode manifest runtime).Calls (Op.only managed_names) := by
  rw [verify_or_install_eq]
  refine Calls.bind (Calls.attempt (only_verify_current _)) fun checked => ?_
  cases checked with
  | ok => trivial
  | error e =>
    cases mode with
    | Online =>
      exact (only_install_online host manifest runtime).mono fun _ h => h.mono (by decide)
    | Offline =>
      refine Calls.bind (Calls.map_err ?_) fun _ => Calls.map_err (only_verify_current _)
      exact (only_recover_runtime host manifest runtime).mono fun _ h => h.mono (by decide)

/-- The last thing that an installation does is to verify `current`. -/
theorem verified_of_install
    (h : Faulty (machine host) fault (install host manifest runtime mode) s (some (.ok ())) s') :
    verified host manifest runtime (find [CURRENT_DIRECTORY] s') := by
  cases mode with
  | Online =>
    rw [install, install_online_eq] at h
    rcases h.of_bind with ⟨hnone, -⟩ | ⟨e, herror, -⟩ | ⟨_, s₁, -, h⟩
    · cases hnone
    · cases herror
    rcases h.of_bind with ⟨hnone, -⟩ | ⟨e, herror, -⟩ | ⟨_, s₂, -, hcheck⟩
    · cases hnone
    · cases herror
    obtain ⟨rfl, hverified⟩ := (inspects_verify_current .Full).of_faulty hcheck
    exact hverified () rfl
  | Offline =>
    rcases h.of_bind with ⟨hnone, -⟩ | ⟨e, herror, -⟩ | ⟨_, s₁, -, h⟩
    · cases hnone
    · cases herror
    obtain ⟨result, hresult, hcheck⟩ := h.of_map_err
    obtain ⟨rfl, hverified⟩ := (inspects_verify_current .Full).of_faulty hcheck
    cases result with
    | none => cases hresult
    | some result =>
      cases result with
      | error e => cases hresult
      | ok => exact hverified () rfl

/-- A setup that returns ready has verified `current`, and left the lock alone
    since it was opened. -/
theorem verified_of_verify_or_install
    (h : Faulty (machine host) fault (verify_or_install host mode manifest runtime) (root entries)
      (some (.ok ())) s') :
    ∃ entries', s' = root entries' ∧
      entries'.lookup "install.lock" = entries.lookup "install.lock" ∧
      verified host manifest runtime (entries'.lookup CURRENT_DIRECTORY) := by
  have hapart : Apart managed_names entries s' :=
    h.invariant (fun _ _ => apart_exec host) (fun _ _ _ => apart_torn host)
      (only_verify_or_install host mode manifest runtime) (apart_self _ entries)
  obtain ⟨entries', rfl, hsame⟩ := hapart
  refine ⟨entries', rfl, hsame _ (by decide), ?_⟩
  change verified host manifest runtime (find [CURRENT_DIRECTORY] (root entries'))
  rw [verify_or_install_eq] at h
  rcases h.of_bind with ⟨hnone, -⟩ | ⟨e, herror, -⟩ | ⟨checked, s₁, hcheck, hrest⟩
  · cases hnone
  · cases herror
  rcases hcheck.of_attempt with ⟨hnone, -⟩ | ⟨r, hr, hcheck⟩
  · cases hnone
  obtain rfl : checked = r := by simpa using hr
  obtain ⟨rfl, hverified⟩ := (inspects_verify_current .Full).of_faulty hcheck
  cases checked with
  | ok =>
    cases hrest
    exact hverified () rfl
  | error e => exact verified_of_install hrest

/-! ## The second setup -/

theorem run_open_root_locked (host : Host) (hlock : locked entries) :
    run (machine host) open_root (root entries) =
      (.ok (), root (put entries "install.lock" (entries.lookup "install.lock"))) := by
  have hopen : Change.open_lock.apply ["install.lock"] (root entries) =
      some (root (put entries "install.lock" (entries.lookup "install.lock"))) := by
    rw [apply_root, hlock]
    rfl
  rw [open_root, run_bind_ok _ (run_ensure_root (.inr rfl)), run_bind_ok _ (run_change hopen)]
  rfl

theorem offline_open_root : open_root.Calls Op.offline := by
  refine Calls.bind (Calls.bind ⟨trivial, fun r => ?_⟩ fun checked => ?_) fun _ =>
    Calls.bind ⟨trivial, calls_fs⟩ fun _ => ⟨trivial, calls_fs⟩
  · cases r <;> trivial
  · cases checked with
    | ok metadata => trivial
    | error e => exact ⟨trivial, calls_fs⟩

/-- A `current` that verifies is only looked at. -/
theorem trace_verify_or_install
    (hverified : verified host manifest runtime (entries.lookup CURRENT_DIRECTORY)) :
    ∀ op ∈ trace (machine host) (verify_or_install host mode manifest runtime) (root entries),
      op.offline := by
  have hcalls : (verify_current host [CURRENT_DIRECTORY] manifest runtime .Full).Calls Op.offline :=
    ((inspects_verify_current .Full).strict _).calls.mono fun _ h => h.offline
  let check : Io (Except ArtifactError Unit) :=
    (verify_current host [CURRENT_DIRECTORY] manifest runtime .Full).attempt
  have hrun : run (machine host) check (root entries) = (.ok (.ok ()), root entries) := by
    rw [run_attempt, hverified.run]
  rw [verify_or_install_eq, trace_bind_ok hrun, List.forall_mem_append]
  exact ⟨hcalls.attempt.trace (root entries), nofun⟩

/-- After a setup that has returned ready, whatever failed on its way, a setup
    in either mode returns the same without the network, and every entry of the
    root stays. -/
theorem setup_again {status : InstallStatus} (h : rooted s entries)
    (hsetup : Faulty (machine host) fault (setup host mode) s (some (.ok status)) s')
    (mode' : SetupMode) :
    (∀ op ∈ trace (machine host) (setup host mode') s', op.offline) ∧
      ∃ s'', run (machine host) (setup host mode') s' = (.ok status, s'') ∧ Same [] s' s'' := by
  obtain ⟨manifest, runtime, profile, target, hchosen, rfl⟩ :=
    yields_of_faulty (yields_setup host mode) hsetup
  rw [setup_eq hchosen] at hsetup
  rcases hsetup.of_bind with ⟨hnone, -⟩ | ⟨e, herror, -⟩ | ⟨_, s₁, hopen, hrest⟩
  · cases hnone
  · cases herror
  -- The first run has opened the root, and ended with a verified `current`.
  obtain ⟨entries₁, rfl, hlocked⟩ := locked_of_open_root h hopen
  rcases hrest.of_bind with ⟨hnone, -⟩ | ⟨e, herror, -⟩ | ⟨_, s₂, hinstall, hdone⟩
  · cases hnone
  · cases herror
  cases hdone
  obtain ⟨entries₂, rfl, hlock, hverified⟩ := verified_of_verify_or_install hinstall
  have hlocked₂ : locked entries₂ := by rwa [locked, hlock]
  have hopen₂ := run_open_root_locked host hlocked₂
  have hverified₂ : verified host manifest runtime ((put entries₂ "install.lock"
      (entries₂.lookup "install.lock")).lookup CURRENT_DIRECTORY) := by
    rwa [lookup_put_ne _ (by decide)]
  have hpass : run (machine host) (verify_or_install host mode' manifest runtime) _ = (.ok (), _) :=
    run_verify_or_install_verified hverified₂
  rw [setup_eq hchosen]
  refine ⟨?_, root (put entries₂ "install.lock" (entries₂.lookup "install.lock")), ?_, ?_⟩
  · rw [trace_bind_ok hopen₂, trace_bind_ok hpass, List.forall_mem_append, List.forall_mem_append]
    exact ⟨offline_open_root.trace _, trace_verify_or_install hverified₂, nofun⟩
  · rw [run_bind_ok _ hopen₂, run_bind_ok _ hpass]
    rfl
  · intro name _
    by_cases hname : name = "install.lock"
    · subst hname
      simp [root]
    · simp [root, lookup_put_ne _ hname]

/-- An online setup after the repair of the small root. -/
theorem setup_again_small_root :
    let s' := (run (machine small_host) (setup small_host .Offline) small_root).2
    (∀ op ∈ trace (machine small_host) (setup small_host .Online) s', op.offline) ∧
      ∃ status s'', run (machine small_host) (setup small_host .Online) s' = (.ok status, s'') ∧
        Same [] s' s'' := by
  intro s'
  obtain ⟨profile, target, hready⟩ := ready_small_root
  have hsetup : Faulty (machine small_host) (fun _ _ => True) (setup small_host .Offline)
      small_root (some (.ok (.ready profile target))) s' := hready ▸ .of_run _ _
  obtain ⟨hoffline, s'', hrun, hsame⟩ := setup_again (.inr rfl) hsetup .Online
  exact ⟨hoffline, _, s'', hrun, hsame⟩

end Inferences.Artifacts
