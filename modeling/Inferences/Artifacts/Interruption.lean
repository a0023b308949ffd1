import Inferences.Artifacts.Frames

/-!
# Interrupted operations

What a run of the first and the smallest parts of `setup` leaves behind when it
is interrupted.
-/

namespace Inferences.Artifacts

open Node Program

variable {host : Host} {manifest : ArtifactManifest} {runtime : RuntimeArtifact}
  {mode : SetupMode} {entries : List (String × Node)} {s : Option Node}

/-! ## Single operations -/

theorem always_change {c : Change} {path : Path}
    {Q : Op → Option Node → Option (Except ArtifactError Unit) → Option Node → Prop}
    (h : ∀ torn, (machine host).torn (.change c path) s torn →
      Q (.change c path) torn none torn ∧
        Q (.change c path) torn (some (.error .Filesystem)) torn) :
    Always (machine host) (change c path) s Q := by
  refine always_call (fun torn ht => (h torn ht).1) (fun torn ht => (h torn ht).2) ?_
  cases ((machine host).exec (.change c path) s).1 <;> exact always_done

theorem always_rename {source target : Path}
    {Q : Op → Option Node → Option (Except ArtifactError Unit) → Option Node → Prop}
    (hdie : Q (.rename source target) s none s)
    (hfail : Q (.rename source target) s (some (.error .Filesystem)) s) :
    Always (machine host) (rename source target) s Q := by
  refine always_call (fun torn ht => ?_) (fun torn ht => ?_) ?_
  · obtain rfl := ht.resolve_right id
    exact hdie
  · obtain rfl := ht.resolve_right id
    exact hfail
  · cases ((machine host).exec (.rename source target) s).1 <;> exact always_done

theorem always_service {what : Service}
    {Q : Op → Option Node → Option (Except ArtifactError Unit) → Option Node → Prop}
    (hdie : Q (.service what) s none s)
    (hfail : Q (.service what) s (some (.error .Filesystem)) s) :
    Always (machine host) (service what) s Q := by
  refine always_call (fun torn ht => ?_) (fun torn ht => ?_) always_done
  · obtain rfl := ht.resolve_right id
    exact hdie
  · obtain rfl := ht.resolve_right id
    exact hfail

/-- A path whose existence cannot be told is taken for one that is not there. -/
theorem always_path_exists {path : Path}
    {Q : Op → Option Node → Option (Except ArtifactError Bool) → Option Node → Prop}
    (hdie : Q (.query .path_exists path) s none s)
    (hfail : Q (.query .path_exists path) s (some (.ok false)) s) :
    Always (machine host) (path_exists path) s Q := by
  refine always_call (fun torn ht => ?_) (fun torn ht => ?_) always_done
  · obtain rfl := ht.resolve_right id
    exact hdie
  · obtain rfl := ht.resolve_right id
    exact hfail

/-! ## The root and its lock -/

/-- The operations that come before the first look at `current`. -/
def Op.opens : Op → Prop
  | query .symlink_metadata path => path = []
  | change .create_dir_all path => path = []
  | change .open_lock path => path = ["install.lock"]
  | service what => what = .lock_exclusive
  | _ => False

theorem Op.inspects.not_opens {op : Op} (h : op.inspects [CURRENT_DIRECTORY]) : ¬ op.opens := by
  cases op with
  | query q path =>
    cases q with
    | symlink_metadata =>
      rintro rfl
      exact absurd (List.prefix_nil.1 h) (List.cons_ne_nil _ _)
    | _ => exact id
  | service what =>
    rintro rfl
    cases h
  | _ => exact h.elim

/-- The root has these entries, but for the lock, which can be opened. -/
def Opened (entries : List (String × Node)) (s : Option Node) : Prop :=
  ∃ entries', rooted s entries' ∧ lockable entries' ∧
    ∀ name, name ≠ "install.lock" → entries'.lookup name = entries.lookup name

theorem opened_self (h : rooted s entries) (hlock : lockable entries) : Opened entries s :=
  ⟨entries, h, hlock, fun _ _ => rfl⟩

/-- The steps after `ensure_root`. -/
def open_lock : Io Unit := do
  change .open_lock ["install.lock"]
  service .lock_exclusive

theorem run_open_lock (host : Host) (hlock : lockable entries) : ∃ node,
    run (machine host) (change .open_lock ["install.lock"]) (root entries) =
        (.ok (), root (put entries "install.lock" node)) ∧
      run (machine host) open_lock (root entries) =
        (.ok (), root (put entries "install.lock" node)) ∧
      lockable (put entries "install.lock" node) := by
  obtain ⟨node, hopen, hlock'⟩ := run_open_root host (.inr rfl) hlock
  rw [open_root, run_bind_ok _ (run_ensure_root (.inr rfl))] at hopen
  obtain ⟨_, s₁, hfirst, hlast⟩ := (run_bind_eq_ok _).1 hopen
  cases hlast
  exact ⟨node, hfirst, hopen, hlock'⟩

/-- An interrupted start leaves everything as it was, but for the lock; it can
    go on only if it has come to the lock. -/
def Started (entries : List (String × Node)) (op : Op) (_ : Option Node)
    (result : Option (Except ArtifactError Unit)) (s' : Option Node) : Prop :=
  op.opens ∧ Opened entries s' ∧ (result = some (.ok ()) → s' ≠ none)

theorem always_open_lock (hlock : lockable entries) :
    Always (machine host) open_lock (root entries) (Started entries) := by
  refine always_bind (always_change fun torn ht => ?_) fun _ s' hrun => ?_
  · obtain rfl := ht.resolve_right id
    have hopened := opened_self (.inr rfl) hlock
    exact ⟨⟨rfl, hopened, by simp⟩, rfl, hopened, by simp⟩
  · obtain ⟨node, hopen, -, hlock'⟩ := run_open_lock host hlock
    rw [hopen] at hrun
    cases hrun
    have hopened : Opened entries (root (put entries "install.lock" node)) :=
      ⟨_, .inr rfl, hlock', fun name hname => lookup_put_ne _ hname _⟩
    exact always_service ⟨rfl, hopened, by simp⟩ ⟨rfl, hopened, by simp⟩

theorem always_open_root (h : rooted s entries) (hlock : lockable entries) :
    Always (machine host) open_root s (Started entries) := by
  have hopened := opened_self h hlock
  have hmake : run (machine host) (change .create_dir_all []) s = (.ok (), root entries) := by
    rcases h with ⟨rfl, rfl⟩ | rfl <;> rfl
  refine always_bind (always_bind (always_attempt ?_) fun metadata s' hrun => ?_)
    fun _ s' hrun => ?_
  · -- a root that cannot be looked at is made again
    refine always_call (fun torn ht => ?_) (fun torn ht => ?_) ?_
    · obtain rfl := ht.resolve_right id
      exact ⟨rfl, hopened, by simp⟩
    · obtain rfl := ht.resolve_right id
      obtain ⟨node, -, hopen, hlock'⟩ := run_open_lock host hlock
      have hgo_on : Then (machine host) (fun _ => open_lock) (Started entries)
          (.query .symlink_metadata []) torn
          (some (run (machine host) (change .create_dir_all []) torn).1)
          (run (machine host) (change .create_dir_all []) torn).2 := by
        rw [hmake]
        change Started entries _ torn (some (run (machine host) open_lock (root entries)).1)
          (run (machine host) open_lock (root entries)).2
        rw [hopen]
        exact ⟨rfl, ⟨_, .inr rfl, hlock', fun name hname => lookup_put_ne _ hname _⟩, by simp⟩
      exact hgo_on
    · cases ((machine host).exec (.query .symlink_metadata []) s).1 <;> exact always_done
  · cases metadata with
    | ok metadata => exact always_done
    | error e =>
      have hlook : Inspects host fun directory => symlink_metadata (directory ++ []) :=
        inspects_symlink_metadata []
      rw [run_attempt] at hrun
      have hsame : s' = s := hlook.frame (show run (machine host) (symlink_metadata ([] ++ [])) s =
        (_, s') from Prod.ext rfl (Prod.mk.inj hrun).2)
      subst hsame
      refine always_change fun torn ht => ?_
      have hroot : rooted torn entries := by
        rcases ht with rfl | ⟨path, hstart, happly⟩
        · exact h
        · obtain rfl := List.prefix_nil.1 hstart
          rw [change_ok hmake] at happly
          cases happly
          exact .inr rfl
      have hopened := opened_self hroot hlock
      exact ⟨⟨rfl, hopened, by simp⟩, rfl, hopened, by simp⟩
  · rw [run_ensure_root h] at hrun
    cases hrun
    exact always_open_lock hlock

/-! ## The first look at `current` -/

/-- A `current` that cannot be looked at is taken for one that does not verify. -/
theorem always_verify_or_install
    {Q : Op → Option Node → Option (Except ArtifactError Unit) → Option Node → Prop}
    (hdie : ∀ op, op.inspects [CURRENT_DIRECTORY] → Q op (root entries) none (root entries))
    (hfail : ∀ op, op.inspects [CURRENT_DIRECTORY] → Q op (root entries)
      (some (run (machine host) (install host manifest runtime mode) (root entries)).1)
      (run (machine host) (install host manifest runtime mode) (root entries)).2)
    (hinstall : ¬ verified host manifest runtime (entries.lookup CURRENT_DIRECTORY) →
      Always (machine host) (install host manifest runtime mode) (root entries) Q) :
    Always (machine host) (verify_or_install host mode manifest runtime) (root entries) Q := by
  rw [verify_or_install_eq]
  refine always_bind (always_attempt ?_) fun result s' hrun => ?_
  · refine ((inspects_verify_current .Full).always [CURRENT_DIRECTORY] (root entries)).mono ?_
    rintro op torn result s' ⟨hinspects, rfl, rfl, hresult⟩
    cases result with
    | none => exact hdie op hinspects
    | some result =>
      cases result with
      | error e => exact hfail op hinspects
      | ok a => exact absurd rfl (hresult a)
  · rw [run_attempt] at hrun
    by_cases hverified : verified host manifest runtime (entries.lookup CURRENT_DIRECTORY)
    · rw [hverified.run] at hrun
      cases hrun
      exact always_done
    · obtain ⟨e, he⟩ := run_verify_error hverified
      rw [he] at hrun
      cases hrun
      exact hinstall hverified

end Inferences.Artifacts
