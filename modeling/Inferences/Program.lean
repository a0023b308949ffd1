import Mathlib

/-!
# Programs that fail and die

A program calls operations of the world one after the other; each answers, and
changes the state of the world. Left alone, a program runs to its end
(`Program.run`). An operation can also fail, in the way of that operation and
having done a part of its work (`Machine.torn`), and then the program goes on
with the failure; or the program can die there. `Interrupted` is a run that one
such event befalls. `Erring n` is a run in which at most `n` operations answer
with an error, be it a failure or an error that the state accounts for.

The rules follow the structure of programs: one for a sequence, and one for
what all operations of a program leave alone (`Program.Calls`).
-/

namespace Inferences

/-- A program over operations `Op`, where `op` answers with a `Res op`. It ends
    with a result, or with an error of type `ε`. -/
inductive Program {Op : Type} (Res : Op → Type) (ε α : Type) : Type
  | done (result : Except ε α)
  | call (op : Op) (next : Res op → Program Res ε α)

/-- A world: what an operation does, what it answers when it fails, and how far
    it may have got by then. -/
structure Machine {Op : Type} (Res : Op → Type) (σ : Type) where
  exec (op : Op) (s : σ) : Res op × σ
  failed (op : Op) : Res op
  torn (op : Op) (s s' : σ) : Prop

namespace Program

variable {Op : Type} {Res : Op → Type} {ε ε' α β σ : Type}

/-- One program after the other; an error ends both. -/
def bind : Program Res ε α → (α → Program Res ε β) → Program Res ε β
  | done (.ok a), f => f a
  | done (.error e), _ => done (.error e)
  | call op next, f => call op fun r => (next r).bind f

/-- A program whose errors are results. -/
def attempt : Program Res ε α → Program Res ε' (Except ε α)
  | done result => done (.ok result)
  | call op next => call op fun r => (next r).attempt

/-- `map_err`. -/
def map_err (f : ε → ε') : Program Res ε α → Program Res ε' α
  | done (.ok a) => done (.ok a)
  | done (.error e) => done (.error (f e))
  | call op next => call op fun r => (next r).map_err f

instance : Monad (Program Res ε) where
  pure a := done (.ok a)
  bind := bind

instance : MonadExceptOf ε (Program Res ε) where
  throw e := done (.error e)
  tryCatch p handle := p.attempt.bind fun
    | .ok a => done (.ok a)
    | .error e => handle e

@[simp] theorem done_ok_bind (a : α) (f : α → Program Res ε β) :
    (done (.ok a) : Program Res ε α) >>= f = f a := rfl

@[simp] theorem pure_bind' (a : α) (f : α → Program Res ε β) :
    (pure a : Program Res ε α) >>= f = f a := rfl

@[simp] theorem done_error_bind (e : ε) (f : α → Program Res ε β) :
    (done (.error e) : Program Res ε α) >>= f = done (.error e) := rfl

@[simp] theorem call_bind (op : Op) (next : Res op → Program Res ε α) (f : α → Program Res ε β) :
    call op next >>= f = call op fun r => next r >>= f := rfl

/-- Sequences associate. -/
theorem bind_assoc' {γ : Type} (p : Program Res ε α) (f : α → Program Res ε β)
    (g : β → Program Res ε γ) : p >>= f >>= g = p >>= fun a => f a >>= g := by
  induction p with
  | done result => cases result <;> rfl
  | call op next ih => exact congrArg (call op) (funext ih)

/-! ## Runs -/

section

variable (M : Machine Res σ)

/-- A run that nothing befalls. -/
def run : Program Res ε α → σ → Except ε α × σ
  | done result, s => (result, s)
  | call op next, s => (next (M.exec op s).1).run (M.exec op s).2

@[simp] theorem run_done (result : Except ε α) (s : σ) :
    run M (done result) s = (result, s) := rfl

@[simp] theorem run_call (op : Op) (next : Res op → Program Res ε α) (s : σ) :
    run M (call op next) s = run M (next (M.exec op s).1) (M.exec op s).2 := rfl

/-- A sequence runs its parts one after the other. -/
theorem run_bind (p : Program Res ε α) (f : α → Program Res ε β) (s : σ) :
    run M (p >>= f) s = match run M p s with
      | (.ok a, s') => run M (f a) s'
      | (.error e, s') => (.error e, s') := by
  induction p generalizing s with
  | done result => cases result <;> rfl
  | call op next ih => exact ih ..

/-- What follows a part that succeeds runs from where that part ended. -/
theorem run_bind_ok {p : Program Res ε α} {a : α} {s s' : σ} (h : run M p s = (.ok a, s'))
    (f : α → Program Res ε β) : run M (p >>= f) s = run M (f a) s' := by
  rw [run_bind, h]

/-- What follows a part that fails does not run. -/
theorem run_bind_error {p : Program Res ε α} {e : ε} {s s' : σ} (h : run M p s = (.error e, s'))
    (f : α → Program Res ε β) : run M (p >>= f) s = (.error e, s') := by
  rw [run_bind, h]

/-- What follows counts only where the first part succeeds. -/
theorem run_bind_congr {p : Program Res ε α} {f g : α → Program Res ε β} {s : σ}
    (h : ∀ a s', run M p s = (.ok a, s') → run M (f a) s' = run M (g a) s') :
    run M (p >>= f) s = run M (p >>= g) s := by
  rw [run_bind, run_bind]
  rcases hp : run M p s with ⟨e | a, s'⟩
  · rfl
  · exact h a s' hp

/-- A sequence that succeeds has succeeded at every step. -/
theorem run_bind_eq_ok {p : Program Res ε α} {f : α → Program Res ε β} {b : β} {s s' : σ} :
    run M (p >>= f) s = (.ok b, s') ↔
      ∃ a s₁, run M p s = (.ok a, s₁) ∧ run M (f a) s₁ = (.ok b, s') := by
  rw [run_bind]
  constructor
  · intro h
    split at h
    · exact ⟨_, _, ‹_›, h⟩
    · cases h
  · rintro ⟨a, s₁, hp, hf⟩
    rw [hp]
    exact hf

/-- An attempt succeeds, with the result of what is attempted. -/
theorem run_attempt (p : Program Res ε α) (s : σ) :
    run M (attempt p : Program Res ε' _) s = (.ok (run M p s).1, (run M p s).2) := by
  induction p generalizing s with
  | done result => rfl
  | call op next ih => exact ih ..

theorem run_map_err (f : ε → ε') (p : Program Res ε α) (s : σ) :
    run M (p.map_err f) s = ((run M p s).1.mapError f, (run M p s).2) := by
  induction p generalizing s with
  | done result => cases result <;> rfl
  | call op next ih => exact ih ..

/-- A run in which the operation `op` fails or the program dies, when the state
    of the world is `torn`: what the program returns, unless it dies, and the
    state it leaves. -/
inductive Interrupted : Program Res ε α → σ → Op → σ → Option (Except ε α) → σ → Prop
  | die {op : Op} {next : Res op → Program Res ε α} {s torn : σ} (h : M.torn op s torn) :
      Interrupted (call op next) s op torn none torn
  | fail {op : Op} {next : Res op → Program Res ε α} {s torn : σ} (h : M.torn op s torn) :
      Interrupted (call op next) s op torn (some (run M (next (M.failed op)) torn).1)
        (run M (next (M.failed op)) torn).2
  | later {op op' : Op} {next : Res op → Program Res ε α} {s torn s' : σ}
      {result : Option (Except ε α)}
      (h : Interrupted (next (M.exec op s).1) (M.exec op s).2 op' torn result s') :
      Interrupted (call op next) s op' torn result s'

/-- The operation that the program calls after `n` others that nothing befalls,
    and the state of the world by then. -/
def reach : Nat → Program Res ε α → σ → Option (Op × σ)
  | _, done _, _ => none
  | 0, call op _, s => some (op, s)
  | n + 1, call op next, s => reach n (next (M.exec op s).1) (M.exec op s).2

/-- A program can die wherever its run comes to. -/
theorem Interrupted.of_reach {n : Nat} {p : Program Res ε α} {s s' : σ} {op : Op}
    (h : reach M n p s = some (op, s')) (htorn : M.torn op s' s') :
    Interrupted M p s op s' none s' := by
  induction n generalizing p s with
  | zero =>
    cases p with
    | done result => cases h
    | call op' next =>
      cases h
      exact .die htorn
  | succ n ih =>
    cases p with
    | done result => cases h
    | call op' next => exact .later (ih h)

/-- A run in which at most `n` operations answer with an error, as `error` tells. -/
inductive Erring (error : (op : Op) → Res op → Prop) :
    Nat → Program Res ε α → σ → Except ε α → σ → Prop
  | done {n : Nat} (result : Except ε α) (s : σ) : Erring error n (done result) s result s
  | step {n : Nat} {op : Op} {next : Res op → Program Res ε α} {s s' : σ} {result : Except ε α}
      (hfine : ¬ error op (M.exec op s).1)
      (h : Erring error n (next (M.exec op s).1) (M.exec op s).2 result s') :
      Erring error n (call op next) s result s'
  | natural {n : Nat} {op : Op} {next : Res op → Program Res ε α} {s s' : σ}
      {result : Except ε α}
      (h : Erring error n (next (M.exec op s).1) (M.exec op s).2 result s') :
      Erring error (n + 1) (call op next) s result s'
  | fail {n : Nat} {op : Op} {next : Res op → Program Res ε α} {s torn s' : σ}
      {result : Except ε α} (htorn : M.torn op s torn)
      (h : Erring error n (next (M.failed op)) torn result s') :
      Erring error (n + 1) (call op next) s result s'

/-- A run in which any operations fail, where `fault` allows it, and the program
    may die at any of them. -/
inductive Faulty (fault : Op → σ → Prop) :
    Program Res ε α → σ → Option (Except ε α) → σ → Prop
  | done (result : Except ε α) (s : σ) : Faulty fault (done result) s (some result) s
  | die {op : Op} {next : Res op → Program Res ε α} {s torn : σ} (h : M.torn op s torn) :
      Faulty fault (call op next) s none torn
  | step {op : Op} {next : Res op → Program Res ε α} {s s' : σ} {result : Option (Except ε α)}
      (h : Faulty fault (next (M.exec op s).1) (M.exec op s).2 result s') :
      Faulty fault (call op next) s result s'
  | fail {op : Op} {next : Res op → Program Res ε α} {s torn s' : σ}
      {result : Option (Except ε α)} (hfault : fault op s) (htorn : M.torn op s torn)
      (h : Faulty fault (next (M.failed op)) torn result s') :
      Faulty fault (call op next) s result s'

/-- A run in which the operation called after `n` others fails, and changes
    nothing. -/
def falter : Nat → Program Res ε α → σ → Except ε α × σ
  | _, done result, s => (result, s)
  | 0, call op next, s => run M (next (M.failed op)) s
  | n + 1, call op next, s => falter n (next (M.exec op s).1) (M.exec op s).2

/-- The operations that a run calls, in order. -/
def trace : Program Res ε α → σ → List Op
  | done _, _ => []
  | call op next, s => op :: trace (next (M.exec op s).1) (M.exec op s).2

/-- How many operations answer with an error in a run. -/
def errors (error : (op : Op) → Res op → Prop) [∀ op r, Decidable (error op r)] :
    Program Res ε α → σ → Nat
  | done _, _ => 0
  | call op next, s =>
    errors error (next (M.exec op s).1) (M.exec op s).2 + if error op (M.exec op s).1 then 1 else 0

/-- As many, when one more operation fails. -/
def falter_errors (error : (op : Op) → Res op → Prop) [∀ op r, Decidable (error op r)] :
    Nat → Program Res ε α → σ → Nat
  | _, done _, _ => 0
  | 0, call op next, s => errors M error (next (M.failed op)) s + 1
  | n + 1, call op next, s =>
    falter_errors error n (next (M.exec op s).1) (M.exec op s).2 +
      if error op (M.exec op s).1 then 1 else 0

/-- Whatever befalls a run of a program, `Q` holds of it. -/
def Always (p : Program Res ε α) (s : σ) (Q : Op → σ → Option (Except ε α) → σ → Prop) : Prop :=
  ∀ op torn result s', Interrupted M p s op torn result s' → Q op torn result s'

/-- `Q` holds of a run of a sequence that is interrupted in its first program,
    as what follows runs to its end. -/
def Then (f : α → Program Res ε β) (Q : Op → σ → Option (Except ε β) → σ → Prop)
    (op : Op) (torn : σ) (result : Option (Except ε α)) (s' : σ) : Prop :=
  match result with
  | none => Q op torn none s'
  | some (.error e) => Q op torn (some (.error e)) s'
  | some (.ok a) => Q op torn (some (run M (f a) s').1) (run M (f a) s').2

/-! ## Rules -/

variable {M} {p : Program Res ε α} {f : α → Program Res ε β} {s : σ}

/-- Nothing can befall a program that is over. -/
theorem always_done {result : Except ε α} {Q : Op → σ → Option (Except ε α) → σ → Prop} :
    Always M (done result) s Q := by
  intro op torn result' s' h
  cases h

/-- What befalls a call: the program dies there, the call fails, or it is later. -/
theorem always_call {op : Op} {next : Res op → Program Res ε α}
    {Q : Op → σ → Option (Except ε α) → σ → Prop}
    (hdie : ∀ torn, M.torn op s torn → Q op torn none torn)
    (hfail : ∀ torn, M.torn op s torn →
      Q op torn (some (run M (next (M.failed op)) torn).1) (run M (next (M.failed op)) torn).2)
    (hlater : Always M (next (M.exec op s).1) (M.exec op s).2 Q) :
    Always M (call op next) s Q := by
  intro op' torn result s' h
  cases h with
  | die h => exact hdie torn h
  | fail h => exact hfail torn h
  | later h => exact hlater _ _ _ _ h

/-- What is weaker holds too. -/
theorem Always.mono {Q Q' : Op → σ → Option (Except ε α) → σ → Prop} (h : Always M p s Q)
    (hQ : ∀ op torn result s', Q op torn result s' → Q' op torn result s') : Always M p s Q' :=
  fun op torn result s' hi => hQ op torn result s' (h op torn result s' hi)

/-- The rule of sequences: a run of one is interrupted in its first program, or
    that succeeds and the run is interrupted in what follows. -/
theorem always_bind {Q : Op → σ → Option (Except ε β) → σ → Prop}
    (hfirst : Always M p s (Then M f Q))
    (hsecond : ∀ a s', run M p s = (.ok a, s') → Always M (f a) s' Q) :
    Always M (p >>= f) s Q := by
  induction p generalizing s with
  | done result =>
    cases result with
    | ok a => exact hsecond a s rfl
    | error e => exact always_done
  | call op next ih =>
    refine always_call (fun torn h => hfirst op torn _ _ (.die h)) (fun torn h => ?_) ?_
    · have hthen := hfirst op torn _ _ (.fail h)
      change Q op torn (some (run M (next (M.failed op) >>= f) torn).1)
        (run M (next (M.failed op) >>= f) torn).2
      rw [run_bind]
      generalize run M (next (M.failed op)) torn = out at hthen
      obtain ⟨result, s'⟩ := out
      cases result <;> exact hthen
    · exact ih _ (fun op' torn result s' h => hfirst op' torn result s' (.later h))
        fun a s' h => hsecond a s' h

theorem always_map_err {ε' : Type} {g : ε → ε'} {Q : Op → σ → Option (Except ε' α) → σ → Prop}
    (h : Always M p s fun op torn result s' => Q op torn (result.map (·.mapError g)) s') :
    Always M (p.map_err g) s Q := by
  induction p generalizing s with
  | done result => cases result <;> exact always_done
  | call op next ih =>
    refine always_call (fun torn ht => h op torn _ _ (.die ht)) (fun torn ht => ?_) ?_
    · rw [run_map_err]
      exact h op torn _ _ (.fail ht)
    · exact ih _ fun op' torn result s' hl => h op' torn result s' (.later hl)

theorem always_attempt {ε' : Type} {Q : Op → σ → Option (Except ε' (Except ε α)) → σ → Prop}
    (h : Always M p s fun op torn result s' => Q op torn (result.map .ok) s') :
    Always M (attempt p) s Q := by
  induction p generalizing s with
  | done result => exact always_done
  | call op next ih =>
    refine always_call (fun torn ht => h op torn _ _ (.die ht)) (fun torn ht => ?_) ?_
    · rw [run_attempt]
      exact h op torn _ _ (.fail ht)
    · exact ih _ fun op' torn result s' hl => h op' torn result s' (.later hl)

variable {fault : Op → σ → Prop}

/-- A faulty run of a sequence ends in its first program, or goes on after it. -/
theorem Faulty.of_bind {result : Option (Except ε β)} {s' : σ}
    (h : Faulty M fault (p >>= f) s result s') :
    (result = none ∧ Faulty M fault p s none s') ∨
      (∃ e, result = some (.error e) ∧ Faulty M fault p s (some (.error e)) s') ∨
      ∃ a s₁, Faulty M fault p s (some (.ok a)) s₁ ∧ Faulty M fault (f a) s₁ result s' := by
  induction p generalizing s with
  | done r =>
    cases r with
    | error e =>
      cases h
      exact .inr (.inl ⟨e, rfl, .done _ _⟩)
    | ok a => exact .inr (.inr ⟨a, s, .done _ _, h⟩)
  | call op next ih =>
    cases h with
    | die htorn => exact .inl ⟨rfl, .die htorn⟩
    | step h =>
      rcases ih _ h with ⟨hnone, hp⟩ | ⟨e, he, hp⟩ | ⟨a, s₁, hp, hf⟩
      · exact .inl ⟨hnone, .step hp⟩
      · exact .inr (.inl ⟨e, he, .step hp⟩)
      · exact .inr (.inr ⟨a, s₁, .step hp, hf⟩)
    | fail hfault htorn h =>
      rcases ih _ h with ⟨hnone, hp⟩ | ⟨e, he, hp⟩ | ⟨a, s₁, hp, hf⟩
      · exact .inl ⟨hnone, .fail hfault htorn hp⟩
      · exact .inr (.inl ⟨e, he, .fail hfault htorn hp⟩)
      · exact .inr (.inr ⟨a, s₁, .fail hfault htorn hp, hf⟩)

/-- A fault in an attempt is one in what is attempted. -/
theorem Faulty.of_attempt {ε' : Type} {result : Option (Except ε' (Except ε α))} {s' : σ}
    (h : Faulty M fault (attempt p) s result s') :
    (result = none ∧ Faulty M fault p s none s') ∨
      ∃ r, result = some (.ok r) ∧ Faulty M fault p s (some r) s' := by
  induction p generalizing s with
  | done r =>
    cases h
    exact .inr ⟨r, rfl, .done _ _⟩
  | call op next ih =>
    cases h with
    | die htorn => exact .inl ⟨rfl, .die htorn⟩
    | step h =>
      rcases ih _ h with ⟨hnone, hp⟩ | ⟨r, hr, hp⟩
      · exact .inl ⟨hnone, .step hp⟩
      · exact .inr ⟨r, hr, .step hp⟩
    | fail hfault htorn h =>
      rcases ih _ h with ⟨hnone, hp⟩ | ⟨r, hr, hp⟩
      · exact .inl ⟨hnone, .fail hfault htorn hp⟩
      · exact .inr ⟨r, hr, .fail hfault htorn hp⟩

theorem Faulty.of_map_err {ε' : Type} {g : ε → ε'} {result : Option (Except ε' α)} {s' : σ}
    (h : Faulty M fault (p.map_err g) s result s') :
    ∃ r, result = r.map (·.mapError g) ∧ Faulty M fault p s r s' := by
  induction p generalizing s with
  | done r =>
    cases r <;> cases h <;> exact ⟨_, rfl, .done _ _⟩
  | call op next ih =>
    cases h with
    | die htorn => exact ⟨none, rfl, .die htorn⟩
    | step h =>
      obtain ⟨r, hr, hp⟩ := ih _ h
      exact ⟨r, hr, .step hp⟩
    | fail hfault htorn h =>
      obtain ⟨r, hr, hp⟩ := ih _ h
      exact ⟨r, hr, .fail hfault htorn hp⟩

/-- A run with faults, when more of them are allowed. -/
theorem Faulty.mono {fault' : Op → σ → Prop} {result : Option (Except ε α)} {s' : σ}
    (h : Faulty M fault p s result s') (hfault : ∀ op s, fault op s → fault' op s) :
    Faulty M fault' p s result s' := by
  induction h with
  | done result s => exact .done result s
  | die htorn => exact .die htorn
  | step h ih => exact .step ih
  | fail hf htorn h ih => exact .fail (hfault _ _ hf) htorn ih

/-- Nothing need befall a faulty run. -/
theorem Faulty.of_run (p : Program Res ε α) (s : σ) :
    Faulty M fault p s (some (run M p s).1) (run M p s).2 := by
  induction p generalizing s with
  | done result => exact .done result s
  | call op next ih => exact .step (ih _ _)

/-- A run that falters is one with faults. -/
theorem Faulty.of_falter (hfault : ∀ op s, fault op s) (htorn : ∀ op s, M.torn op s s) (n : Nat)
    (p : Program Res ε α) (s : σ) :
    Faulty M fault p s (some (falter M n p s).1) (falter M n p s).2 := by
  induction n generalizing p s with
  | zero =>
    cases p with
    | done result => exact .done result s
    | call op next => exact .fail (hfault op s) (htorn op s) (.of_run ..)
  | succ n ih =>
    cases p with
    | done result => exact .done result s
    | call op next => exact .step (ih ..)

/-- An interrupted run is a faulty one. -/
theorem Interrupted.faulty {op : Op} {torn s' : σ} {result : Option (Except ε α)}
    (h : Interrupted M p s op torn result s') (hfault : ∀ op s, fault op s) :
    Faulty M fault p s result s' := by
  induction h with
  | die htorn => exact .die htorn
  | fail htorn => exact .fail (hfault _ _) htorn (.of_run ..)
  | later _ ih => exact .step ih

/-- It could have died at its interruption. -/
theorem Interrupted.died {op : Op} {torn s' : σ} {result : Option (Except ε α)}
    (h : Interrupted M p s op torn result s') : Faulty M fault p s none torn := by
  induction h with
  | die htorn => exact .die htorn
  | fail htorn => exact .die htorn
  | later _ ih => exact .step ih

variable {error : (op : Op) → Res op → Prop} {n : Nat}

/-- An operation that runs as it should, whether it answers with an error or not. -/
theorem Erring.exec [∀ op r, Decidable (error op r)] {op : Op} {next : Res op → Program Res ε α}
    {s' : σ} {result : Except ε α}
    (h : Erring M error n (next (M.exec op s).1) (M.exec op s).2 result s') :
    Erring M error (n + if error op (M.exec op s).1 then 1 else 0) (call op next) s result s' := by
  split
  · exact .natural h
  · rename_i hfine
    exact .step hfine h

/-- The errors that the run left alone counts. -/
theorem Erring.of_run [∀ op r, Decidable (error op r)] (p : Program Res ε α) (s : σ) :
    Erring M error (errors M error p s) p s (run M p s).1 (run M p s).2 := by
  induction p generalizing s with
  | done result => exact .done result s
  | call op next ih => exact .exec (ih _ _)

/-- Those that a run that falters counts. -/
theorem Erring.of_falter [∀ op r, Decidable (error op r)] (htorn : ∀ op s, M.torn op s s)
    (k : Nat) (p : Program Res ε α) (s : σ) :
    Erring M error (falter_errors M error k p s) p s (falter M k p s).1 (falter M k p s).2 := by
  induction k generalizing p s with
  | zero =>
    cases p with
    | done result => exact .done result s
    | call op next => exact .fail (htorn op s) (.of_run _ _)
  | succ k ih =>
    cases p with
    | done result => exact .done result s
    | call op next => exact .exec (ih _ _)

/-- A sequence shares its errors between its programs. -/
theorem Erring.of_bind {result : Except ε β} {s' : σ} (h : Erring M error n (p >>= f) s result s') :
    (∃ e, result = .error e ∧ Erring M error n p s (.error e) s') ∨
      ∃ a s₁ m k, m + k = n ∧ Erring M error m p s (.ok a) s₁ ∧
        Erring M error k (f a) s₁ result s' := by
  induction p generalizing s n with
  | done r =>
    cases r with
    | error e =>
      cases h
      exact .inl ⟨e, rfl, .done _ _⟩
    | ok a => exact .inr ⟨a, s, 0, n, Nat.zero_add n, .done _ _, h⟩
  | call op next ih =>
    cases h with
    | step hfine h =>
      rcases ih _ h with ⟨e, rfl, hp⟩ | ⟨a, s₁, m, k, hmk, h₁, h₂⟩
      · exact .inl ⟨e, rfl, .step hfine hp⟩
      · exact .inr ⟨a, s₁, m, k, hmk, .step hfine h₁, h₂⟩
    | natural h =>
      rcases ih _ h with ⟨e, rfl, hp⟩ | ⟨a, s₁, m, k, rfl, h₁, h₂⟩
      · exact .inl ⟨e, rfl, .natural hp⟩
      · exact .inr ⟨a, s₁, m + 1, k, by omega, .natural h₁, h₂⟩
    | fail htorn h =>
      rcases ih _ h with ⟨e, rfl, hp⟩ | ⟨a, s₁, m, k, rfl, h₁, h₂⟩
      · exact .inl ⟨e, rfl, .fail htorn hp⟩
      · exact .inr ⟨a, s₁, m + 1, k, by omega, .fail htorn h₁, h₂⟩

theorem Erring.of_attempt {ε' : Type} {result : Except ε' (Except ε α)} {s' : σ}
    (h : Erring M error n (attempt p) s result s') :
    ∃ r, result = .ok r ∧ Erring M error n p s r s' := by
  induction p generalizing s n with
  | done r =>
    cases h
    exact ⟨r, rfl, .done _ _⟩
  | call op next ih =>
    cases h with
    | step hfine h =>
      obtain ⟨r, rfl, hp⟩ := ih _ h
      exact ⟨r, rfl, .step hfine hp⟩
    | natural h =>
      obtain ⟨r, rfl, hp⟩ := ih _ h
      exact ⟨r, rfl, .natural hp⟩
    | fail htorn h =>
      obtain ⟨r, rfl, hp⟩ := ih _ h
      exact ⟨r, rfl, .fail htorn hp⟩

/-- The errors of a run are faults, of which there are none when no error is left. -/
theorem Erring.faulty {result : Except ε α} {s' : σ} (h : Erring M error n p s result s') :
    Faulty M (fun _ _ => 0 < n) p s (some result) s' := by
  induction h with
  | done result s => exact .done result s
  | step hfine h ih => exact .step ih
  | natural h ih => exact .step (ih.mono fun _ _ _ => Nat.succ_pos _)
  | fail htorn h ih => exact .fail (Nat.succ_pos _) htorn (ih.mono fun _ _ _ => Nat.succ_pos _)

/-! ## Whatever fails -/

/-- Whatever operations fail, `I` holds where the program may die, and `Q` of
    what it returns and the state it leaves. -/
def Withstands (M : Machine Res σ) (p : Program Res ε α) (s : σ) (I : σ → Prop)
    (Q : Except ε α → σ → Prop) : Prop :=
  ∀ result s', Faulty M (fun _ _ => True) p s result s' →
    match result with
    | none => I s'
    | some result => Q result s'

section

variable {I : σ → Prop}

/-- A program that is over withstands anything. -/
theorem withstands_done {Q : Except ε α → σ → Prop} {result : Except ε α} (h : Q result s) :
    Withstands M (done result) s I Q := by
  intro result' s' hfaulty
  cases hfaulty
  exact h

/-- A call: the invariant holds if the program dies there, and what follows
    withstands whether it fails or not. -/
theorem withstands_call {Q : Except ε α → σ → Prop} {op : Op} {next : Res op → Program Res ε α}
    (hdie : ∀ torn, M.torn op s torn → I torn)
    (hexec : Withstands M (next (M.exec op s).1) (M.exec op s).2 I Q)
    (hfail : ∀ torn, M.torn op s torn → Withstands M (next (M.failed op)) torn I Q) :
    Withstands M (call op next) s I Q := by
  intro result s' hfaulty
  cases hfaulty with
  | die htorn => exact hdie _ htorn
  | step h => exact hexec _ _ h
  | fail _ htorn h => exact hfail _ htorn _ _ h

theorem Withstands.mono {Q Q' : Except ε α → σ → Prop} (h : Withstands M p s I Q)
    (hQ : ∀ result s', Q result s' → Q' result s') : Withstands M p s I Q' := by
  intro result s' hfaulty
  cases result with
  | none => exact h none s' hfaulty
  | some result => exact hQ _ _ (h (some result) s' hfaulty)

/-- A sequence withstands when its parts do, one from what the other ends with. -/
theorem withstands_bind {Q : Except ε α → σ → Prop} {R : Except ε β → σ → Prop}
    (hp : Withstands M p s I Q) (herror : ∀ e s', Q (.error e) s' → R (.error e) s')
    (hok : ∀ a s', Q (.ok a) s' → Withstands M (f a) s' I R) :
    Withstands M (p >>= f) s I R := by
  intro result s' hfaulty
  rcases hfaulty.of_bind with ⟨rfl, h⟩ | ⟨e, rfl, h⟩ | ⟨a, s₁, h, hrest⟩
  · exact hp _ _ h
  · exact herror e s' (hp _ _ h)
  · exact hok a s₁ (hp _ _ h) _ _ hrest

/-- The program returns no error, and `Q` of what it returns. -/
def Answers (Q : α → σ → Prop) (result : Except ε α) (s : σ) : Prop := ∃ a, result = .ok a ∧ Q a s

theorem withstands_pure {Q : α → σ → Prop} {a : α} (h : Q a s) :
    Withstands M (pure a : Program Res ε α) s I (Answers Q) :=
  withstands_done ⟨a, rfl, h⟩

/-- The same for a first part that answers. -/
theorem withstands_bind_answers {Q : α → σ → Prop} {R : Except ε β → σ → Prop}
    (hp : Withstands M p s I (Answers Q)) (hf : ∀ a s', Q a s' → Withstands M (f a) s' I R) :
    Withstands M (p >>= f) s I R := by
  refine withstands_bind hp ?_ ?_
  · rintro e s' ⟨a, he, -⟩
    cases he
  · rintro a s' ⟨a', ha, hq⟩
    cases ha
    exact hf a s' hq

theorem withstands_attempt {ε' : Type} {Q : Except ε' (Except ε α) → σ → Prop}
    (h : Withstands M p s I fun result => Q (.ok result)) :
    Withstands M (attempt p) s I Q := by
  intro result s' hfaulty
  rcases hfaulty.of_attempt with ⟨rfl, hp⟩ | ⟨r, rfl, hp⟩
  · exact h _ _ hp
  · exact h _ _ hp

end

/-! ## What a program leaves alone -/

/-- Whatever they answer, the operations a program calls all satisfy `P`. -/
def Calls (P : Op → Prop) : Program Res ε α → Prop
  | done _ => True
  | call op next => P op ∧ ∀ r, (next r).Calls P

variable {P : Op → Prop}

/-- A sequence calls what its parts call. -/
theorem Calls.bind (hp : p.Calls P) (hf : ∀ a, (f a).Calls P) : (p >>= f).Calls P := by
  induction p with
  | done result =>
    cases result with
    | ok a => exact hf a
    | error e => trivial
  | call op next ih => exact ⟨hp.1, fun r => ih r (hp.2 r)⟩

/-- Whatever the operations answer, what the program returns satisfies `Q`. -/
def Yields (Q : α → Prop) : Program Res ε α → Prop
  | done (.ok a) => Q a
  | done (.error _) => True
  | call _ next => ∀ r, (next r).Yields Q

/-- What a sequence yields is yielded by its last part. -/
theorem Yields.bind {Q : α → Prop} {R : β → Prop} (hp : p.Yields Q)
    (hf : ∀ a, Q a → (f a).Yields R) : (p >>= f).Yields R := by
  induction p with
  | done result =>
    cases result with
    | ok a => exact hf a hp
    | error e => trivial
  | call op next ih => exact fun r => ih r (hp r)

/-- The second part counts for what the first one yields. -/
theorem Calls.bind_of_yields {Q : α → Prop} (hp : p.Calls P) (hq : p.Yields Q)
    (hf : ∀ a, Q a → (f a).Calls P) : (p >>= f).Calls P := by
  induction p with
  | done result =>
    cases result with
    | ok a => exact hf a hq
    | error e => trivial
  | call op next ih => exact ⟨hp.1, fun r => ih r (hp.2 r) (hq r)⟩

theorem yields_true (p : Program Res ε α) : p.Yields fun _ => True := by
  induction p with
  | done result => cases result <;> trivial
  | call op next ih => exact ih

/-- The calls are among any larger set. -/
theorem Calls.mono {P' : Op → Prop} (h : p.Calls P) (hP : ∀ op, P op → P' op) : p.Calls P' := by
  induction p with
  | done result => trivial
  | call op next ih => exact ⟨hP op h.1, fun r => ih r (h.2 r)⟩

theorem Calls.forM {γ : Type} {f : γ → Program Res ε PUnit} {items : List γ}
    (h : ∀ item ∈ items, (f item).Calls P) : (items.forM f).Calls P := by
  induction items with
  | nil => trivial
  | cons item items ih =>
    exact Calls.bind (h item (.head _)) fun _ => ih fun item hitem => h item (.tail _ hitem)

/-- A run calls what its program may call. -/
theorem Calls.trace (h : p.Calls P) (s : σ) : ∀ op ∈ trace M p s, P op := by
  induction p generalizing s with
  | done result => exact fun _ h => absurd h List.not_mem_nil
  | call op next ih => exact List.forall_mem_cons.2 ⟨h.1, ih _ (h.2 _) _⟩

/-- The calls of a sequence are those of its parts. -/
theorem trace_bind_ok {a : α} {s' : σ} (h : run M p s = (.ok a, s')) :
    trace M (p >>= f) s = trace M p s ++ trace M (f a) s' := by
  induction p generalizing s with
  | done result =>
    cases h
    rfl
  | call op next ih => exact congrArg (op :: ·) (ih _ h)

theorem Calls.attempt {ε' : Type} (h : p.Calls P) :
    (p.attempt : Program Res ε' (Except ε α)).Calls P := by
  induction p with
  | done result => trivial
  | call op next ih => exact ⟨h.1, fun r => ih r (h.2 r)⟩

theorem Calls.map_err {ε' : Type} {g : ε → ε'} (h : p.Calls P) : (p.map_err g).Calls P := by
  induction p with
  | done result => cases result <;> trivial
  | call op next ih => exact ⟨h.1, fun r => ih r (h.2 r)⟩

variable {I : σ → Prop}

/-- What the operations of a program preserve, the program preserves. -/
theorem Calls.run_invariant (hexec : ∀ op s, P op → I s → I (M.exec op s).2) (hp : p.Calls P)
    (hs : I s) : I (run M p s).2 := by
  induction p generalizing s with
  | done result => exact hs
  | call op next ih => exact ih _ (hp.2 _) (hexec op s hp.1 hs)

/-- It also preserves it when it is interrupted. -/
theorem Calls.always_invariant (hexec : ∀ op s, P op → I s → I (M.exec op s).2)
    (htorn : ∀ op s torn, P op → M.torn op s torn → I s → I torn) (hp : p.Calls P) (hs : I s) :
    Always M p s fun op torn _ s' => P op ∧ I torn ∧ I s' := by
  induction p generalizing s with
  | done result => exact always_done
  | call op next ih =>
    refine always_call (fun torn h => ?_) (fun torn h => ?_) ?_
    · have ht := htorn op s torn hp.1 h hs
      exact ⟨hp.1, ht, ht⟩
    · have ht := htorn op s torn hp.1 h hs
      exact ⟨hp.1, ht, Calls.run_invariant hexec (hp.2 _) ht⟩
    · exact ih _ (hp.2 _) (hexec op s hp.1 hs)

/-- What all calls keep, faults included, the run keeps. -/
theorem Faulty.invariant {fault : Op → σ → Prop}
    (hexec : ∀ op s, P op → I s → I (M.exec op s).2)
    (htorn : ∀ op s torn, P op → M.torn op s torn → I s → I torn) (hp : p.Calls P) (hs : I s)
    {result : Option (Except ε α)} {s' : σ} (h : Faulty M fault p s result s') : I s' := by
  induction p generalizing s with
  | done r =>
    cases h
    exact hs
  | call op next ih =>
    cases h with
    | die ht => exact htorn op s _ hp.1 ht hs
    | step h => exact ih _ (hp.2 _) (hexec op s hp.1 hs) h
    | fail hfault ht h => exact ih _ (hp.2 _) (htorn op s _ hp.1 ht hs) h

/-! ## Programs that only look -/

/-- The program calls operations that satisfy `P`, and gives up on the first
    that fails. -/
def Strict (M : Machine Res σ) (P : Op → Prop) : Program Res ε α → Prop
  | done _ => True
  | call op next =>
    P op ∧ (∃ e, next (M.failed op) = done (.error e)) ∧ ∀ r, (next r).Strict M P

/-- A sequence of strict programs is strict. -/
theorem Strict.bind (hp : p.Strict M P) (hf : ∀ a, (f a).Strict M P) : (p >>= f).Strict M P := by
  induction p with
  | done result =>
    cases result with
    | ok a => exact hf a
    | error e => trivial
  | call op next ih =>
    obtain ⟨hop, ⟨e, he⟩, hnext⟩ := hp
    exact ⟨hop, ⟨e, by simp only [he]; rfl⟩, fun r => ih r (hnext r)⟩

theorem Strict.map_err {ε' : Type} {g : ε → ε'} (h : p.Strict M P) : (p.map_err g).Strict M P := by
  induction p with
  | done result => cases result <;> trivial
  | call op next ih =>
    obtain ⟨hop, ⟨e, he⟩, hnext⟩ := h
    exact ⟨hop, ⟨g e, by simp only [he]; rfl⟩, fun r => ih r (hnext r)⟩

/-- A loop of strict programs is strict. -/
theorem Strict.forM {f : α → Program Res ε PUnit} (h : ∀ a, (f a).Strict M P) (as : List α) :
    (as.forM f).Strict M P := by
  induction as with
  | nil => trivial
  | cons a as ih => exact (h a).bind fun _ => ih

theorem Strict.foldlM {f : β → α → Program Res ε β} (h : ∀ b a, (f b a).Strict M P) (b : β)
    (as : List α) : (as.foldlM f b).Strict M P := by
  induction as generalizing b with
  | nil => trivial
  | cons a as ih => exact (h b a).bind fun b => ih b

theorem Strict.calls (h : p.Strict M P) : p.Calls P := by
  induction p with
  | done result => trivial
  | call op next ih => exact ⟨h.1, fun r => ih r (h.2.2 r)⟩

/-- Nothing is lost when a program that only looks is interrupted, and it says
    so unless it dies. -/
theorem Strict.always (hexec : ∀ op s, P op → (M.exec op s).2 = s)
    (htorn : ∀ op s torn, P op → M.torn op s torn → torn = s) (hp : p.Strict M P) :
    Always M p s fun op torn result s' =>
      P op ∧ torn = s ∧ s' = s ∧ ∀ a, result ≠ some (.ok a) := by
  induction p generalizing s with
  | done result => exact always_done
  | call op next ih =>
    obtain ⟨hop, ⟨e, he⟩, hnext⟩ := hp
    refine always_call (fun torn h => ?_) (fun torn h => ?_) ?_
    · exact ⟨hop, htorn op s torn hop h, htorn op s torn hop h, by simp⟩
    · rw [he]
      exact ⟨hop, htorn op s torn hop h, htorn op s torn hop h, by simp⟩
    · rw [hexec op s hop]
      exact ih _ (hnext _)

/-- A program that gives up on the first operation that fails stops there. -/
theorem Strict.always_invariant (hexec : ∀ op s, P op → I s → I (M.exec op s).2)
    (htorn : ∀ op s torn, P op → M.torn op s torn → I s → I torn) (hp : p.Strict M P) (hs : I s) :
    Always M p s fun _ torn result s' => I torn ∧ s' = torn ∧ ∀ a, result ≠ some (.ok a) := by
  induction p generalizing s with
  | done result => exact always_done
  | call op next ih =>
    obtain ⟨hop, ⟨e, he⟩, hnext⟩ := hp
    refine always_call (fun torn ht => ?_) (fun torn ht => ?_) ?_
    · exact ⟨htorn op s torn hop ht hs, rfl, by simp⟩
    · rw [he]
      exact ⟨htorn op s torn hop ht hs, rfl, by simp⟩
    · exact ih _ (hnext _) (hexec op s hop hs)

/-- A strict program that changes nothing succeeds only as it would left alone. -/
theorem Faulty.of_strict {fault : Op → σ → Prop} (hexec : ∀ op s, P op → (M.exec op s).2 = s)
    (htorn : ∀ op s torn, P op → M.torn op s torn → torn = s) (hp : p.Strict M P)
    {result : Option (Except ε α)} {s' : σ} (h : Faulty M fault p s result s') :
    s' = s ∧ ∀ a, result = some (.ok a) → run M p s = (.ok a, s) := by
  induction p generalizing s with
  | done r =>
    cases h
    exact ⟨rfl, fun a ha => by rw [Option.some.inj ha]; rfl⟩
  | call op next ih =>
    obtain ⟨hop, ⟨e, he⟩, hnext⟩ := hp
    have hread := hexec op s hop
    cases h with
    | die ht => exact ⟨htorn op s _ hop ht, fun a ha => by cases ha⟩
    | step h =>
      rw [hread] at h
      rw [run_call, hread]
      exact ih _ (hnext _) h
    | fail hfault ht h =>
      rw [he] at h
      cases h
      exact ⟨htorn op s _ hop ht, fun a ha => by cases ha⟩

end

end Program

end Inferences
