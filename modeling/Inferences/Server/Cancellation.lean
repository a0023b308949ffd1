import Inferences.Permits
import Inferences.Schedule

/-!
# Cancellation tokens

All of the server is stopped through cancellation tokens: a flag, and a
notification for those who wait for it. A call of `cancel` swaps the flag and
then, if it was the first, wakes the waiters; a call of `cancelled` registers
for the notification, looks at the flag, and only then sleeps. The steps of the
calls interleave in any order, and a waiter can be dropped.

No wakeup is missed (`no_missed_wakeup`): once the cancelling call has
returned, every waiter is three of its own steps from its return.

The notification is that of `tokio`: one that was registered is woken by every
`notify_waiters` after its registration, polled or not.
-/

namespace Inferences.Server

open Permits Schedule

/-- A call of `cancel`: before the swap, between the swap and the wakeup, and
    returned, with whether it changed the state. -/
inductive CancelCall
  | swapping
  | notifying
  | returned (changed : Bool)
  deriving DecidableEq

/-- A call of `cancelled`: at the top of its loop, registered since a number of
    wakeups and before its look at the flag, asleep, returned, or dropped. -/
inductive WaitCall
  | registering
  | checking (since : Nat)
  | sleeping (since : Nat)
  | returned
  | dropped
  deriving DecidableEq

/-- A token: its flag, the number of wakeups so far, and the calls of its clones. -/
structure CancellationToken where
  cancelled : Bool := false
  wakeups : Nat := 0
  cancels : List CancelCall := []
  waits : List WaitCall := []

namespace CancellationToken

/-- One step of a call of `cancel`. -/
def step_cancel (self : CancellationToken) : CancelCall → CancellationToken × CancelCall
  | .swapping =>
    if self.cancelled then (self, .returned false)
    else ({ self with cancelled := true }, .notifying)
  | .notifying => ({ self with wakeups := self.wakeups + 1 }, .returned true)
  | .returned changed => (self, .returned changed)

/-- One step of a call of `cancelled`. -/
def step_wait (self : CancellationToken) : WaitCall → WaitCall
  | .registering => .checking self.wakeups
  | .checking since => if self.cancelled then .returned else .sleeping since
  | .sleeping since => if since < self.wakeups then .registering else .sleeping since
  | call => call

/-- An act on the token: a call of it begins, takes a step, or is dropped. -/
inductive Act
  | cancel
  | wait
  | step_cancel (j : Nat)
  | step_wait (i : Nat)
  | drop_wait (i : Nat)

/-- One of the waits makes a step. -/
def with_wait (self : CancellationToken) (i : Nat) (step : WaitCall → WaitCall) :
    CancellationToken :=
  match self.waits[i]? with
  | none => self
  | some call => { self with waits := self.waits.set i (step call) }

/-- The token after one act. -/
def step (self : CancellationToken) : Act → CancellationToken
  | .cancel => { self with cancels := self.cancels ++ [.swapping] }
  | .wait => { self with waits := self.waits ++ [.registering] }
  | .step_cancel j =>
    match self.cancels[j]? with
    | none => self
    | some call =>
      let (self, call) := self.step_cancel call
      { self with cancels := self.cancels.set j call }
  | .step_wait i => self.with_wait i self.step_wait
  | .drop_wait i => self.with_wait i fun call => if call = .returned then .returned else .dropped

end CancellationToken

/-- The call that found the flag down, with the wakeup still to come, and once
    it has returned. -/
def CancelCall.pending : CancelCall → Bool
  | .notifying => true
  | _ => false

/-- The call returned that it was the first. -/
def CancelCall.told : CancelCall → Bool
  | .returned true => true
  | _ => false

/-- The call is the one that cancelled. -/
def CancelCall.first (call : CancelCall) : Bool := call.pending || call.told

/-- The steps of a waiter up to its return, once it was told. -/
def WaitCall.remaining : WaitCall → Nat
  | registering => 2
  | checking _ => 1
  | sleeping _ => 3
  | _ => 0

namespace CancellationToken

/-- What holds of a waiter: it has returned only from a cancelled token, and
    sleeps only while the token is live, a wakeup is due or one has come. -/
def Awake (token : CancellationToken) : WaitCall → Prop
  | .checking since => since ≤ token.wakeups
  | .sleeping since => since ≤ token.wakeups ∧
      (token.cancelled = false ∨ since < token.wakeups ∨ .notifying ∈ token.cancels)
  | .returned => token.cancelled = true
  | _ => True

/-- What holds of a token and its calls. -/
structure Inv (token : CancellationToken) : Prop where
  first : token.cancels.countP CancelCall.first = token.cancelled.toNat
  waits : ∀ call ∈ token.waits, token.Awake call

/-- The cancelling call has returned. -/
def Told (token : CancellationToken) : Prop := .returned true ∈ token.cancels

variable {token : CancellationToken}

/-- The first calls are those that are pending and those that are told. -/
theorem countP_first (calls : List CancelCall) : calls.countP CancelCall.first =
    calls.countP CancelCall.pending + calls.countP CancelCall.told := by
  induction calls with
  | nil => rfl
  | cons call calls ih =>
    rw [List.countP_cons, List.countP_cons, List.countP_cons, ih]
    cases call with
    | returned changed => cases changed <;> simp [CancelCall.first, CancelCall.pending,
        CancelCall.told] <;> omega
    | _ => simp [CancelCall.first, CancelCall.pending, CancelCall.told] <;> omega

/-- Once the cancelling call has returned, the token is cancelled and no wakeup
    is due. -/
theorem Inv.told (h : Inv token) (htold : token.Told) :
    token.cancelled = true ∧ .notifying ∉ token.cancels := by
  have hpos : 0 < token.cancels.countP CancelCall.told := List.countP_pos_iff.2 ⟨_, htold, rfl⟩
  have hfirst := h.first
  rw [countP_first] at hfirst
  cases hcancelled : token.cancelled with
  | false =>
    rw [hcancelled, Bool.toNat_false] at hfirst
    omega
  | true =>
    rw [hcancelled, Bool.toNat_true] at hfirst
    refine ⟨rfl, fun hdue => ?_⟩
    have hdue : 0 < token.cancels.countP CancelCall.pending :=
      List.countP_pos_iff.2 ⟨_, hdue, rfl⟩
    omega

theorem mem_set_of_ne {calls : List CancelCall} {call old new : CancelCall} {j : Nat}
    (hmem : call ∈ calls) (hj : calls[j]? = some old) (hne : call ≠ old) :
    call ∈ calls.set j new := by
  obtain ⟨k, hk⟩ := List.mem_iff_getElem?.1 hmem
  have hjk : j ≠ k := fun hjk => hne (Option.some.inj ((hk.symm.trans (hjk ▸ hj))))
  exact List.mem_of_getElem? ((List.getElem?_set_ne hjk).trans hk)

/-- A waiter that is awake stays so when the flag and the wakeups only go up and
    a wakeup that was due has come or is due. -/
theorem Awake.mono {token' : CancellationToken} {call : WaitCall} (h : token.Awake call)
    (hcancelled : token.cancelled = true → token'.cancelled = true)
    (hwakeups : token.wakeups ≤ token'.wakeups)
    (hlive : token.cancelled = false → token'.cancelled = false ∨ .notifying ∈ token'.cancels)
    (hdue : .notifying ∈ token.cancels →
      token.wakeups < token'.wakeups ∨ .notifying ∈ token'.cancels) : token'.Awake call := by
  cases call with
  | registering => trivial
  | checking since => exact Nat.le_trans h hwakeups
  | sleeping since =>
    obtain ⟨hle, hlive' | hwoken | hdue'⟩ := h
    · exact ⟨Nat.le_trans hle hwakeups, (hlive hlive').imp_right .inr⟩
    · exact ⟨Nat.le_trans hle hwakeups, .inr (.inl (Nat.lt_of_lt_of_le hwoken hwakeups))⟩
    · exact ⟨Nat.le_trans hle hwakeups,
        .inr ((hdue hdue').imp_left (Nat.lt_of_le_of_lt hle))⟩
  | returned => exact hcancelled h
  | dropped => trivial

/-- A step of a cancel keeps the invariant. -/
theorem inv_step_cancel (h : Inv token) (j : Nat) : Inv (token.step (.step_cancel j)) := by
  rw [step]
  cases hj : token.cancels[j]? with
  | none => exact h
  | some call =>
    have hcount (new : CancelCall) := countP_set_add CancelCall.first hj (b := new)
    cases call with
    | swapping =>
      dsimp only
      rw [step_cancel]
      cases hcancelled : token.cancelled with
      | true =>
        rw [if_pos rfl]
        refine ⟨?_, fun call hmem => (h.waits call hmem).mono id le_rfl .inl fun hdue => .inr ?_⟩
        · exact (hcount _).trans h.first
        · exact mem_set_of_ne hdue hj nofun
      | false =>
        rw [if_neg Bool.false_ne_true]
        have hfirst := h.first
        rw [hcancelled, Bool.toNat_false] at hfirst
        have hdue : CancelCall.notifying ∈ token.cancels.set j .notifying :=
          List.mem_set (List.getElem?_eq_some_iff.1 hj).1 _
        refine ⟨?_, fun call hmem => (h.waits call hmem).mono (fun _ => rfl) le_rfl
          (fun _ => .inr hdue) fun _ => .inr hdue⟩
        simpa [hfirst, CancelCall.first, CancelCall.pending, CancelCall.told]
          using hcount .notifying
    | notifying =>
      refine ⟨?_, fun call hmem => (h.waits call hmem).mono id (Nat.le_succ _) .inl
        fun _ => .inl (Nat.lt_succ_self _)⟩
      exact (Nat.add_right_cancel (hcount (.returned true))).trans h.first
    | returned changed =>
      refine ⟨?_, fun call hmem => (h.waits call hmem).mono id le_rfl .inl fun hdue => .inr ?_⟩
      · exact (Nat.add_right_cancel (hcount (.returned changed))).trans h.first
      · exact mem_set_of_ne hdue hj nofun

/-- A step of a waiter changes no more of a token. -/
theorem inv_with_wait (h : Inv token) (i : Nat) {step : WaitCall → WaitCall}
    (hstep : ∀ call, token.Awake call → token.Awake (step call)) :
    Inv (token.with_wait i step) := by
  unfold with_wait
  split
  · exact h
  · rename_i call hi
    refine ⟨h.first, fun call' hmem => ?_⟩
    rcases List.mem_or_eq_of_mem_set hmem with hmem | rfl
    · exact h.waits call' hmem
    · exact hstep call (h.waits call (List.mem_of_getElem? hi))

/-- A wait that is awake stays awake. -/
theorem awake_step_wait {call : WaitCall} (h : token.Awake call) :
    token.Awake (token.step_wait call) := by
  cases call with
  | registering => exact Nat.le_refl _
  | checking since =>
    rw [step_wait]
    cases hcancelled : token.cancelled with
    | true => exact hcancelled
    | false => exact ⟨h, .inl hcancelled⟩
  | sleeping since =>
    rw [step_wait]
    split
    · trivial
    · exact h
  | returned => exact h
  | dropped => trivial

/-- Every act keeps the invariant. -/
theorem inv_step (h : Inv token) (act : Act) : Inv (token.step act) := by
  cases act with
  | cancel =>
    refine ⟨?_, fun call hmem => (h.waits call hmem).mono id le_rfl .inl fun hdue =>
      .inr (List.mem_append_left _ hdue)⟩
    exact (countP_append_singleton _ _ _).trans h.first
  | wait =>
    refine ⟨h.first, fun call hmem => ?_⟩
    rcases List.mem_append.1 hmem with hmem | hmem
    · exact h.waits call hmem
    · rw [List.mem_singleton.1 hmem]
      trivial
  | step_cancel j => exact inv_step_cancel h j
  | step_wait i => exact inv_with_wait h i fun _ => awake_step_wait
  | drop_wait i =>
    refine inv_with_wait h i fun call hawake => ?_
    split
    · rename_i hreturned
      exact hreturned ▸ hawake
    · trivial

/-- A new token meets the invariant. -/
theorem inv_new : Inv {} := ⟨rfl, nofun⟩

/-! ## No missed wakeup -/

theorem cancels_step_cancel (call : CancelCall) :
    (token.step_cancel call).1.cancels = token.cancels := by
  cases call with
  | swapping =>
    rw [step_cancel]
    split <;> rfl
  | _ => rfl

theorem with_wait_frame (i : Nat) (step : WaitCall → WaitCall) :
    (token.with_wait i step).cancels = token.cancels ∧
      (token.with_wait i step).wakeups = token.wakeups := by
  unfold with_wait
  split <;> exact ⟨rfl, rfl⟩

/-- Once the cancelling call has returned, it has. -/
theorem told_step (h : token.Told) (act : Act) : (token.step act).Told := by
  cases act with
  | cancel => exact List.mem_append_left _ h
  | wait => exact h
  | step_cancel j =>
    rw [step]
    cases hj : token.cancels[j]? with
    | none => exact h
    | some call =>
      change CancelCall.returned true ∈ (token.step_cancel call).1.cancels.set j _
      rw [cancels_step_cancel]
      by_cases hcall : call = .returned true
      · subst hcall
        exact List.mem_set (List.getElem?_eq_some_iff.1 hj).1 _
      · exact mem_set_of_ne h hj (Ne.symm hcall)
  | step_wait i =>
    rw [Told, step, (with_wait_frame i _).1]
    exact h
  | drop_wait i =>
    rw [Told, step, (with_wait_frame i _).1]
    exact h

/-- The waiter `i` has returned or was dropped when this is zero. -/
def remaining (i : Nat) (token : CancellationToken) : Nat :=
  (token.waits[i]?).elim 0 WaitCall.remaining

/-- The waiter `i` is there, and it is told. -/
structure Waking (i : Nat) (token : CancellationToken) : Prop where
  inv : Inv token
  told : token.Told
  here : i < token.waits.length

theorem length_waits_step_cancel (call : CancelCall) :
    (token.step_cancel call).1.waits = token.waits := by
  cases call with
  | swapping =>
    rw [step_cancel]
    split <;> rfl
  | _ => rfl

theorem waits_step_cancel (j : Nat) : (token.step (.step_cancel j)).waits = token.waits := by
  rw [step]
  cases token.cancels[j]? with
  | none => rfl
  | some call => exact length_waits_step_cancel call

theorem length_with_wait (j : Nat) (step : WaitCall → WaitCall) :
    (token.with_wait j step).waits.length = token.waits.length := by
  unfold with_wait
  split
  · rfl
  · exact List.length_set

variable {i : Nat}

/-- A waiter that is told stays there. -/
theorem Waking.step (h : Waking i token) (act : Act) : Waking i (token.step act) := by
  refine ⟨inv_step h.inv act, told_step h.told act, ?_⟩
  have hi := h.here
  cases act with
  | cancel => exact hi
  | wait =>
    change i < (token.waits ++ [_]).length
    rw [List.length_append]
    omega
  | step_cancel j => rwa [waits_step_cancel]
  | step_wait j =>
    change i < (token.with_wait j _).waits.length
    rwa [length_with_wait]
  | drop_wait j =>
    change i < (token.with_wait j _).waits.length
    rwa [length_with_wait]

/-- Once it is told, each step takes a waiter closer to its return. -/
theorem Waking.remaining_step_wait (h : Waking i token) {call : WaitCall}
    (hcall : call ∈ token.waits) : (token.step_wait call).remaining ≤ call.remaining - 1 := by
  obtain ⟨hcancelled, hdue⟩ := h.inv.told h.told
  cases call with
  | registering => exact Nat.le_refl _
  | checking since =>
    rw [step_wait, if_pos hcancelled]
    exact Nat.le_refl _
  | sleeping since =>
    obtain ⟨-, hlive | hwoken | hdue'⟩ := h.inv.waits _ hcall
    · rw [hcancelled] at hlive
      cases hlive
    · rw [step_wait, if_pos hwoken]
      exact Nat.le_refl _
    · exact absurd hdue' hdue
  | returned => exact Nat.le_refl _
  | dropped => exact Nat.le_refl _

theorem remaining_with_wait {j : Nat} {step : WaitCall → WaitCall} {bound : Nat}
    (hother : j ≠ i → remaining i token ≤ bound)
    (hself : ∀ call, token.waits[i]? = some call → (step call).remaining ≤ bound)
    (hi : i < token.waits.length) :
    remaining i (token.with_wait j step) ≤ bound := by
  have hhere := List.getElem?_eq_getElem hi
  unfold with_wait remaining
  by_cases hij : j = i
  · subst hij
    rw [hhere]
    dsimp only
    rw [List.getElem?_set_self hi]
    exact hself _ hhere
  · split
    · exact hother hij
    · dsimp only
      rw [List.getElem?_set_ne hij]
      exact hother hij

/-- No act puts a wait further from its end. -/
theorem Waking.remaining_le (h : Waking i token) (act : Act) :
    remaining i (token.step act) ≤ remaining i token := by
  cases act with
  | cancel => exact le_rfl
  | wait =>
    change ((token.waits ++ [_])[i]?).elim 0 _ ≤ _
    rw [List.getElem?_append_left h.here]
    exact le_rfl
  | step_cancel j => rw [remaining, waits_step_cancel, remaining]
  | step_wait j =>
    refine remaining_with_wait (fun _ => le_rfl) (fun call hcall => ?_) h.here
    have hle := h.remaining_step_wait (List.mem_of_getElem? hcall)
    rw [remaining, hcall]
    exact hle.trans (Nat.sub_le _ _)
  | drop_wait j =>
    refine remaining_with_wait (fun _ => le_rfl) (fun call hcall => ?_) h.here
    split <;> exact Nat.zero_le _

/-- A step of its own brings it nearer. -/
theorem Waking.remaining_lt (h : Waking i token) :
    remaining i (token.step (.step_wait i)) ≤ remaining i token - 1 := by
  refine remaining_with_wait (fun hne => absurd rfl hne) (fun call hcall => ?_) h.here
  rw [remaining, hcall]
  exact h.remaining_step_wait (List.mem_of_getElem? hcall)

/-- A step of the waiter `i`. -/
def Act.wakes (i : Nat) : Act → Bool
  | .step_wait j => j == i
  | _ => false

/-- Once the cancelling call has returned, every waiter returns within three of
    its own steps, whatever else happens, unless it is dropped. -/
theorem no_missed_wakeup (acts later : List Act) (i : Nat)
    (htold : (run step {} acts).Told) (hi : i < (run step {} acts).waits.length)
    (hsteps : 3 ≤ later.countP (Act.wakes i)) :
    (run step {} (acts ++ later)).waits[i]? = some .returned ∨
      (run step {} (acts ++ later)).waits[i]? = some .dropped := by
  have hinv : ∀ (token : CancellationToken) (act : Act), Inv token → Inv (token.step act) :=
    fun _ act h => inv_step h act
  have hstep : ∀ (token : CancellationToken) (act : Act), Waking i token →
      Waking i (token.step act) := fun _ act h => h.step act
  have hle : ∀ (token : CancellationToken) (act : Act), Waking i token →
      remaining i (token.step act) ≤ remaining i token := fun _ act h => h.remaining_le act
  have hlt : ∀ (token : CancellationToken) (act : Act), Waking i token → act.wakes i = true →
      remaining i (token.step act) ≤ remaining i token - 1 := by
    intro token act h hact
    cases act with
    | step_wait j => exact eq_of_beq hact ▸ h.remaining_lt
    | _ => cases hact
  have hwaking : Waking i (run step {} acts) := ⟨invariant hinv inv_new acts, htold, hi⟩
  have hlater : Waking i (run step (run step {} acts) later) := invariant hstep hwaking later
  have hcount := countdown hstep hle hlt hwaking later
  have hstart : remaining i (run step {} acts) ≤ 3 := by
    rw [remaining, List.getElem?_eq_getElem hi]
    cases (run step {} acts).waits[i] <;> simp [WaitCall.remaining]
  have hzero : remaining i (run step (run step {} acts) later) = 0 := by omega
  obtain ⟨call, hcall⟩ : ∃ call, (run step (run step {} acts) later).waits[i]? = some call :=
    ⟨_, List.getElem?_eq_getElem hlater.here⟩
  rw [remaining, hcall] at hzero
  rw [run_append, hcall]
  cases call with
  | returned => exact .inl rfl
  | dropped => exact .inr rfl
  | _ => cases hzero

/-- A waiter that looks at the flag right before it is raised, and sleeps
    through the swap. -/
theorem no_missed_wakeup_asleep :
    let acts : List Act := [.wait, .cancel, .step_wait 0, .step_wait 0, .step_cancel 0,
      .step_cancel 0]
    let later : List Act := [.step_wait 0, .step_wait 0, .step_wait 0]
    (run step {} (acts ++ later)).waits[0]? = some .returned ∨
      (run step {} (acts ++ later)).waits[0]? = some .dropped := by
  intro acts later
  refine no_missed_wakeup acts later 0 ?_ (by decide) (by decide)
  unfold Told
  decide

end CancellationToken

end Inferences.Server
