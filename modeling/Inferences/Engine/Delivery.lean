import Inferences.Engine.System

/-!
# What a consumer receives

Whatever the sidecar answers, and wherever a generation is stopped, its
consumer receives the start of `Delta* Usage Finished` or of
`Delta* [Usage] Err`, and all of one of them when the stream closes while it
holds it (`generation_delivered`).

The items put into the channel and the events the task has yet to send make
up, at any time, what the response called for so far (`Plan`). A stop leaves
out the events yet to be sent, and their start is as good as all of them.
-/

namespace Inferences.Engine

open Json Schedule

/-- The deltas a request can be answered with. -/
structure Streamed (request : NormalizedRequest) (deltas : List String) : Prop where
  nonempty : ∀ delta ∈ deltas, delta ≠ ""
  bounded : deltas.length ≤ request.max_tokens.toNat

/-- The items that send the texts. -/
def deltas_of (deltas : List String) : List Item := deltas.map (.ok ∘ .Delta)

/-- A whole stream that completed. -/
def Completed (request : NormalizedRequest) (items : List Item) : Prop :=
  ∃ deltas usage reason, items = completed deltas usage reason ∧ Streamed request deltas ∧
    usage.completion_tokens ≤ request.max_tokens ∧ reason ≠ .Cancelled

/-- A stream before its terminal item. -/
def Answered (request : NormalizedRequest) (items : List Item) : Prop :=
  ∃ (deltas : List String) (usage : Option TokenUsage),
    items = deltas_of deltas ++ (usage.map (.ok ∘ .Usage)).toList ∧ Streamed request deltas ∧
    ∀ u, usage = some u → u.completion_tokens ≤ request.max_tokens

/-- A whole stream that failed. -/
def Failed (request : NormalizedRequest) (items : List Item) : Prop :=
  ∃ deltas usage e, items = failed deltas usage e ∧ Streamed request deltas ∧
    ∀ u, usage = some u → u.completion_tokens ≤ request.max_tokens

/-- The shapes of a whole stream. -/
def Shape (request : NormalizedRequest) (items : List Item) : Prop :=
  Completed request items ∨ Failed request items

/-- What every consumer gets: the start of a stream of one of the two shapes,
    and a whole one when the stream closed while it was held. -/
structure Delivered (task : Task) : Prop where
  shape : ∃ items, Shape task.request items ∧ task.received <+: items
  whole : task.is_over = true → Shape task.request task.received

/-! ## Shapes -/

variable {request : NormalizedRequest}

/-- A part of what may be sent may be sent. -/
theorem Streamed.take {deltas front back : List String} (h : Streamed request deltas)
    (hsplit : deltas = front ++ back) : Streamed request front where
  nonempty delta hdelta := h.nonempty delta (hsplit ▸ List.mem_append_left back hdelta)
  bounded := by
    have := h.bounded
    rw [hsplit, List.length_append] at this
    omega

/-- A stream before its terminal item was one at any earlier time. -/
theorem Answered.take {a b : List Item} (h : Answered request (a ++ b)) : Answered request a := by
  obtain ⟨deltas, usage, heq, hdeltas, husage⟩ := h
  rcases List.append_eq_append_iff.1 heq with ⟨rest, hrest, -⟩ | ⟨rest, rfl, hrest⟩
  · -- cut among the deltas
    obtain ⟨front, back, hsplit, rfl, -⟩ := List.map_eq_append_iff.1 hrest
    exact ⟨front, none, (List.append_nil _).symm, hdeltas.take hsplit, nofun⟩
  · cases usage with
    | none =>
      obtain ⟨rfl, -⟩ := List.append_eq_nil_iff.1 hrest.symm
      exact ⟨deltas, none, rfl, hdeltas, nofun⟩
    | some usage =>
      rcases rest with _ | ⟨item, rest⟩
      · exact ⟨deltas, none, rfl, hdeltas, nofun⟩
      · have hitem : rest = [] := by simp_all
        refine ⟨deltas, some usage, ?_, hdeltas, husage⟩
        simp_all

/-- Before the last item of a completed stream. -/
theorem Completed.take {a b : List Item} {item : Item} (h : Completed request (a ++ item :: b)) :
    Answered request a := by
  obtain ⟨deltas, usage, reason, heq, hdeltas, husage, -⟩ := h
  have hfront : Answered request (deltas_of deltas ++ [.ok (.Usage usage)]) :=
    ⟨deltas, some usage, rfl, hdeltas, by rintro u ⟨⟩; exact husage⟩
  have hsplit : completed deltas usage reason =
      (deltas_of deltas ++ [.ok (.Usage usage)]) ++ [.ok (.Finished reason)] := by
    simp [completed, deltas_of]
  rcases List.eq_nil_or_concat b with rfl | ⟨b, last, rfl⟩
  · rw [hsplit] at heq
    exact (List.append_inj' heq rfl).1 ▸ hfront
  · rw [hsplit, List.concat_eq_append, ← List.cons_append, ← List.append_assoc] at heq
    exact ((List.append_inj' heq rfl).1 ▸ hfront).take

/-- An answer can fail at any moment. -/
theorem Answered.fail {items : List Item} (h : Answered request items) (e : EngineError) :
    Failed request (items ++ [.error e]) := by
  obtain ⟨deltas, usage, rfl, hdeltas, husage⟩ := h
  exact ⟨deltas, usage, e, rfl, hdeltas, husage⟩

theorem answered_nil : Answered request [] := ⟨[], none, rfl, ⟨nofun, Nat.zero_le _⟩, nofun⟩

/-! ## Reading the response -/

/-- What is known of the progress of a response. -/
structure Progress.Sound (request : NormalizedRequest) (progress : Progress) : Prop where
  count : progress.generated_deltas ≤ request.max_tokens
  usage : ∀ usage, progress.usage = some usage → usage.completion_tokens ≤ request.max_tokens
  finish : ∀ reason, progress.finish = some reason → reason ≠ .Cancelled

/-- A step of the progress, with the delta it sends. -/
def Advances (request : NormalizedRequest) (progress progress' : Progress) (deltas : List String) :
    Prop :=
  progress'.Sound request ∧ (∀ delta ∈ deltas, delta ≠ "") ∧
    progress'.generated_deltas.toNat = progress.generated_deltas.toNat + deltas.length

/-- The usage is stored once. -/
theorem store_usage_sound {progress progress' : Progress} {usage : Option TokenUsage}
    (h : progress.Sound request) (heq : store_usage request progress usage = .ok progress') :
    progress'.Sound request ∧ progress'.generated_deltas = progress.generated_deltas := by
  cases usage with
  | none =>
    obtain rfl := Except.ok.inj heq
    exact ⟨h, rfl⟩
  | some usage =>
    rw [store_usage] at heq
    split at heq
    · cases heq
    · rename_i hbound
      obtain rfl := Except.ok.inj heq
      refine ⟨⟨h.count, ?_, h.finish⟩, rfl⟩
      rintro u ⟨⟩
      exact UInt32.not_lt.1 hbound

theorem store_finish_sound {progress : Progress} {finish : Option FinishReason}
    (h : progress.Sound request) (hfinish : finish ≠ some .Cancelled) :
    (store_finish progress finish).Sound request ∧
      (store_finish progress finish).generated_deltas = progress.generated_deltas := by
  cases finish with
  | none => exact ⟨h, rfl⟩
  | some reason =>
    refine ⟨⟨h.count, h.usage, ?_⟩, rfl⟩
    rintro r ⟨⟩ rfl
    exact hfinish rfl

/-- A text is counted as it is sent. -/
theorem count_delta_sound {progress progress' : Progress} {delta sent : Option String}
    (h : progress.Sound request)
    (heq : count_delta request progress delta = .ok (progress', sent)) :
    Advances request progress progress' sent.toList := by
  cases delta with
  | none =>
    obtain ⟨rfl, rfl⟩ := Prod.mk.inj (Except.ok.inj heq)
    exact ⟨h, nofun, rfl⟩
  | some delta =>
    rw [count_delta] at heq
    split at heq
    · obtain ⟨rfl, rfl⟩ := Prod.mk.inj (Except.ok.inj heq)
      exact ⟨h, nofun, rfl⟩
    · rename_i hdelta
      unfold checked_add at heq
      split at heq
      · cases heq
      · rename_i count hcount
        split at hcount
        · rename_i hlt
          obtain rfl := Option.some.inj hcount
          split at heq
          · cases heq
          · rename_i hbound
            obtain ⟨rfl, rfl⟩ := Prod.mk.inj (Except.ok.inj heq)
            refine ⟨⟨UInt32.not_lt.1 hbound, h.usage, h.finish⟩, ?_, ?_⟩
            · simpa using hdelta
            · simp only [UInt32.size, UInt32.reduceToNat] at hlt
              simp only [UInt32.toNat_add, UInt32.reduceToNat, Option.toList_some,
                List.length_singleton]
              omega
        · cases hcount

variable {from_slice : Bytes → Option Value}

/-- A chunk sends one text at most. -/
theorem consume_chunk_sound {progress progress' : Progress} {value : Value} {sent : Option String}
    (h : progress.Sound request)
    (heq : consume_chunk request progress value = .ok (progress', sent)) :
    Advances request progress progress' sent.toList := by
  rw [consume_chunk] at heq
  obtain ⟨usage, -, heq⟩ := bind_ok heq
  obtain ⟨progress₁, husage, heq⟩ := bind_ok heq
  obtain ⟨finish, hfinish, heq⟩ := bind_ok heq
  obtain ⟨delta, -, heq⟩ := bind_ok heq
  obtain ⟨h₁, hcount₁⟩ := store_usage_sound h husage
  have hne : finish ≠ some .Cancelled := by
    rintro rfl
    exact parse_finish_reason_ne_cancelled hfinish rfl
  obtain ⟨h₂, hcount₂⟩ := store_finish_sound h₁ hne
  obtain ⟨hsound, hdeltas, hcount⟩ := count_delta_sound h₂ heq
  exact ⟨hsound, hdeltas, by rw [hcount, hcount₂, hcount₁]⟩

/-- So does a line. -/
theorem consume_line_sound {progress progress' : Progress} {line : Bytes} {sent : Option String}
    (h : progress.Sound request)
    (heq : consume_line from_slice request progress line = .ok (progress', sent)) :
    Advances request progress progress' sent.toList := by
  unfold consume_line at heq
  split at heq
  · obtain ⟨rfl, rfl⟩ := Prod.mk.inj (Except.ok.inj heq)
    exact ⟨h, nofun, rfl⟩
  · split at heq
    · obtain ⟨rfl, rfl⟩ := Prod.mk.inj (Except.ok.inj heq)
      exact ⟨⟨h.count, h.usage, h.finish⟩, nofun, rfl⟩
    · split at heq
      · cases heq
      · exact consume_chunk_sound h heq

/-- The lines of a chunk: whatever happens, the deltas they send are in bounds. -/
theorem consume_lines_sound (from_slice : Bytes → Option Value) {progress : Progress}
    (lines : List Bytes)
    (h : progress.Sound request) :
    let r := consume_lines from_slice request progress lines
    (∀ delta ∈ r.1, delta ≠ "") ∧
      progress.generated_deltas.toNat + r.1.length ≤ request.max_tokens.toNat ∧
      ∀ progress', r.2 = .ok progress' → Advances request progress progress' r.1 := by
  induction lines generalizing progress with
  | nil =>
    refine ⟨List.forall_mem_nil _, UInt32.le_iff_toNat_le.1 h.count, ?_⟩
    rintro progress' ⟨⟩
    exact ⟨h, List.forall_mem_nil _, rfl⟩
  | cons line lines ih =>
    dsimp only
    rw [consume_lines]
    cases hline : consume_line from_slice request progress (line ++ [LF]) with
    | error e =>
      exact ⟨List.forall_mem_nil _, UInt32.le_iff_toNat_le.1 h.count, fun _ hok => by cases hok⟩
    | ok r =>
      obtain ⟨progress₁, sent⟩ := r
      obtain ⟨hsound, hsent, hcount⟩ := consume_line_sound h hline
      obtain ⟨hrest, hbound, hok⟩ := ih hsound
      refine ⟨?_, ?_, ?_⟩
      · simpa [or_imp, forall_and] using ⟨by simpa using hsent, hrest⟩
      · simp only [List.length_append]
        omega
      · intro progress' hprogress'
        obtain ⟨hsound', -, hcount'⟩ := hok progress' hprogress'
        refine ⟨hsound', ?_, ?_⟩
        · simpa [or_imp, forall_and] using ⟨by simpa using hsent, hrest⟩
        · simp only [List.length_append]
          omega

/-- The texts of a chunk of the network are counted. -/
theorem feed_sound (from_slice : Bytes → Option Value) {progress : Progress}
    (h : progress.Sound request) (buffer chunk : Bytes) :
    let r := feed from_slice request progress buffer chunk
    (∀ delta ∈ r.1, delta ≠ "") ∧
      progress.generated_deltas.toNat + r.1.length ≤ request.max_tokens.toNat ∧
      ∀ progress' buffer', r.2 = .ok (progress', buffer') →
        Advances request progress progress' r.1 := by
  dsimp only
  rw [feed]
  split
  · exact ⟨nofun, UInt32.le_iff_toNat_le.1 h.count, nofun⟩
  · rw [drain_eq]
    obtain ⟨hsent, hbound, hok⟩ := consume_lines_sound from_slice
      (Lines.complete LF (buffer ++ chunk)) h
    refine ⟨hsent, hbound, fun progress' buffer' heq => ?_⟩
    cases hr : (consume_lines from_slice request progress
      (Lines.complete LF (buffer ++ chunk))).2 with
    | error e =>
      simp [hr, Except.map] at heq
    | ok progress₁ =>
      simp only [hr, Except.map, Except.ok.injEq, Prod.mk.injEq] at heq
      obtain ⟨rfl, -⟩ := heq
      exact hok progress₁ hr

/-! ## The task -/

/-- What the items put and the events to be sent make up, by what comes after
    them. -/
def Plan (request : NormalizedRequest) (after : After) (items : List Item) : Prop :=
  match after with
  | .read progress _ => progress.Sound request ∧ ∃ deltas, items = deltas_of deltas ∧
      Streamed request deltas ∧ progress.generated_deltas.toNat = deltas.length
  | .fail _ => Answered request items
  | .succeed => Completed request items

/-- The items that send the events. -/
def events_of (events : List GenerationEvent) : List Item := events.map .ok

/-- The items a task has put into its channel. -/
def Task.put (self : Task) : List Item := self.received ++ self.channel

/-- What a task has put into its channel, by where it waits. -/
def Task.Sound (self : Task) : Prop :=
  match self.phase with
  | .reading progress buffer => Plan self.request (.read progress buffer) self.put
  | .sending event events after => Plan self.request after (self.put ++ events_of (event :: events))
  | .failing _ => Answered self.request self.put
  | .ended => Shape self.request self.put ∨ self.closed = true ∧ Answered self.request self.put
  | _ => self.put = []

/-- What holds of a generation at any time. -/
structure Task.Inv (task : Task) : Prop where
  sound : task.Sound
  closed : task.closed = true → task.disconnected = true
  is_over : task.is_over = true → task.phase = .ended ∧ task.channel = [] ∧
    Shape task.request task.received

theorem Plan.answered {after : After} {put : List Item} {event : GenerationEvent}
    {events : List GenerationEvent} (h : Plan request after (put ++ events_of (event :: events))) :
    Answered request put := by
  cases after with
  | read progress buffer =>
    obtain ⟨-, deltas, heq, hdeltas, -⟩ := h
    have : Answered request (put ++ events_of (event :: events)) :=
      ⟨deltas, none, by rw [heq]; exact (List.append_nil _).symm, hdeltas, nofun⟩
    exact this.take
  | fail e => exact Answered.take h
  | succeed => exact Completed.take h

variable {task : Task} {shared : Shared}

/-- Sending planned events, and then going on, keeps to the plan. -/
theorem proceed_sound {after : After} {events : List GenerationEvent}
    (h : Plan task.request after (task.put ++ events_of events)) :
    (task.proceed shared after events).2.Sound := by
  cases events with
  | cons event events => exact h
  | nil =>
    rw [events_of, List.map_nil, List.append_nil] at h
    cases after with
    | read progress buffer => exact h
    | fail e => exact h
    | succeed => exact .inl (.inl h)

/-- The end is an error, or the usage and the finish reason. -/
theorem conclude_cases (progress : Progress) (buffer : Bytes) :
    conclude progress buffer = ([], .error .RuntimeProtocol) ∨
      ∃ finish usage, progress.finish = some finish ∧ progress.usage = some usage ∧
        conclude progress buffer = ([.Usage usage, .Finished finish], .ok ()) := by
  unfold conclude
  split
  · rename_i finish usage _ hfinish husage
    exact .inr ⟨finish, usage, hfinish, husage, rfl⟩
  · exact .inl rfl

/-- The last events of a response complete it, or its error fails it. -/
theorem finish_sound {progress : Progress} {buffer : Bytes} {deltas sent : List String}
    (h : progress.Sound task.request) (hput : task.put = deltas_of deltas)
    (hdeltas : Streamed task.request (deltas ++ sent)) :
    (task.finish shared sent progress buffer).2.Sound := by
  have hanswered : Answered task.request (deltas_of deltas ++ events_of (sent.map .Delta)) :=
    ⟨deltas ++ sent, none, by simp [deltas_of, events_of], hdeltas, nofun⟩
  rcases conclude_cases progress buffer with hc | ⟨finish, usage, hfinish, husage, hc⟩
  · rw [Task.finish, hc]
    exact proceed_sound (by simpa [Plan, hput] using hanswered)
  · rw [Task.finish, hc]
    refine proceed_sound ⟨deltas ++ sent, usage, finish, ?_, hdeltas, h.usage usage husage,
      h.finish finish hfinish⟩
    simp [hput, completed, deltas_of, events_of]

/-- Reading keeps the task sound. -/
theorem consume_sound {progress : Progress} {buffer : Bytes}
    {value : Option (Except Unit Bytes)}
    (h : Plan task.request (.read progress buffer) task.put) :
    (task.consume from_slice shared progress buffer value).2.Sound := by
  obtain ⟨hsound, deltas, hput, hdeltas, hcount⟩ := h
  unfold Task.consume
  split
  · exact finish_sound hsound hput (by simpa using hdeltas)
  · exact ⟨deltas, none, by simpa [Task.fail, Task.put] using hput, hdeltas, nofun⟩
  · rename_i chunk
    obtain ⟨hsent, hbound, hok⟩ := feed_sound from_slice hsound buffer chunk
    have hall : Streamed task.request
        (deltas ++ (feed from_slice task.request progress buffer chunk).1) := by
      refine ⟨?_, ?_⟩
      · simpa [or_imp, forall_and] using ⟨hdeltas.nonempty, by simpa using hsent⟩
      · rw [List.length_append]
        omega
    split
    · rename_i sent e hfeed
      rw [hfeed] at hall
      refine proceed_sound ⟨deltas ++ sent, none, ?_, hall, nofun⟩
      simp [hput, deltas_of, events_of]
    · rename_i sent progress' buffer' hfeed
      rw [hfeed] at hall
      obtain ⟨hsound', -, hcount'⟩ := hok progress' buffer' (by rw [hfeed])
      rw [hfeed] at hcount'
      split
      · exact finish_sound hsound' hput hall
      · refine proceed_sound ⟨hsound', deltas ++ sent, ?_, hall, ?_⟩
        · simp [hput, deltas_of, events_of]
        · rw [hcount', hcount, List.length_append]

/-- A task that fails has answered in part. -/
theorem Task.Sound.answered (h : task.Sound) (hphase : task.phase.admitted = true) :
    Answered task.request task.put := by
  unfold Task.Sound at h
  split at h
  · obtain ⟨-, deltas, hput, hdeltas, -⟩ := h
    exact ⟨deltas, none, by simpa using hput, hdeltas, nofun⟩
  · exact h.answered
  · simp_all [Phase.admitted]
  · simp_all [Phase.admitted]
  · rw [h]
    exact answered_nil

/-- Before it reads the response, a task has put nothing into its channel. -/
theorem Task.Sound.put_nil (h : task.Sound)
    (hphase : task.phase.locked = true ∨ task.phase = .lane ∨ task.phase = .locking ∨
      task.phase = .connecting ∨ task.phase = .posting) : task.put = [] := by
  unfold Task.Sound at h
  split at h <;> simp_all [Phase.locked]

theorem sound_of_locked {phase : Phase} (hput : task.put = []) (hlocked : phase.locked = true) :
    Task.Sound { task with phase } := by
  unfold Task.Sound
  cases phase <;> first | exact hput | cases hlocked

variable {i : Nat}

/-- Every move keeps the task sound. -/
theorem sound_polled {r : Shared × Task} (h : task.Sound)
    (hpolled : Task.Polled from_slice i shared task r) : r.2.Sound := by
  cases hpolled with
  | wait => exact h
  | fail e hphase => exact h.answered hphase
  | fail_clear e hphase =>
    refine h.answered ?_
    rcases hphase with hphase | hphase <;> rw [hphase] <;> rfl
  | enter hphase => exact h.put_nil (by simp [hphase])
  | connect hphase => exact h.put_nil (by simp [hphase])
  | begin_launch hphase => exact h.put_nil (by simp [hphase])
  | launch_again attempt hphase => exact h.put_nil (by simp [hphase, Phase.locked])
  | back_off attempt hphase => exact h.put_nil (by simp [hphase, Phase.locked])
  | launch attempt phase hphase _ hlocked =>
    exact sound_of_locked (h.put_nil (by simp [hphase, Phase.locked])) hlocked
  | watch child phase hphase hlocked =>
    exact sound_of_locked (h.put_nil (.inl (Phase.locked_of_child hphase))) hlocked
  | ready attempt child hphase => exact h.put_nil (by simp [hphase, Phase.locked])
  | drop attempt child readiness hphase => exact h.put_nil (by simp [hphase, Phase.locked])
  | post hphase => exact h.put_nil (by simp [hphase])
  | respond hphase =>
    have hput : task.put = [] := h.put_nil (by simp [hphase])
    exact ⟨⟨Nat.zero_le _, nofun, nofun⟩, [], hput, ⟨nofun, Nat.zero_le _⟩, rfl⟩
  | consume progress buffer value hphase =>
    unfold Task.Sound at h
    rw [hphase] at h
    exact consume_sound h
  | send event events after hphase =>
    unfold Task.Sound at h
    rw [hphase] at h
    refine proceed_sound ?_
    simpa [Task.put, events_of] using h
  | report e hphase =>
    unfold Task.Sound at h
    rw [hphase] at h
    refine .inl (.inr ?_)
    simpa [Task.put] using h.fail e
  | forget e hphase hclosed =>
    unfold Task.Sound at h
    rw [hphase] at h
    exact .inr ⟨hclosed, h⟩

/-- Every move keeps the invariant. -/
theorem inv_polled {r : Shared × Task} (h : task.Inv)
    (hpolled : Task.Polled from_slice i shared task r) : r.2.Inv := by
  obtain ⟨phase, channel, hkept⟩ := hpolled.kept
  refine ⟨sound_polled h.sound hpolled, ?_, ?_⟩
  · rw [hkept]
    exact h.closed
  · intro hover
    have htask : task.is_over = true := by simpa [hkept] using hover
    rw [hpolled.of_ended (h.is_over htask).1]
    exact h.is_over htask

/-- Soundness is about what was put, not about who has it. -/
theorem Task.Sound.congr {task' : Task} (h : task.Sound) (hphase : task'.phase = task.phase)
    (hrequest : task'.request = task.request) (hput : task'.put = task.put)
    (hclosed : task.closed = true → task'.closed = true) : task'.Sound := by
  unfold Task.Sound at h ⊢
  rw [hphase, hrequest, hput]
  split at h <;> first | exact h | exact h.imp id fun h => ⟨hclosed h.1, h.2⟩

/-- So does a signal. -/
theorem inv_signal (h : task.Inv) (signal : Signal) : (task.signal signal).Inv := by
  cases signal with
  | cancel => exact ⟨h.sound, h.closed, h.is_over⟩
  | expire => exact ⟨h.sound, h.closed, h.is_over⟩
  | disconnect => exact ⟨h.sound, fun _ => rfl, h.is_over⟩
  | close =>
    rw [Task.signal]
    split
    · rename_i hdisconnected
      exact ⟨h.sound.congr rfl rfl rfl fun _ => rfl, fun _ => hdisconnected, h.is_over⟩
    · exact h
  | recv =>
    unfold Task.signal
    dsimp only
    split
    · exact h
    · rename_i hheld
      split
      · rename_i item channel hchannel
        refine ⟨h.sound.congr rfl rfl ?_ id, h.closed, fun hover => ?_⟩
        · simp [Task.put, hchannel]
        · rw [(h.is_over hover).2.1] at hchannel
          cases hchannel
      · -- the stream is over, and the consumer holds it
        rename_i hchannel hphase
        refine ⟨h.sound.congr rfl rfl rfl id, h.closed, fun _ => ⟨hphase, hchannel, ?_⟩⟩
        have hsound := h.sound
        unfold Task.Sound at hsound
        rw [hphase, Task.put, hchannel, List.append_nil] at hsound
        exact hsound.resolve_right fun hclosed => hheld (h.closed hclosed.1)
      · exact h

theorem inv_new (request : NormalizedRequest) (event_capacity : Nat) :
    Task.Inv { request, event_capacity } := ⟨rfl, nofun, nofun⟩

/-! ## The engine -/

/-- A step of a task keeps what holds of every task. -/
theorem forall_with_task {P : Task → Prop} {engine : GenerationEngine} {i : Nat}
    {step : Task → Shared × Task} (h : ∀ task ∈ engine.tasks, P task)
    (hstep : ∀ task, P task → P (step task).2) :
    ∀ task ∈ (engine.with_task i step).tasks, P task := by
  unfold GenerationEngine.with_task
  split
  · exact h
  · rename_i task hi
    intro task' hmem
    rcases List.mem_or_eq_of_mem_set hmem with hmem | rfl
    · exact h task' hmem
    · exact hstep task (h task (List.mem_of_getElem? hi))

/-- Every act keeps the invariant of all tasks. -/
theorem inv_step (from_slice : Bytes → Option Value) {engine : GenerationEngine}
    (h : ∀ task ∈ engine.tasks, task.Inv) (act : Act) :
    ∀ task ∈ (engine.step from_slice act).tasks, task.Inv := by
  cases act with
  | generate request =>
    unfold GenerationEngine.step GenerationEngine.generate
    dsimp only
    split
    · exact h
    split
    · exact h
    split
    · exact h
    intro task hmem
    rcases List.mem_append.1 hmem with hmem | hmem
    · exact h task hmem
    · rw [List.mem_singleton.1 hmem]
      exact inv_new ..
  | poll i choice =>
    exact forall_with_task h fun task htask =>
      inv_polled htask (Task.poll_polled from_slice task i engine.shared choice)
  | signal i signal => exact forall_with_task h fun task htask => inv_signal htask signal
  | status => exact h
  | shutdown => exact h
  | poll_call j choice =>
    unfold GenerationEngine.step GenerationEngine.with_call
    dsimp only
    split <;> exact h
  | abandon j =>
    unfold GenerationEngine.step GenerationEngine.with_call
    dsimp only
    split <;> exact h
  | exit child => exact h

theorem Task.Sound.answered_or_shape (h : task.Sound) :
    Answered task.request task.put ∨ Shape task.request task.put := by
  cases hphase : task.phase.admitted with
  | true => exact .inl (h.answered hphase)
  | false =>
    unfold Task.Sound at h
    split at h <;> simp_all [Phase.admitted]
    exact h.symm.imp And.right id

/-- The invariant gives the result. -/
theorem Task.Inv.delivered (h : task.Inv) : Delivered task := by
  refine ⟨?_, fun hover => (h.is_over hover).2.2⟩
  have hput : task.received <+: task.put := List.prefix_append _ _
  rcases h.sound.answered_or_shape with hanswered | hshape
  · exact ⟨_, .inr (hanswered.fail .Cancelled), hput.trans (List.prefix_append _ _)⟩
  · exact ⟨_, hshape, hput⟩

/-- The consumers of the generations of an engine. -/
structure AllDelivered (engine : GenerationEngine) : Prop where
  delivered : ∀ task ∈ engine.tasks, Delivered task

/-- Every consumer of an engine receives the start of a stream of one of the
    two shapes, and a whole one when the stream closes while it holds it. -/
theorem generation_delivered (from_slice : Bytes → Option Value) (config : EngineConfig)
    (shared : Shared) (acts : List Act) :
    AllDelivered (run (GenerationEngine.step from_slice) { config, shared } acts) := by
  have hstep : ∀ (engine : GenerationEngine) (act : Act), (∀ task ∈ engine.tasks, task.Inv) →
      ∀ task ∈ (engine.step from_slice act).tasks, task.Inv :=
    fun _ act h => inv_step from_slice h act
  have hinit : ∀ task ∈ ({ config, shared } : GenerationEngine).tasks, task.Inv := by simp
  exact ⟨fun task hmem => (invariant hstep hinit acts task hmem).delivered⟩

end Inferences.Engine
