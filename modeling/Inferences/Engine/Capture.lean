import Inferences.Json
import Inferences.Redaction

/-!
# The output of the private runtime

Two tasks read what the runtime writes, one its standard output and one its
standard error (`drain_private_output`). What a read delivers is decoded, redacted,
stripped of control characters and added to one bounded queue, under its lock.

`captured_conceals` says when the queue holds no secret, in whatever order the
tasks read and add.
-/

namespace Inferences.Engine

open Redaction

/-- How many bytes of a stream are kept as one chunk. -/
def CAPTURED_LOG_CHUNK_BYTES : Nat := 1024

/-- How many chunks are kept. -/
def MAX_CAPTURED_LOG_CHUNKS : Nat := 64

/-! ## One read -/

/-- `char::REPLACEMENT_CHARACTER`. -/
def REPLACEMENT_CHARACTER : Char := .ofNat 0xFFFD

/-- A byte that continues a character. -/
def is_continuation (b : UInt8) : Bool := 0x80 ≤ b && b ≤ 0xBF

/-- The second byte of a character of several bytes, after the first. -/
def is_second (first b : UInt8) : Bool :=
  if first = 0xE0 then 0xA0 ≤ b && b ≤ 0xBF
  else if first = 0xED then 0x80 ≤ b && b ≤ 0x9F
  else if first = 0xF0 then 0x90 ≤ b && b ≤ 0xBF
  else if first = 0xF4 then 0x80 ≤ b && b ≤ 0x8F
  else is_continuation b

/-- The bits of the first byte of a character, and those of the others. -/
def scalar (first : Nat) (others : List UInt8) : Char :=
  .ofNat (others.foldl (fun n b => n * 64 + (b.toNat - 0x80)) first)

/-- `String::from_utf8_lossy`: the longest start of a character that is not one is
    replaced. -/
def from_utf8_lossy : Bytes → List Char
  | [] => []
  | b :: rest =>
    if b < 0x80 then .ofNat b.toNat :: from_utf8_lossy rest
    else if b < 0xC2 || 0xF4 < b then REPLACEMENT_CHARACTER :: from_utf8_lossy rest
    else match rest with
      | [] => [REPLACEMENT_CHARACTER]
      | c :: rest =>
        if !is_second b c then REPLACEMENT_CHARACTER :: from_utf8_lossy (c :: rest)
        else if b < 0xE0 then scalar (b.toNat - 0xC0) [c] :: from_utf8_lossy rest
        else match rest with
          | [] => [REPLACEMENT_CHARACTER]
          | d :: rest =>
            if !is_continuation d then REPLACEMENT_CHARACTER :: from_utf8_lossy (d :: rest)
            else if b < 0xF0 then scalar (b.toNat - 0xE0) [c, d] :: from_utf8_lossy rest
            else match rest with
              | [] => [REPLACEMENT_CHARACTER]
              | e :: rest =>
                if !is_continuation e then REPLACEMENT_CHARACTER :: from_utf8_lossy (e :: rest)
                else scalar (b.toNat - 0xF0) [c, d, e] :: from_utf8_lossy rest

/-- `char::is_control`. -/
def is_control (c : Char) : Bool := c.toNat < 0x20 || 0x7F ≤ c.toNat && c.toNat < 0xA0

/-- The characters that are retained. -/
def is_retained (c : Char) : Bool := !is_control c || ['\n', '\r', '\t'].contains c

/-- What stands for a secret. -/
def MARK : List Char := "[redacted]".toList

/-- What a read adds to the queue. -/
def captured_text (sensitive : List String) (bytes : Bytes) : List Char :=
  (redact (sensitive.map String.toList) MARK (from_utf8_lossy bytes)).filter is_retained

example : from_utf8_lossy [0x61, 0xE2, 0x82, 0xAC, 0xE2, 0x82, 0x62, 0xFF] =
    ['a', '€', REPLACEMENT_CHARACTER, 'b', REPLACEMENT_CHARACTER] := by decide

/-! ## The tasks -/

/-- The streams of the child that are captured. -/
inductive OutputStream
  | stdout
  | stderr
  deriving DecidableEq

/-- A task that waits for its stream, that waits for the lock with what it adds, or
    that has ended. -/
inductive DrainTask
  | reading
  | adding (value : List Char)
  | ended

/-- The queue, and the tasks. A chunk stands with the stream it comes from, which
    the queue does not have. -/
structure Capture where
  captured : List (OutputStream × List Char)
  tasks : OutputStream → DrainTask

/-- What happens next: a read returns, a task has the lock, or a task is aborted. -/
inductive CaptureAct
  | read (stream : OutputStream) (result : Except Unit Bytes)
  | add (stream : OutputStream)
  | abort (stream : OutputStream)

namespace Capture

/-- Nothing is captured, and both streams are being read. -/
def new : Capture where
  captured := []
  tasks _ := .reading

/-- `push_back`, after `pop_front` on a full queue. -/
def push (captured : List (OutputStream × List Char)) (chunk : OutputStream × List Char) :
    List (OutputStream × List Char) :=
  (if captured.length = MAX_CAPTURED_LOG_CHUNKS then captured.tail else captured) ++ [chunk]

/-- The task that reads the stream goes on as `task`. -/
def set (self : Capture) (stream : OutputStream) (task : DrainTask) : Capture :=
  { self with tasks := Function.update self.tasks stream task }

/-- A read delivers at most what fits the buffer, and nothing at the end. -/
def delivers (bytes : Bytes) : Bool := bytes ≠ [] && bytes.length ≤ CAPTURED_LOG_CHUNK_BYTES

/-- A task after a read; only one that reads has any. -/
def receive (sensitive : List String) (result : Except Unit Bytes) : DrainTask → DrainTask
  | .reading =>
    match result with
    | .ok bytes =>
      if delivers bytes then .adding (captured_text sensitive bytes)
      else if bytes = [] then .ended
      else .reading
    | .error () => .ended
  | task => task

/-- The state after one act. -/
def step (sensitive : List String) (self : Capture) : CaptureAct → Capture
  | .read stream result => self.set stream (receive sensitive result (self.tasks stream))
  | .add stream =>
    match self.tasks stream with
    | .adding value => { self.set stream .reading with
        captured := push self.captured (stream, value) }
    | _ => self
  | .abort stream => self.set stream .ended

/-- The state after the acts of a run. -/
def run (sensitive : List String) (self : Capture) (acts : List CaptureAct) : Capture :=
  acts.foldl (step sensitive) self

/-- What the act delivers from the stream, if anything. -/
def delivered (self : Capture) (stream : OutputStream) : CaptureAct → List Bytes
  | .read stream' (.ok bytes) =>
    match self.tasks stream with
    | .reading => if stream' = stream && delivers bytes then [bytes] else []
    | _ => []
  | .read _ (.error _) | .add _ | .abort _ => []

/-- What the reads of a run have delivered from the stream, one after another. -/
def reads (sensitive : List String) (stream : OutputStream) :
    Capture → List CaptureAct → List Bytes
  | _, [] => []
  | self, act :: acts =>
    self.delivered stream act ++ reads sensitive stream (self.step sensitive act) acts

/-- The chunks of one stream, in order. -/
def chunks (self : Capture) (stream : OutputStream) : List (List Char) :=
  (self.captured.filter (·.1 = stream)).map Prod.snd

/-! ## What the queue holds of a stream -/

/-- What the task of the stream has read and not added. -/
def pending (self : Capture) (stream : OutputStream) : List (List Char) :=
  match self.tasks stream with
  | .adding value => [value]
  | _ => []

/-- The chunks of a stream are its texts, without the first ones; a task that has
    ended may have lost the last. -/
def Holds (self : Capture) (stream : OutputStream) (texts : List (List Char)) : Prop :=
  ∃ dropped lost, texts = dropped ++ self.chunks stream ++ (self.pending stream ++ lost) ∧
    (lost = [] ∨ self.tasks stream = .ended)

section

variable {sensitive : List String} {self self' : Capture} {stream stream' : OutputStream}
  {texts : List (List Char)}

/-- Nothing is held before anything is read. -/
theorem holds_new (stream : OutputStream) : Holds new stream [] := ⟨[], [], rfl, .inl rfl⟩

/-- The tasks of other streams, and chunks of theirs, are nothing to a stream. -/
theorem Holds.congr (h : Holds self stream texts)
    (hchunks : self'.chunks stream = self.chunks stream)
    (htask : self'.tasks stream = self.tasks stream) :
    Holds self' stream texts := by
  obtain ⟨dropped, lost, htexts, hlost⟩ := h
  have hpending : self'.pending stream = self.pending stream := by rw [pending, pending, htask]
  exact ⟨dropped, lost, by rw [hchunks, hpending, htexts], by rwa [htask]⟩

@[simp] theorem chunks_set (task : DrainTask) :
    (self.set stream' task).chunks stream = self.chunks stream := rfl

@[simp] theorem tasks_set_self (task : DrainTask) : (self.set stream task).tasks stream = task :=
  Function.update_self ..

theorem tasks_set_ne (h : stream ≠ stream') (task : DrainTask) :
    (self.set stream' task).tasks stream = self.tasks stream :=
  Function.update_of_ne h ..

/-- A task that reads adds what it has read after the chunks. -/
theorem Holds.deliver (h : Holds self stream texts) (htask : self.tasks stream = .reading)
    (value : List Char) : Holds (self.set stream (.adding value)) stream (texts ++ [value]) := by
  obtain ⟨dropped, lost, htexts, hlost⟩ := h
  -- a task that reads has lost nothing, and has nothing to add
  obtain rfl : lost = [] := hlost.resolve_right (by rw [htask]; exact nofun)
  refine ⟨dropped, [], ?_, .inl rfl⟩
  have hbefore : self.pending stream = [] := by rw [pending, htask]
  have hafter : (self.set stream (.adding value)).pending stream = [value] := by
    rw [pending, tasks_set_self]
  rw [htexts, hbefore, hafter, chunks_set]
  simp

/-- A task that ends has lost what it has not added. -/
theorem Holds.finish (h : Holds self stream texts) :
    Holds (self.set stream .ended) stream texts := by
  obtain ⟨dropped, lost, htexts, -⟩ := h
  refine ⟨dropped, self.pending stream ++ lost, ?_, .inr (tasks_set_self _)⟩
  have hafter : (self.set stream .ended).pending stream = [] := by rw [pending, tasks_set_self]
  rw [htexts, hafter, chunks_set, List.nil_append]

/-- A push drops at most the first chunk. -/
theorem chunks_push (stream stream' : OutputStream) (captured : List (OutputStream × List Char))
    (value : List Char) :
    ∃ gone kept, (captured.filter (·.1 = stream)).map Prod.snd = gone ++ kept ∧
      ((push captured (stream', value)).filter (·.1 = stream)).map Prod.snd =
        kept ++ if stream' = stream then [value] else [] := by
  have hlast : (([(stream', value)] : List (OutputStream × List Char)).filter
      (·.1 = stream)).map Prod.snd = if stream' = stream then [value] else [] := by
    by_cases h : stream' = stream <;> simp [h]
  rw [push, List.filter_append, List.map_append, hlast]
  split
  · cases captured with
    | nil => exact ⟨[], [], rfl, rfl⟩
    | cons chunk captured =>
      -- the first chunk of the queue, if it is of this stream
      refine ⟨([chunk].filter (·.1 = stream)).map Prod.snd, _, ?_, rfl⟩
      rw [← List.map_append, ← List.filter_append]
      rfl
  · exact ⟨[], _, rfl, rfl⟩

/-- A chunk that was read is kept with the others. -/
theorem Holds.add (h : Holds self stream texts) {value : List Char}
    (htask : self.tasks stream' = .adding value) :
    Holds { self.set stream' .reading with captured := push self.captured (stream', value) }
      stream texts := by
  obtain ⟨dropped, lost, htexts, hlost⟩ := h
  obtain ⟨gone, kept, hbefore, hafter⟩ := chunks_push stream stream' self.captured value
  have hchunks : self.chunks stream = gone ++ kept := hbefore
  by_cases hsame : stream' = stream
  · subst hsame
    obtain rfl : lost = [] := hlost.resolve_right (by rw [htask]; exact nofun)
    have hpending : self.pending stream' = [value] := by rw [pending, htask]
    refine ⟨dropped ++ gone, [], ?_, .inl rfl⟩
    rw [chunks, hafter, if_pos rfl, pending, tasks_set_self, htexts, hchunks, hpending]
    simp
  · have htasks : (self.set stream' .reading).tasks stream = self.tasks stream :=
      tasks_set_ne (Ne.symm hsame) _
    refine ⟨dropped ++ gone, lost, ?_, hlost.imp_right htasks.trans⟩
    rw [chunks, hafter, if_neg hsame, pending, htasks, htexts, hchunks, pending]
    simp

/-- One act keeps the chunks of a stream to what has been read from it. -/
theorem Holds.step (h : Holds self stream texts) (act : CaptureAct) :
    Holds (self.step sensitive act) stream
      (texts ++ (self.delivered stream act).map (captured_text sensitive)) := by
  cases act with
  | abort stream' =>
    rw [delivered, List.map_nil, List.append_nil, Capture.step]
    by_cases hsame : stream' = stream
    · exact hsame ▸ h.finish
    · exact h.congr (chunks_set _) (tasks_set_ne (Ne.symm hsame) _)
  | add stream' =>
    rw [delivered, List.map_nil, List.append_nil, Capture.step]
    cases htask : self.tasks stream' with
    | adding value => exact h.add htask
    | _ => exact h
  | read stream' result =>
    rw [Capture.step]
    by_cases hsame : stream' = stream
    · subst hsame
      -- a read that delivers nothing leaves the task as it is, or ends it
      have hidle : Holds (self.set stream' (self.tasks stream')) stream' texts :=
        h.congr (chunks_set _) (tasks_set_self _)
      cases htask : self.tasks stream' with
      | reading =>
        rw [htask] at hidle
        cases result with
        | error _ =>
          rw [delivered, List.map_nil, List.append_nil]
          exact h.finish
        | ok bytes =>
          simp only [receive, delivered, htask, decide_true, Bool.true_and]
          by_cases hdelivers : delivers bytes = true
          · rw [if_pos hdelivers, if_pos hdelivers]
            exact h.deliver htask (captured_text sensitive bytes)
          · rw [if_neg hdelivers, if_neg hdelivers, List.map_nil, List.append_nil]
            split
            · exact h.finish
            · exact hidle
      | adding value | ended =>
        rw [htask] at hidle
        cases result <;> simpa [receive, delivered, htask] using hidle
    · have hnone : self.delivered stream (.read stream' result) = [] := by
        cases result with
        | error _ => rfl
        | ok bytes =>
          rw [delivered]
          cases self.tasks stream <;> simp [hsame]
      rw [hnone, List.map_nil, List.append_nil]
      exact h.congr (chunks_set _) (tasks_set_ne (Ne.symm hsame) _)

theorem reads_append (self : Capture) (before after : List CaptureAct) :
    reads sensitive stream self (before ++ after) =
      reads sensitive stream self before ++
        reads sensitive stream (self.run sensitive before) after := by
  induction before generalizing self with
  | nil => rfl
  | cons act before ih => rw [List.cons_append, reads, ih, reads, List.append_assoc]; rfl

/-- A run keeps the chunks of a stream to what has been read from it. -/
theorem Holds.run (h : Holds self stream texts) (acts : List CaptureAct) :
    Holds (self.run sensitive acts) stream
      (texts ++ (reads sensitive stream self acts).map (captured_text sensitive)) := by
  induction acts generalizing self texts with
  | nil =>
    rw [reads, List.map_nil, List.append_nil]
    exact h
  | cons act acts ih =>
    rw [reads, List.map_append, ← List.append_assoc]
    exact ih (h.step act)

/-- The queue is within its bound. -/
theorem length_push (captured : List (OutputStream × List Char))
    (h : captured.length ≤ MAX_CAPTURED_LOG_CHUNKS) (chunk : OutputStream × List Char) :
    (push captured chunk).length ≤ MAX_CAPTURED_LOG_CHUNKS := by
  rw [push]
  split
  · rename_i hfull
    rw [List.length_append, List.length_tail, hfull, List.length_singleton]
    decide
  · rw [List.length_append, List.length_singleton]
    omega

/-- Every act keeps it within its bound. -/
theorem bounded_step (h : self.captured.length ≤ MAX_CAPTURED_LOG_CHUNKS) (act : CaptureAct) :
    (self.step sensitive act).captured.length ≤ MAX_CAPTURED_LOG_CHUNKS := by
  cases act with
  | abort stream => exact h
  | add stream =>
    rw [Capture.step]
    cases self.tasks stream with
    | adding value => exact length_push _ h _
    | _ => exact h
  | read stream result => exact h

/-- The queue is bounded, whatever is written and however the tasks take turns. -/
theorem bounded_run (h : self.captured.length ≤ MAX_CAPTURED_LOG_CHUNKS)
    (acts : List CaptureAct) :
    (self.run sensitive acts).captured.length ≤ MAX_CAPTURED_LOG_CHUNKS := by
  induction acts generalizing self with
  | nil => exact h
  | cons act acts ih => exact ih (bounded_step h act)

end

end Capture

/-! ## Secrets -/

/-- No secret is in the text. -/
def Conceals (sensitive : List String) (text : List Char) : Prop :=
  ∀ secret ∈ sensitive, secret ≠ "" → ¬ secret.toList <:+: text

instance (sensitive : List String) (text : List Char) : Decidable (Conceals sensitive text) :=
  inferInstanceAs (Decidable (∀ secret ∈ sensitive, secret ≠ "" → ¬ secret.toList <:+: text))

/-- What the reads of a stream are to deliver: a secret always in one piece in one
    read. If there is a secret at all, none may overlap the mark. -/
structure Separable (sensitive : List String) (texts : List (List Char)) : Prop where
  caught : ∀ secret ∈ sensitive, secret ≠ "" → Caught is_retained secret.toList texts
  apart : (∀ secret ∈ sensitive, secret ≠ "" → Apart secret.toList MARK) ∨
    ∀ text ∈ texts, Conceals sensitive text

theorem mark_characters : MARK = ['[', 'r', 'e', 'd', 'a', 'c', 't', 'e', 'd', ']'] := by decide

/-- The mark is not cleaned away. -/
theorem retained_mark : ∀ c ∈ MARK, is_retained c = true := by
  rw [mark_characters]
  simp [is_retained, is_control]

/-- Where the secrets are separable, none is shown. -/
theorem Separable.conceals {sensitive : List String} {reads : List Bytes}
    (h : Separable sensitive (reads.map from_utf8_lossy)) :
    Conceals sensitive (reads.map (captured_text sensitive)).flatten := by
  intro secret hsecret hne
  have hlist : ∀ {P : List Char → Prop}, (∀ secret ∈ sensitive, secret ≠ "" → P secret.toList) →
      ∀ secret ∈ sensitive.map String.toList, secret ≠ [] → P secret := by
    intro P hP secret hsecret hne
    obtain ⟨secret, hmem, rfl⟩ := List.mem_map.1 hsecret
    exact hP secret hmem fun hempty => hne (by rw [hempty]; rfl)
  have hmem : secret.toList ∈ sensitive.map String.toList := List.mem_map_of_mem hsecret
  have hnonempty : secret.toList ≠ [] := fun hempty => hne (String.toList_eq_nil_iff.1 hempty)
  have htexts : reads.map (captured_text sensitive) = (reads.map from_utf8_lossy).map
      fun text => (redact (sensitive.map String.toList) MARK text).filter is_retained := by
    rw [List.map_map]
    rfl
  rw [htexts]
  -- where no text has a secret, nothing is masked, and marks do not matter
  rcases h.apart with hapart | habsent
  · exact not_infix_redacted retained_mark (hlist hapart) (hlist h.caught) hmem hnonempty
  · exact not_infix_absent (fun text htext => hlist (habsent text htext)) (hlist h.caught) hmem
      hnonempty

/-- The queue has at most 64 chunks. In every state of a run whose reads deliver the
    secrets in one piece each, no secret is in the chunks of a stream, one by one
    or together. -/
theorem captured_conceals (sensitive : List String) (acts : List CaptureAct) :
    (Capture.new.run sensitive acts).captured.length ≤ MAX_CAPTURED_LOG_CHUNKS ∧
    ∀ stream, Separable sensitive
        ((Capture.reads sensitive stream .new acts).map from_utf8_lossy) →
      ∀ reached, reached <+: acts →
        Conceals sensitive ((Capture.new.run sensitive reached).chunks stream).flatten ∧
        ∀ chunk ∈ (Capture.new.run sensitive reached).chunks stream, Conceals sensitive chunk := by
  refine ⟨Capture.bounded_run (Nat.zero_le _) acts, ?_⟩
  rintro stream hseparable reached ⟨rest, rfl⟩
  have hconceals := hseparable.conceals
  have hholds : Capture.Holds (Capture.new.run sensitive reached) stream
      ([] ++ (Capture.reads sensitive stream .new reached).map (captured_text sensitive)) :=
    (Capture.holds_new stream).run reached
  -- the chunks are in what has been read by then, which is in what is read of all
  obtain ⟨dropped, lost, htexts, -⟩ := hholds
  rw [Capture.reads_append, List.map_append, List.flatten_append] at hconceals
  have hinfix : ((Capture.new.run sensitive reached).chunks stream).flatten <:+:
      ((Capture.reads sensitive stream .new reached).map (captured_text sensitive)).flatten := by
    rw [List.nil_append] at htexts
    rw [htexts, List.flatten_append, List.flatten_append]
    exact ⟨_, _, rfl⟩
  have htogether : Conceals sensitive ((Capture.new.run sensitive reached).chunks stream).flatten :=
    fun secret hsecret hne hshown => hconceals secret hsecret hne
      ((hshown.trans hinfix).trans (List.prefix_append _ _).isInfix)
  refine ⟨htogether, fun chunk hchunk secret hsecret hne hshown => ?_⟩
  obtain ⟨earlier, later, hchunks⟩ := List.append_of_mem hchunk
  refine htogether secret hsecret hne (hshown.trans ?_)
  rw [hchunks, List.flatten_append, List.flatten_cons, ← List.append_assoc]
  exact ⟨_, _, rfl⟩

/-- `"bearer-1"` is read in one piece. -/
def read_whole : List CaptureAct :=
  [.read .stdout (.ok [0x62, 0x65, 0x61, 0x72, 0x65, 0x72, 0x2D, 0x31]), .add .stdout]

theorem captured_conceals_whole :
    Conceals ["bearer-1"] ((Capture.new.run ["bearer-1"] read_whole).chunks .stdout).flatten := by
  have hread : (Capture.reads ["bearer-1"] .stdout .new read_whole).map from_utf8_lossy =
      ["bearer-1".toList] := by decide +kernel
  have hseparable : Separable ["bearer-1"]
      ((Capture.reads ["bearer-1"] .stdout .new read_whole).map from_utf8_lossy) := by
    rw [hread]
    exact ⟨fun secret _ _ => caught_of_kept (by simp [is_retained, is_control]) _,
      .inl (by decide +kernel)⟩
  exact ((captured_conceals ["bearer-1"] read_whole).2 .stdout hseparable read_whole
    List.prefix_rfl).1

example : (Capture.new.run ["bearer-1"] read_whole).chunks .stdout = [MARK] := by decide +kernel

/-- `"bea"` and `"rer-1"` are read one after the other. -/
def read_in_two : List CaptureAct :=
  [.read .stdout (.ok [0x62, 0x65, 0x61]), .add .stdout,
    .read .stdout (.ok [0x72, 0x65, 0x72, 0x2D, 0x31]), .add .stdout]

/-- A NUL is written within `"bearer-1"`. -/
def read_with_control : List CaptureAct :=
  [.read .stderr (.ok [0x62, 0x65, 0x61, 0x00, 0x72, 0x65, 0x72, 0x2D, 0x31]), .add .stderr]

/-- A secret that the reads cut, one that a control character hides from the
    redaction, and one that the mark shows. -/
theorem captured_shows :
    ¬ Conceals ["bearer-1"] ((Capture.new.run ["bearer-1"] read_in_two).chunks .stdout).flatten ∧
    (∃ chunk ∈ (Capture.new.run ["bearer-1"] read_with_control).chunks .stderr,
      ¬ Conceals ["bearer-1"] chunk) ∧
    ∃ chunk ∈ (Capture.new.run ["bearer-1", "er-1", "e"] read_whole).chunks .stdout,
      ¬ Conceals ["bearer-1", "er-1", "e"] chunk := by
  decide +kernel

end Inferences.Engine
