import Inferences.Artifacts.Setup

/-!
# Downloading through a buffer

`download_verified` counts, hashes and writes the body it reads, and each of
the three advances on its own: the file is written through a `BufWriter`, which
holds bytes back and writes them later, as many at a time as the system takes,
and once more when it is dropped.

Here its writes are the single calls of the system, where `Setup` has one for
every read. Whatever calls fail, `download_verified` succeeds only when the
destination holds all the bytes read, counted and hashed; when it fails, the
destination is as it was; and at no time does the temporary file hold more than
the expected size (`download_verified_sound`). When no call fails and every write
takes something, it is the `download_verified` of `Setup`
(`run_download_verified`).
-/

namespace Inferences.Artifacts.Download

open Node Program

/-- The machine of the calls of the system: one that fails changes nothing. -/
def syscalls (host : Host) : Machine Op.Res (Option Node) where
  exec := exec host
  failed
  torn _ s s' := s' = s

/-! ## The buffer -/

/-- A `BufWriter` on a file: the bytes it holds back, and how many bytes the
    coming writes of the system take (all of them when it does not say). -/
structure BufWriter where
  buffer : Bytes := []
  accepts : List Nat

/-- The capacity of a `BufWriter`. -/
def CAPACITY : Nat := 8192

/-- Writing bytes until all are written or a write fails; the buffer left is
    what is not written. A write that takes nothing is an error. -/
def write_loop (path : Path) : List Nat → Bytes → Io (IoResult Unit × BufWriter)
  | accepts, [] => pure (.ok (), ⟨[], accepts⟩)
  | [], bytes => .call (.change (.append bytes) path) fun
    | .ok () => pure (.ok (), ⟨[], []⟩)
    | .error () => pure (.error (), ⟨bytes, []⟩)
  | n :: accepts, bytes =>
    if n = 0 then pure (.error (), ⟨bytes, accepts⟩)
    else .call (.change (.append (bytes.take n)) path) fun
      | .ok () => write_loop path accepts (bytes.drop n)
      | .error () => pure (.error (), ⟨bytes, accepts⟩)

/-- What is held back is written. -/
def BufWriter.flush_buf (path : Path) (self : BufWriter) : Io (IoResult Unit × BufWriter) :=
  write_loop path self.accepts self.buffer

/-- The part of `write_all_cold` after the flush: bytes that would fill the
    buffer are written at once. -/
def BufWriter.write_past (path : Path) (self : BufWriter) (bytes : Bytes) :
    Io (IoResult Unit × BufWriter) :=
  if CAPACITY ≤ bytes.length then do
    let (result, rest) ← write_loop path self.accepts bytes
    pure (result, { self with accepts := rest.accepts })
  else pure (.ok (), { self with buffer := self.buffer ++ bytes })

/-- Bytes are held back as long as there is room for them. -/
def BufWriter.write_all (path : Path) (self : BufWriter) (bytes : Bytes) :
    Io (IoResult Unit × BufWriter) :=
  let spare_capacity := CAPACITY - self.buffer.length
  if bytes.length < spare_capacity then
    pure (.ok (), { self with buffer := self.buffer ++ bytes })
  else if spare_capacity < bytes.length then do
    let (result, self) ← self.flush_buf path
    match result with
    | .error () => pure (.error (), self)
    | .ok () => self.write_past path bytes
  else self.write_past path bytes

/-! ## The download -/

/-- The loop of `download_verified`: the bytes received and those hashed, with
    the writer after it. -/
def copy (temporary : Path) (expected_size : Nat) (kind : String) (writer : BufWriter)
    (received : Nat) (hasher : Bytes) :
    List (IoResult Bytes) → Io (Except ArtifactError (Nat × Bytes) × BufWriter)
  | [] => pure (.ok (received, hasher), writer)
  | result :: reads => .call (.recv result) fun
    | .error () => pure (.error .Filesystem, writer)
    | .ok [] => pure (.ok (received, hasher), writer)
    | .ok buffer =>
      match u64_checked_add received buffer.length with
      | none => pure (.error (.Integrity kind), writer)
      | some received =>
        if expected_size < received then pure (.error (.Integrity kind), writer)
        else do
          let (result, writer) ← writer.write_all temporary buffer
          match result with
          | .error () => pure (.error .Filesystem, writer)
          | .ok () => copy temporary expected_size kind writer received (hasher ++ buffer) reads

section
variable (host : Host) (temporary destination : Path) (expected_size : Nat)
  (expected_sha256 kind : String)

/-- The end of `download_verified`, when all is on the disk. -/
def conclude (received : Nat) (hasher : Bytes) : Io Unit := do
  if received ≠ expected_size || host.sha256 hasher ≠ expected_sha256 then
    ignore (change .remove_file temporary)
    throw (.Integrity kind)
  else rename temporary destination

/-- The part of `download_verified` after the loop. -/
def finish (writer : BufWriter) (received : Nat) (hasher : Bytes) :
    Io (Except ArtifactError Unit × BufWriter) := do
  let (result, writer) ← writer.flush_buf temporary
  match result with
  | .error () => pure (.error .Filesystem, writer)
  | .ok () =>
    let result ← (do
      service .sync_all
      conclude host temporary destination expected_size expected_sha256 kind received
        hasher).attempt
    pure (result, writer)

/-- The part of `download_verified` that holds the writer. -/
def receive (accepts : List Nat) (reads : List (IoResult Bytes)) :
    Io (Except ArtifactError Unit × BufWriter) := do
  let (result, writer) ← copy temporary expected_size kind { accepts } 0 [] reads
  match result with
  | .error e => pure (.error e, writer)
  | .ok (received, hasher) =>
    finish host temporary destination expected_size expected_sha256 kind writer received hasher

end

/-- `download_verified`, with the writer dropped at its end: what it holds back
    is then written, if it can be. -/
def download_verified (host : Host) (accepts : List Nat) (url : String) (destination : Path)
    (expected_size : Nat) (expected_sha256 kind : String) : Io Unit := do
  lift (validate_https host url)
  let response ← send url
  fail_if (response.content_length.any (· ≠ expected_size)) (.Integrity kind)
  let temporary := part_path destination
  change .create temporary
  let (result, writer) ← receive host temporary destination expected_size expected_sha256 kind
    accepts response.reads
  let _ ← writer.flush_buf temporary
  lift result

/-- `Path::extension`, of a file name. -/
def extension (name : String) : Option String :=
  match name.toList.splitOn '.' with
  | [_] => none
  | [[], _] => none
  | parts => parts.getLast?.map String.ofList

example : extension "model.part" = some "part" ∧ extension ".part" = none ∧
    extension "part" = none ∧ extension "model.part.gguf" = some "gguf" := by decide

/-! ## What it comes to -/

/-- The bytes read of a response, when it is read to its end: the end of the
    list, or a read of no byte. -/
inductive Delivers : List (IoResult Bytes) → Bytes → Prop
  | nil : Delivers [] []
  | stop (reads : List (IoResult Bytes)) : Delivers (.ok [] :: reads) []
  | more {buffer body : Bytes} {reads : List (IoResult Bytes)} (hbuffer : buffer ≠ [])
      (h : Delivers reads body) : Delivers (.ok buffer :: reads) (buffer ++ body)

/-- Reading the file at the path gives the content. -/
def Reads (path : Path) (s : Option Node) (content : Bytes) : Prop :=
  (find path s).bind follow = some (.file content)

section
variable (host : Host) (url : String) (directory : Path) (name : String) (expected_size : Nat)
  (expected_sha256 : String) (before : Option Node)

/-- The destination is as it was before, and the temporary file is too or holds
    no more than the expected size. -/
structure Safe (s : Option Node) : Prop where
  untouched : find (directory ++ [name]) s = find (directory ++ [name]) before
  bounded : find (part_path (directory ++ [name])) s =
      find (part_path (directory ++ [name])) before ∨
    ∀ content, Reads (part_path (directory ++ [name])) s content → content.length ≤ expected_size

/-- The destination holds the whole body of the response, of the expected size
    and digest, and there is no temporary file. -/
structure Verified (s : Option Node) : Prop where
  body : ∃ response body, host.send url = .ok response ∧ Delivers response.reads body ∧
    body.length = expected_size ∧ host.sha256 body = expected_sha256 ∧
    Reads (directory ++ [name]) s body
  moved : find (part_path (directory ++ [name])) s = none

/-- What a download returns, and leaves. -/
def Sound (result : Except ArtifactError Unit) (s : Option Node) : Prop :=
  (result = .ok () → Verified host url directory name expected_size expected_sha256 s) ∧
    (result ≠ .ok () → Safe directory name expected_size before s)

end

/-! ## System calls -/

variable {host : Host} {directory : Path} {name : String} {expected_size : Nat}
  {before s : Option Node}

theorem follow_overwrite {f : Bytes → Bytes} : (node : Node) → {node' : Node} →
    {content : Bytes} → overwrite f node = some node' → node.follow = some (.file content) →
    node'.follow = some (.file (f content))
  | .file _, _, _, h, hfollow => by
    cases h
    cases hfollow
    rfl
  | .link target, node', content, h, hfollow => by
    obtain ⟨target', htarget, rfl⟩ := Option.map_eq_some_iff.1 h
    have htarget' := follow_overwrite target htarget hfollow
    exact htarget'
  | .dead_link, _, _, _, hfollow => by cases hfollow
  | .dir _, _, _, h, _ | .other, _, _, h, _ => by cases h

/-- A file overwritten with the same, whatever it held. -/
theorem follow_overwrite_const {content : Bytes} : (node : Node) → {node' : Node} →
    overwrite (fun _ => content) node = some node' → node'.follow = some (.file content)
  | .file _, _, h | .dead_link, _, h => by
    cases h
    rfl
  | .link target, node', h => by
    obtain ⟨target', htarget, rfl⟩ := Option.map_eq_some_iff.1 h
    have hfollow := follow_overwrite_const target htarget
    exact hfollow
  | .dir _, _, h | .other, _, h => by cases h

theorem reads_append {path : Path} {bytes content : Bytes} {s' : Option Node}
    (h : (Change.append bytes).apply path s = some s') (hreads : Reads path s content) :
    Reads path s' (content ++ bytes) := by
  have hact := find_alter_self h
  obtain ⟨node, hnode, hfollow⟩ := Option.bind_eq_some_iff.1 hreads
  rw [hnode] at hact
  obtain ⟨node', hoverwrite, hnode'⟩ := Option.map_eq_some_iff.1 hact
  rw [Reads, ← hnode']
  exact follow_overwrite (f := (· ++ bytes)) node hoverwrite hfollow

theorem reads_create {path : Path} {s' : Option Node}
    (h : Change.create.apply path s = some s') : Reads path s' [] := by
  have hact := find_alter_self h
  rw [Reads]
  cases hnode : find path s with
  | none =>
    rw [hnode] at hact
    obtain hfile := Option.some.inj hact
    rw [← hfile]
    rfl
  | some node =>
    rw [hnode] at hact
    obtain ⟨node', hoverwrite, hnode'⟩ := Option.map_eq_some_iff.1 hact
    rw [← hnode']
    exact follow_overwrite_const node hoverwrite

theorem part_path_append (directory : Path) (name : String) :
    part_path (directory ++ [name]) = directory ++ [with_extension name "part"] := by
  simp [part_path]

theorem concat_apart (directory : Path) {name other : String} (h : name ≠ other) :
    ¬ directory ++ [name] <+: directory ++ [other] := by
  rw [List.prefix_append_right_inj, List.cons_prefix_cons]
  exact fun hp => h hp.1

section

variable {ε α : Type} {I : Option Node → Prop} {Q : Except ε α → Option Node → Prop}

/-- A change that is made, or is not. -/
theorem withstands_change {c : Change} {path : Path} {next : IoResult Unit → Program Op.Res ε α}
    (hs : I s)
    (hok : ∀ s', c.apply path s = some s' → Withstands (syscalls host) (next (.ok ())) s' I Q)
    (herror : Withstands (syscalls host) (next (.error ())) s I Q) :
    Withstands (syscalls host) (.call (.change c path) next) s I Q := by
  refine withstands_call (fun _ ht => ht ▸ hs) ?_ fun _ ht => ht ▸ herror
  change Withstands _ (next (done s (c.apply path s)).1) (done s (c.apply path s)).2 I Q
  cases happly : c.apply path s with
  | none => exact herror
  | some s' => exact hok s' happly

theorem withstands_rename {source target : Path} {next : IoResult Unit → Program Op.Res ε α}
    (hs : I s)
    (hok : ∀ s', rename_node source target s = some s' →
      Withstands (syscalls host) (next (.ok ())) s' I Q)
    (herror : Withstands (syscalls host) (next (.error ())) s I Q) :
    Withstands (syscalls host) (.call (.rename source target) next) s I Q := by
  refine withstands_call (fun _ ht => ht ▸ hs) ?_ fun _ ht => ht ▸ herror
  change Withstands _ (next (done s (rename_node source target s)).1)
    (done s (rename_node source target s)).2 I Q
  cases hrename : rename_node source target s with
  | none => exact herror
  | some s' => exact hok s' hrename

/-- An operation that leaves the tree alone. -/
theorem withstands_still {op : Op} {next : op.Res → Program Op.Res ε α} (hs : I s)
    (hop : (exec host op s).2 = s)
    (hnext : Withstands (syscalls host) (next (exec host op s).1) s I Q)
    (hfail : Withstands (syscalls host) (next (failed op)) s I Q) :
    Withstands (syscalls host) (.call op next) s I Q := by
  refine withstands_call (fun _ ht => ht ▸ hs) ?_ fun _ ht => ht ▸ hfail
  change Withstands _ (next (exec host op s).1) (exec host op s).2 I Q
  rwa [hop]

end

/-! ## The writer -/

section

variable (directory name before)

/-- The temporary file holds the content, and the destination is as it was. -/
structure Holding (content : Bytes) (s : Option Node) : Prop where
  reads : Reads (part_path (directory ++ [name])) s content
  untouched : find (directory ++ [name]) s = find (directory ++ [name]) before

/-- What the writer was given is in the file, or held back. -/
def Written (all : Bytes) (writer : BufWriter) (s : Option Node) : Prop :=
  ∃ content, Holding directory name before content s ∧ content ++ writer.buffer = all

/-- The file is within a bound, with what the writer holds back. -/
def Within (bound : Nat) (writer : BufWriter) (s : Option Node) : Prop :=
  ∃ content, Holding directory name before content s ∧
    content.length + writer.buffer.length ≤ bound

end

variable {content all bytes : Bytes} {writer : BufWriter}

theorem Holding.safe (h : Holding directory name before content s)
    (hle : content.length ≤ expected_size) : Safe directory name expected_size before s := by
  refine ⟨h.untouched, .inr fun other hother => ?_⟩
  obtain rfl : content = other := by simpa using h.reads.symm.trans hother
  exact hle

theorem Holding.append (hpart : with_extension name "part" ≠ name)
    (h : Holding directory name before content s) {s' : Option Node}
    (happly : (Change.append bytes).apply (part_path (directory ++ [name])) s = some s') :
    Holding directory name before (content ++ bytes) s' := by
  refine ⟨reads_append happly h.reads, ?_⟩
  rw [part_path_append] at happly
  exact (find_alter_apart (concat_apart directory hpart) (concat_apart directory hpart.symm)
    happly).trans h.untouched

theorem Written.within (h : Written directory name before all writer s)
    (hle : all.length ≤ expected_size) : Within directory name before expected_size writer s := by
  obtain ⟨content, hholding, rfl⟩ := h
  rw [List.length_append] at hle
  exact ⟨content, hholding, hle⟩

theorem Within.safe (h : Within directory name before expected_size writer s) :
    Safe directory name expected_size before s := by
  obtain ⟨content, hholding, hle⟩ := h
  exact hholding.safe (by omega)

/-- Bytes that are held back are written later. -/
theorem Written.hold (h : Written directory name before all writer s) (bytes : Bytes) :
    Written directory name before (all ++ bytes) { writer with buffer := writer.buffer ++ bytes }
      s := by
  obtain ⟨content, hholding, rfl⟩ := h
  exact ⟨content, hholding, (List.append_assoc ..).symm⟩

/-- Writing what is held back: what was given is still in the file or held back,
    and nothing is held back after a success. -/
theorem write_loop_spec (host : Host) (hpart : with_extension name "part" ≠ name)
    (accepts : List Nat) (hholding : Holding directory name before content s)
    (hle : (content ++ bytes).length ≤ expected_size) :
    Withstands (syscalls host) (write_loop (part_path (directory ++ [name])) accepts bytes) s
      (Safe directory name expected_size before) <| Answers fun out s' =>
        Written directory name before (content ++ bytes) out.2 s' ∧
          (out.1 = .ok () → out.2.buffer = []) := by
  have hsafe : Safe directory name expected_size before s :=
    hholding.safe (by rw [List.length_append] at hle; omega)
  induction accepts generalizing s content bytes with
  | nil =>
    cases bytes with
    | nil => exact withstands_pure ⟨⟨content, hholding, rfl⟩, fun _ => rfl⟩
    | cons b bytes =>
      refine withstands_change hsafe (fun s' happly => ?_) ?_
      · exact withstands_pure ⟨⟨_, hholding.append hpart happly, List.append_nil _⟩, fun _ => rfl⟩
      · exact withstands_pure ⟨⟨content, hholding, rfl⟩, nofun⟩
  | cons n accepts ih =>
    cases bytes with
    | nil => exact withstands_pure ⟨⟨content, hholding, rfl⟩, fun _ => rfl⟩
    | cons b bytes =>
      simp only [write_loop]
      split
      · exact withstands_pure ⟨⟨content, hholding, rfl⟩, nofun⟩
      · refine withstands_change hsafe (fun s' happly => ?_) ?_
        · -- The part written has gone from the buffer to the file.
          have hall : (content ++ (b :: bytes).take n) ++ (b :: bytes).drop n =
              content ++ b :: bytes := by
            rw [List.append_assoc, List.take_append_drop]
          have hholding' := hholding.append hpart happly
          have hrest := ih hholding' (by rwa [hall]) (hholding'.safe ?_)
          · rwa [hall] at hrest
          · rw [← hall, List.length_append] at hle
            omega
        · exact withstands_pure ⟨⟨content, hholding, rfl⟩, nofun⟩

theorem flush_buf_spec (host : Host) (hpart : with_extension name "part" ≠ name)
    (h : Written directory name before all writer s) (hle : all.length ≤ expected_size) :
    Withstands (syscalls host) (writer.flush_buf (part_path (directory ++ [name]))) s
      (Safe directory name expected_size before) <| Answers fun out s' =>
        Written directory name before all out.2 s' ∧ (out.1 = .ok () → out.2.buffer = []) := by
  obtain ⟨content, hholding, rfl⟩ := h
  exact write_loop_spec host hpart writer.accepts hholding hle

/-- Bytes given to the writer are written or held back when that succeeds; else
    no more than them is. -/
theorem write_past_spec (host : Host) (hpart : with_extension name "part" ≠ name)
    (h : Written directory name before all writer s)
    (hempty : CAPACITY ≤ bytes.length → writer.buffer = [])
    (hle : (all ++ bytes).length ≤ expected_size) :
    Withstands (syscalls host) (writer.write_past (part_path (directory ++ [name])) bytes) s
      (Safe directory name expected_size before) <| Answers fun out s' =>
        Within directory name before expected_size out.2 s' ∧
          (out.1 = .ok () → Written directory name before (all ++ bytes) out.2 s') := by
  unfold BufWriter.write_past
  split
  · rename_i hlarge
    obtain ⟨content, hholding, rfl⟩ := h
    obtain ⟨buffer, accepts⟩ := writer
    obtain rfl : buffer = [] := hempty hlarge
    rw [List.append_nil] at hle ⊢
    refine withstands_bind_answers (write_loop_spec host hpart accepts hholding hle) ?_
    rintro ⟨result, rest⟩ s' ⟨⟨written, hwritten, hall⟩, hdone⟩
    have hlength := congrArg List.length hall
    rw [List.length_append] at hlength
    refine withstands_pure ⟨⟨written, hwritten, ?_⟩, fun hok => ⟨written, hwritten, ?_⟩⟩
    · simp only [List.length_nil]
      omega
    · -- All was written at once: the buffer is still empty.
      rwa [hdone hok] at hall
  · exact withstands_pure ⟨(h.hold bytes).within hle, fun _ => h.hold bytes⟩

theorem write_all_spec (host : Host) (hpart : with_extension name "part" ≠ name)
    (h : Written directory name before all writer s)
    (hle : (all ++ bytes).length ≤ expected_size) :
    Withstands (syscalls host) (writer.write_all (part_path (directory ++ [name])) bytes) s
      (Safe directory name expected_size before) <| Answers fun out s' =>
        Within directory name before expected_size out.2 s' ∧
          (out.1 = .ok () → Written directory name before (all ++ bytes) out.2 s') := by
  have hall : all.length ≤ expected_size := by
    rw [List.length_append] at hle
    omega
  simp only [BufWriter.write_all]
  split
  · exact withstands_pure ⟨(h.hold bytes).within hle, fun _ => h.hold bytes⟩
  · split
    · refine withstands_bind_answers (flush_buf_spec host hpart h hall) ?_
      rintro ⟨⟨⟩ | ⟨⟩, writer'⟩ s' ⟨hwritten, hempty⟩
      · exact withstands_pure ⟨hwritten.within hall, nofun⟩
      · exact write_past_spec host hpart hwritten (fun _ => hempty rfl) hle
    · -- The bytes fill the buffer exactly: it is empty when they are as many as it holds.
      rename_i hfull hspare
      refine write_past_spec host hpart h (fun hlarge => ?_) hle
      rw [← List.length_eq_zero_iff]
      have : 0 < CAPACITY := by decide
      omega

/-! ## The loop -/

theorem copy_spec (host : Host) (hpart : with_extension name "part" ≠ name) (kind : String)
    {received : Nat} {hasher : Bytes} (h : Written directory name before hasher writer s)
    (hreceived : received = hasher.length) (hle : received ≤ expected_size)
    (reads : List (IoResult Bytes)) :
    Withstands (syscalls host)
      (copy (part_path (directory ++ [name])) expected_size kind writer received hasher reads) s
      (Safe directory name expected_size before) <| Answers fun out s' =>
        Within directory name before expected_size out.2 s' ∧
          ∀ received' hasher', out.1 = .ok (received', hasher') →
            Written directory name before hasher' out.2 s' ∧ received' = hasher'.length ∧
              received' ≤ expected_size ∧
              ∃ body, Delivers reads body ∧ hasher' = hasher ++ body := by
  induction reads generalizing s writer received hasher with
  | nil =>
    refine withstands_pure ⟨h.within (hreceived ▸ hle), ?_⟩
    rintro _ _ ⟨⟩
    exact ⟨h, hreceived, hle, [], .nil, (List.append_nil _).symm⟩
  | cons result reads ih =>
    have hwithin := h.within (hreceived ▸ hle)
    have hstop (e : ArtifactError) : Withstands (syscalls host)
        (pure (.error e, writer) : Io (Except ArtifactError (Nat × Bytes) × BufWriter)) s
        (Safe directory name expected_size before) <| Answers fun out s' =>
          Within directory name before expected_size out.2 s' ∧
            ∀ received' hasher', out.1 = .ok (received', hasher') →
              Written directory name before hasher' out.2 s' ∧ received' = hasher'.length ∧
                received' ≤ expected_size ∧
                ∃ body, Delivers (result :: reads) body ∧ hasher' = hasher ++ body :=
      withstands_pure ⟨hwithin, nofun⟩
    refine withstands_still hwithin.safe rfl ?_ (hstop .Filesystem)
    change Withstands _ (match result with | _ => _) _ _ _
    cases result with
    | error e => exact hstop .Filesystem
    | ok buffer =>
      cases buffer with
      | nil =>
        refine withstands_pure ⟨hwithin, ?_⟩
        rintro _ _ ⟨⟩
        exact ⟨h, hreceived, hle, [], .stop reads, (List.append_nil _).symm⟩
      | cons b buffer =>
        simp only [exec]
        cases hadd : u64_checked_add received (b :: buffer).length with
        | none => exact hstop (.Integrity kind)
        | some received' =>
          obtain ⟨-, rfl⟩ : _ ∧ received + (b :: buffer).length = received' := by
            simpa only [u64_checked_add, Option.ite_none_right_eq_some, Option.some.injEq]
              using hadd
          simp only []
          split
          · exact hstop (.Integrity kind)
          · rename_i hbound
            have hlength : (hasher ++ b :: buffer).length = received + (b :: buffer).length := by
              rw [List.length_append, hreceived]
            refine withstands_bind_answers
              (write_all_spec host hpart h (hlength ▸ not_lt.1 hbound)) ?_
            rintro ⟨⟨⟩ | ⟨⟩, writer'⟩ s' ⟨hwithin', hwritten⟩
            · exact withstands_pure ⟨hwithin', nofun⟩
            -- the rest of the reads goes on with what is written and hashed by now
            · refine (ih (hwritten rfl) hlength.symm (not_lt.1 hbound)).mono ?_
              rintro - s'' ⟨out, rfl, hout, hread⟩
              refine ⟨out, rfl, hout, fun received' hasher' hok => ?_⟩
              obtain ⟨hwritten', hcount, hle', body, hdelivers, rfl⟩ := hread received' hasher' hok
              exact ⟨hwritten', hcount, hle', b :: buffer ++ body, .more nofun hdelivers,
                List.append_assoc ..⟩

/-! ## The whole download -/

/-- What is returned, with the writer to drop, when the body could be received:
    a success with nothing held back, or an error. -/
structure Received (host : Host) (url : String) (directory : Path) (name : String)
    (expected_size : Nat) (expected_sha256 : String) (before : Option Node)
    (out : Except ArtifactError Unit × BufWriter) (s : Option Node) : Prop where
  ok : out.1 = .ok () → out.2.buffer = [] ∧
    Verified host url directory name expected_size expected_sha256 s
  error : out.1 ≠ .ok () → Within directory name before expected_size out.2 s ∨
    out.2.buffer = [] ∧ Safe directory name expected_size before s

/-- Removing the temporary file leaves the destination alone. -/
theorem Holding.remove (hpart : with_extension name "part" ≠ name)
    (h : Holding directory name before content s) {s' : Option Node}
    (happly : Change.remove_file.apply (part_path (directory ++ [name])) s = some s') :
    Safe directory name expected_size before s' := by
  have hact := find_alter_self happly
  have hnone : find (part_path (directory ++ [name])) s' = none := by
    cases hnode : find (part_path (directory ++ [name])) s with
    | none => simp [hnode, Change.act] at hact
    | some node => cases node <;> simp_all [Change.act]
  rw [part_path_append] at happly
  refine ⟨(find_alter_apart (concat_apart directory hpart) (concat_apart directory hpart.symm)
    happly).trans h.untouched, .inr fun content hcontent => ?_⟩
  rw [Reads, hnone] at hcontent
  cases hcontent

/-- Moving the temporary file to the destination. -/
theorem Holding.rename (hpart : with_extension name "part" ≠ name)
    (h : Holding directory name before content s) {s' : Option Node}
    (hrename : rename_node (part_path (directory ++ [name])) (directory ++ [name]) s = some s') :
    Reads (directory ++ [name]) s' content ∧
      find (part_path (directory ++ [name])) s' = none := by
  have hne : part_path (directory ++ [name]) ≠ directory ++ [name] := by
    rw [part_path_append]
    simpa using hpart
  obtain ⟨node, hnode, hfollow⟩ := Option.bind_eq_some_iff.1 h.reads
  rw [rename_node, if_neg hne, hnode] at hrename
  simp only [Option.bind_eq_bind, Option.bind_some] at hrename
  rw [Option.ite_none_right_eq_some] at hrename
  obtain ⟨-, hrename⟩ := hrename
  obtain ⟨middle, hremove, hplace⟩ := Option.bind_eq_some_iff.1 hrename
  have htarget : some node = find (directory ++ [name]) s' :=
    Option.some.inj (find_alter_self hplace)
  have hsource : none = find (part_path (directory ++ [name])) middle :=
    Option.some.inj (find_alter_self hremove)
  refine ⟨by rw [Reads, ← htarget]; exact hfollow, ?_⟩
  rw [part_path_append] at hsource ⊢
  rw [find_alter_apart (concat_apart directory hpart.symm) (concat_apart directory hpart) hplace,
    ← hsource]

section

variable {url expected_sha256 : String} {response : Response} {received : Nat} {hasher : Bytes}

/-- The end of the download, with all of the body in the temporary file. -/
theorem conclude_spec (hpart : with_extension name "part" ≠ name) (kind : String)
    (hsend : host.send url = .ok response) (hbody : Delivers response.reads hasher)
    (hreceived : received = hasher.length) (hle : received ≤ expected_size)
    (h : Holding directory name before hasher s) :
    Withstands (syscalls host)
      (conclude host (part_path (directory ++ [name])) (directory ++ [name]) expected_size
        expected_sha256 kind received hasher) s
      (Safe directory name expected_size before)
      (Sound host url directory name expected_size expected_sha256 before) := by
  have hsafe := h.safe (hreceived ▸ hle)
  unfold conclude
  split
  · refine withstands_change hsafe (fun s' happly => ?_) ?_
    · exact withstands_done ⟨nofun, fun _ => h.remove hpart happly⟩
    · exact withstands_done ⟨nofun, fun _ => hsafe⟩
  · rename_i hmatch
    simp only [ne_eq, decide_not, Bool.or_eq_true, Bool.not_eq_true', decide_eq_false_iff_not,
      not_or, not_not] at hmatch
    refine withstands_rename hsafe (fun s' hrename => ?_) ?_
    · obtain ⟨hreads, hnone⟩ := h.rename hpart hrename
      exact withstands_done ⟨fun _ => ⟨⟨response, hasher, hsend, hbody,
        hreceived.symm.trans hmatch.1, hmatch.2, hreads⟩, hnone⟩, by simp⟩
    · exact withstands_done ⟨by simp, fun _ => hsafe⟩

theorem finish_spec (hpart : with_extension name "part" ≠ name) (kind : String)
    (hsend : host.send url = .ok response) (hbody : Delivers response.reads hasher)
    (hreceived : received = hasher.length) (hle : received ≤ expected_size)
    (h : Written directory name before hasher writer s) :
    Withstands (syscalls host)
      (finish host (part_path (directory ++ [name])) (directory ++ [name]) expected_size
        expected_sha256 kind writer received hasher) s
      (Safe directory name expected_size before) <|
      Answers (Received host url directory name expected_size expected_sha256 before) := by
  have hlength : hasher.length ≤ expected_size := hreceived ▸ hle
  refine withstands_bind_answers (flush_buf_spec host hpart h hlength) ?_
  rintro ⟨⟨⟩ | ⟨⟩, writer'⟩ s' ⟨hwritten, hempty⟩
  · exact withstands_pure ⟨nofun, fun _ => .inl (hwritten.within hlength)⟩
  · -- All is in the file: the writer has nothing more to do.
    have hnothing := hempty rfl
    obtain ⟨content, hholding, hall⟩ := hwritten
    obtain rfl : content = hasher := by rwa [hnothing, List.append_nil] at hall
    have hsafe := hholding.safe hlength
    have hend : Withstands (syscalls host) (do
        service .sync_all
        conclude host (part_path (directory ++ [name])) (directory ++ [name]) expected_size
          expected_sha256 kind received content) s' (Safe directory name expected_size before)
        (Sound host url directory name expected_size expected_sha256 before) :=
      withstands_still hsafe rfl (conclude_spec hpart kind hsend hbody hreceived hle hholding)
        (withstands_done ⟨nofun, fun _ => hsafe⟩)
    refine withstands_bind_answers (withstands_attempt (hend.mono fun r s'' hr =>
      ⟨r, rfl, hr⟩)) fun r s'' hr => ?_
    exact withstands_pure ⟨fun hok => ⟨hnothing, hr.1 hok⟩, fun herror =>
      .inr ⟨hnothing, hr.2 herror⟩⟩

theorem receive_spec (hpart : with_extension name "part" ≠ name) (kind : String)
    (accepts : List Nat) (hsend : host.send url = .ok response)
    (h : Holding directory name before [] s) :
    Withstands (syscalls host)
      (receive host (part_path (directory ++ [name])) (directory ++ [name]) expected_size
        expected_sha256 kind accepts response.reads) s
      (Safe directory name expected_size before) <|
      Answers (Received host url directory name expected_size expected_sha256 before) := by
  have hwritten : Written directory name before [] { accepts } s := ⟨[], h, rfl⟩
  refine withstands_bind_answers
    (copy_spec host hpart kind hwritten rfl (Nat.zero_le _) response.reads) ?_
  rintro ⟨e | ⟨received, hasher⟩, writer⟩ s' ⟨hwithin, hread⟩
  · exact withstands_pure ⟨nofun, fun _ => .inl hwithin⟩
  · obtain ⟨hwritten', hreceived, hle, body, hbody, rfl⟩ := hread received hasher rfl
    exact finish_spec hpart kind hsend hbody hreceived hle hwritten'

/-- The writer is dropped: what it holds back is written, if it can be. -/
theorem drop_spec (hpart : with_extension name "part" ≠ name)
    {out : Except ArtifactError Unit × BufWriter}
    (h : Received host url directory name expected_size expected_sha256 before out s) :
    Withstands (syscalls host) (do
        let _ ← out.2.flush_buf (part_path (directory ++ [name]))
        lift out.1) s (Safe directory name expected_size before)
      (Sound host url directory name expected_size expected_sha256 before) := by
  obtain ⟨result, ⟨buffer, accepts⟩⟩ := out
  have hempty (hnil : buffer = [])
      (hs : Sound host url directory name expected_size expected_sha256 before result s) :
      Withstands (syscalls host) (do
          let _ ← (⟨buffer, accepts⟩ : BufWriter).flush_buf (part_path (directory ++ [name]))
          lift result) s (Safe directory name expected_size before)
      (Sound host url directory name expected_size expected_sha256 before) := by
    subst hnil
    cases accepts <;> exact withstands_done hs
  by_cases hok : result = .ok ()
  · obtain ⟨hnil, hverified⟩ := h.ok hok
    exact hempty hnil ⟨fun _ => hverified, fun hne => absurd hok hne⟩
  · -- after an error, the writer may still write what it holds back
    rcases h.error hok with ⟨content, hholding, hle⟩ | ⟨hnil, hsafe⟩
    · refine withstands_bind_answers
        (flush_buf_spec host hpart ⟨content, hholding, rfl⟩ (by simpa using hle)) ?_
      rintro out s' ⟨hwritten, -⟩
      exact withstands_done ⟨fun hr => absurd hr hok, fun _ =>
        (hwritten.within (by simpa using hle)).safe⟩
    · exact hempty hnil ⟨fun hr => absurd hr hok, fun _ => hsafe⟩

end

/-! ## The name of the temporary file -/

theorem intercalate_concat {α : Type*} (sep : α) (parts : List (List α)) (h : parts ≠ [])
    (last : List α) :
    [sep].intercalate (parts ++ [last]) = [sep].intercalate parts ++ sep :: last := by
  induction parts with
  | nil => exact absurd rfl h
  | cons part parts ih =>
    by_cases hparts : parts = []
    · subst hparts
      simp [List.intercalate_cons_cons]
    · rw [List.cons_append, List.intercalate_cons_of_ne_nil (by simp),
        List.intercalate_cons_of_ne_nil hparts, ih hparts, List.append_assoc, List.append_assoc,
        List.append_assoc]

/-- Only a name with the extension `part` is that of its own temporary file. -/
theorem with_extension_ne {name : String} (h : extension name ≠ some "part") :
    with_extension name "part" ≠ name := by
  have hjoin : ['.'].intercalate (name.toList.splitOn '.') = name.toList :=
    List.intercalate_splitOn '.'
  have hparts : name.toList.splitOn '.' ≠ [] := List.splitOn_ne_nil _ _
  have hlonger : name ++ "." ++ "part" ≠ name := by
    intro heq
    have hlength := congrArg String.length heq
    simp only [String.length_append] at hlength
    have hdot : "part".length = 4 := rfl
    omega
  intro heq
  unfold with_extension at heq
  unfold extension at h
  generalize name.toList.splitOn '.' = parts at heq h hjoin hparts
  split at heq
  · exact hlonger heq
  · exact hlonger heq
  · rename_i hnil hdot
    -- The name is all its parts but the last, a dot, and the last part.
    rw [← List.dropLast_append_getLast hparts, intercalate_concat _ _ hnil] at hjoin
    have hlist := congrArg String.toList heq
    simp only [String.toList_append, String.toList_ofList, List.append_assoc] at hlist
    rw [← hjoin, List.append_cancel_left_eq] at hlist
    have hlast : parts.getLast hparts = ['p', 'a', 'r', 't'] := (List.cons.inj hlist).2.symm
    split at h
    · exact hnil rfl
    · exact hdot rfl
    · rw [List.getLast?_eq_some_getLast hparts, hlast] at h
      exact h rfl

/-- Whatever calls fail, and wherever `download_verified` is looked at. -/
theorem download_verified_sound (host : Host) (accepts : List Nat) (url : String)
    (directory : Path) {name : String} (hname : extension name ≠ some "part")
    (expected_size : Nat) (expected_sha256 kind : String) {before after : Option Node}
    {result : Option (Except ArtifactError Unit)}
    (h : Faulty (syscalls host) (fun _ _ => True)
      (download_verified host accepts url (directory ++ [name]) expected_size expected_sha256 kind)
      before result after) :
    (result = some (.ok ()) →
        Verified host url directory name expected_size expected_sha256 after) ∧
      (result ≠ some (.ok ()) → Safe directory name expected_size before after) := by
  have hpart := with_extension_ne hname
  have hbefore : Safe directory name expected_size before before := ⟨rfl, .inl rfl⟩
  have hstop (e : ArtifactError) : Withstands (syscalls host) (throw e : Io Unit) before
      (Safe directory name expected_size before)
      (Sound host url directory name expected_size expected_sha256 before) :=
    withstands_done ⟨nofun, fun _ => hbefore⟩
  have hwithstands : Withstands (syscalls host)
      (download_verified host accepts url (directory ++ [name]) expected_size expected_sha256 kind)
      before (Safe directory name expected_size before)
      (Sound host url directory name expected_size expected_sha256 before) := by
    unfold download_verified
    cases validate_https host url with
    | error e => exact hstop e
    | ok =>
      refine withstands_still hbefore rfl ?_ (hstop _)
      simp only [exec]
      cases hsend : host.send url with
      | error e => exact hstop .Download
      | ok response =>
        change Withstands _ (fail_if (response.content_length.any (· ≠ expected_size))
          (.Integrity kind) >>= _) _ _ _
        unfold fail_if
        split
        · exact hstop (.Integrity kind)
        · refine withstands_change hbefore (fun s hcreate => ?_) (hstop .Filesystem)
          have hholding : Holding directory name before [] s := by
            refine ⟨reads_create hcreate, ?_⟩
            rw [part_path_append] at hcreate
            exact find_alter_apart (concat_apart directory hpart)
              (concat_apart directory hpart.symm) hcreate
          change Withstands _ (receive host _ _ expected_size expected_sha256 kind accepts
            response.reads >>= _) s _ _
          exact withstands_bind_answers (receive_spec hpart kind accepts hsend hholding)
            fun out s' hreceived => drop_spec hpart hreceived
  have hend := hwithstands result after h
  cases result with
  | none => exact ⟨nofun, fun _ => hend⟩
  | some r =>
    exact ⟨fun hr => hend.1 (Option.some.inj hr), fun hr => hend.2 fun heq => hr (heq ▸ rfl)⟩

/-- A host whose network answers with two reads. -/
def two_reads : Host where
  embedded_manifest := none
  host_target := none
  parse_url _ := some ⟨"https", some "localhost"⟩
  sha256 bytes :=
    if bytes = [1, 2, 3, 4] then
      "9f64a747e1b97f131fabb6b447296c9b6f0201e79fb3c5356e6c77e89b6a806a"
    else ""
  to_vec_pretty _ := none
  from_slice _ := none
  zip _ := none
  tar _ := none
  send _ := .ok ⟨none, [.ok [1, 2, 3], .ok [4]]⟩

/-- Downloading the two reads, which the system writes one byte first. -/
def two_reads_download : Io Unit :=
  download_verified two_reads [1] "https://localhost/model" ["model.gguf"] 4
    "9f64a747e1b97f131fabb6b447296c9b6f0201e79fb3c5356e6c77e89b6a806a" "model"

/-- The download succeeds, and holds the two reads; when its second write fails,
    it leaves no model. -/
theorem download_verified_sound_two_reads :
    Verified two_reads "https://localhost/model" [] "model.gguf" 4
        "9f64a747e1b97f131fabb6b447296c9b6f0201e79fb3c5356e6c77e89b6a806a"
        (run (syscalls two_reads) two_reads_download (some (.dir []))).2 ∧
      Safe [] "model.gguf" 4 (some (.dir []))
        (falter (syscalls two_reads) 5 two_reads_download (some (.dir []))).2 := by
  have hname : extension "model.gguf" ≠ some "part" := by decide
  have hok : (run (syscalls two_reads) two_reads_download (some (.dir []))).1 = .ok () := by
    decide +kernel
  have herror : (falter (syscalls two_reads) 5 two_reads_download (some (.dir []))).1 =
      .error .Filesystem := by
    decide +kernel
  refine ⟨?_, ?_⟩
  · refine (download_verified_sound two_reads [1] "https://localhost/model" [] hname 4 _ "model"
      (.of_run two_reads_download _)).1 ?_
    rw [hok]
  · refine (download_verified_sound two_reads [1] "https://localhost/model" [] hname 4
      "9f64a747e1b97f131fabb6b447296c9b6f0201e79fb3c5356e6c77e89b6a806a" "model"
      (.of_falter (fun _ _ => trivial) (fun _ _ => rfl) 5 two_reads_download _)).2 ?_
    rw [herror]
    nofun

/-! ## The download of the installer -/

section

/-- The tree with a file written at the path, a new one or one overwritten. -/
def with_file (path : Path) (content : Bytes) (s : Option Node) : Option (Option Node) :=
  alter false (fun
    | none => some (some (.file content))
    | some node => (overwrite (fun _ => content) node).map some) path s

theorem create_eq_with_file (path : Path) (s : Option Node) :
    Change.create.apply path s = with_file path [] s := by
  have hact : Change.create.act = fun
      | none => some (some (.file []))
      | some node => (overwrite (fun _ => []) node).map some := by
    funext node
    cases node <;> rfl
  rw [Change.apply, hact]
  rfl

variable {path : Path} {content : Bytes} {start s' : Option Node}

theorem append_eq_with_file (h : with_file path content start = some s) (bytes : Bytes) :
    (Change.append bytes).apply path s = with_file path (content ++ bytes) start := by
  refine alter_again (fun before after hfile => ?_) h
  cases before with
  | none =>
    cases hfile
    rfl
  | some node =>
    obtain ⟨node', hnode, rfl⟩ := Option.map_eq_some_iff.1 hfile
    exact congrArg (Option.map some) (overwrite_overwrite node hnode)

/-- What is written can be appended to. -/
theorem run_append (host : Host) (h : with_file path content start = some s) (bytes : Bytes) :
    ∃ s', with_file path (content ++ bytes) start = some s' ∧
      ∀ {α : Type} (next : IoResult Unit → Io α),
        run (machine host) (.call (.change (.append bytes) path) next) s =
          run (machine host) (next (.ok ())) s' := by
  have hsome : (with_file path (content ++ bytes) start).isSome = true := by
    rw [← Option.isSome_of_eq_some h]
    refine alter_isSome (fun node => ?_) path start
    cases node with
    | none => rfl
    | some node => simp only [Option.isSome_map, overwrite_isSome _ fun _ => content]
  obtain ⟨s', hs'⟩ := Option.isSome_iff_exists.1 hsome
  refine ⟨s', hs', fun next => ?_⟩
  change run _ (next (done s ((Change.append bytes).apply path s)).1)
    (done s ((Change.append bytes).apply path s)).2 = _
  rw [append_eq_with_file h, hs']
  rfl

/-- The writes of the system take something, and what the writer was given is
    in the file or held back. -/
structure Keeps (path : Path) (start : Option Node) (all : Bytes) (writer : BufWriter)
    (s : Option Node) : Prop where
  takes : ∀ n ∈ writer.accepts, n ≠ 0
  file : ∃ content, with_file path content start = some s ∧ content ++ writer.buffer = all

theorem run_write_loop (host : Host) {accepts : List Nat} (htakes : ∀ n ∈ accepts, n ≠ 0)
    (h : with_file path content start = some s) (bytes : Bytes) :
    ∃ accepts' s', run (machine host) (write_loop path accepts bytes) s =
        (.ok (.ok (), ⟨[], accepts'⟩), s') ∧ (∀ n ∈ accepts', n ≠ 0) ∧
      with_file path (content ++ bytes) start = some s' := by
  induction accepts generalizing content bytes s with
  | nil =>
    cases bytes with
    | nil => exact ⟨[], s, rfl, htakes, by rwa [List.append_nil]⟩
    | cons b bytes =>
      obtain ⟨s', hs', hrun⟩ := run_append host h (b :: bytes)
      exact ⟨[], s', hrun _, htakes, hs'⟩
  | cons n accepts ih =>
    have htakes' : ∀ n ∈ accepts, n ≠ 0 := fun n hn => htakes n (.tail _ hn)
    cases bytes with
    | nil => exact ⟨n :: accepts, s, rfl, htakes, by rwa [List.append_nil]⟩
    | cons b bytes =>
      obtain ⟨s', hs', happend⟩ := run_append host h ((b :: bytes).take n)
      obtain ⟨accepts', s'', hrun, haccepts, hs''⟩ := ih htakes' hs' ((b :: bytes).drop n)
      refine ⟨accepts', s'', ?_, haccepts, ?_⟩
      -- The system takes a part, and the rest is written next.
      · simp only [write_loop, if_neg (htakes n (.head _))]
        exact (happend _).trans hrun
      · rwa [List.append_assoc, List.take_append_drop] at hs''

/-- After a flush, all that was given is in the file. -/
theorem Keeps.run_flush (host : Host) {all : Bytes} {writer : BufWriter}
    (h : Keeps path start all writer s) (hall : with_file path all start = some s') :
    ∃ accepts, run (machine host) (writer.flush_buf path) s = (.ok (.ok (), ⟨[], accepts⟩), s') ∧
      ∀ n ∈ accepts, n ≠ 0 := by
  obtain ⟨content, hs, rfl⟩ := h.file
  obtain ⟨accepts, s'', hrun, haccepts, hs''⟩ :=
    run_write_loop host h.takes hs writer.buffer
  obtain rfl : s'' = s' := Option.some.inj (hs''.symm.trans hall)
  exact ⟨accepts, hrun, haccepts⟩

theorem Keeps.run_write_past (host : Host) {all : Bytes} {writer : BufWriter}
    (h : Keeps path start all writer s) (bytes : Bytes)
    (hempty : CAPACITY ≤ bytes.length → writer.buffer = []) :
    ∃ writer' s', run (machine host) (writer.write_past path bytes) s =
      (.ok (.ok (), writer'), s') ∧ Keeps path start (all ++ bytes) writer' s' := by
  obtain ⟨content, hs, rfl⟩ := h.file
  unfold BufWriter.write_past
  split
  · rename_i hlarge
    obtain ⟨buffer, accepts⟩ := writer
    obtain rfl : buffer = [] := hempty hlarge
    obtain ⟨accepts', s', hrun, haccepts, hs'⟩ :=
      run_write_loop host h.takes hs bytes
    refine ⟨⟨[], accepts'⟩, s', ?_, haccepts, _, hs', by simp⟩
    rw [run_bind_ok _ hrun]
    rfl
  · exact ⟨_, s, rfl, h.takes, content, hs, (List.append_assoc ..).symm⟩

theorem Keeps.run_write_all (host : Host) {all : Bytes} {writer : BufWriter}
    (h : Keeps path start all writer s) (hall : with_file path all start = some s')
    (bytes : Bytes) : ∃ writer' s'', run (machine host) (writer.write_all path bytes) s =
        (.ok (.ok (), writer'), s'') ∧ Keeps path start (all ++ bytes) writer' s'' := by
  simp only [BufWriter.write_all]
  split
  · obtain ⟨content, hs, rfl⟩ := h.file
    exact ⟨_, s, rfl, h.takes, content, hs, (List.append_assoc ..).symm⟩
  · split
    · obtain ⟨accepts, hrun, haccepts⟩ := h.run_flush host hall
      have hflushed : Keeps path start all ⟨[], accepts⟩ s' :=
        ⟨haccepts, all, hall, List.append_nil _⟩
      obtain ⟨writer', s'', hpast, hkeeps⟩ :=
        hflushed.run_write_past host bytes fun _ => rfl
      refine ⟨writer', s'', ?_, hkeeps⟩
      rw [run_bind_ok _ hrun]
      exact hpast
    · rename_i hfull hspare
      refine h.run_write_past host bytes fun hlarge => ?_
      rw [← List.length_eq_zero_iff]
      have : 0 < CAPACITY := by decide
      omega

/-- The loops of the two downloads: both stop with the same result, and what the
    writer holds back is all that the files differ in. -/
theorem run_copy (host : Host) (expected_size : Nat) (kind : String) {received : Nat}
    {hasher : Bytes} (hreceived : received = hasher.length) {writer : BufWriter}
    (h : Keeps path start hasher writer s) (hall : with_file path hasher start = some s')
    (reads : List (IoResult Bytes)) :
    ∃ result all writer' s₁ s₁',
      run (machine host) (copy path expected_size kind writer received hasher reads) s =
        (.ok (result.map fun body => (body.length, body), writer'), s₁) ∧
      run (machine host) (download_body path expected_size kind hasher reads) s' =
        (result, s₁') ∧
      Keeps path start all writer' s₁ ∧ with_file path all start = some s₁' := by
  subst hreceived
  induction reads generalizing s s' writer hasher with
  | nil => exact ⟨.ok hasher, hasher, writer, s, s', rfl, rfl, h, hall⟩
  | cons read reads ih =>
    cases read with
    | error e => exact ⟨.error .Filesystem, hasher, writer, s, s', rfl, rfl, h, hall⟩
    | ok buffer =>
      cases buffer with
      | nil => exact ⟨.ok hasher, hasher, writer, s, s', rfl, rfl, h, hall⟩
      | cons b buffer =>
        simp only [copy, download_body, run_call, machine, exec]
        cases hadd : u64_checked_add hasher.length (b :: buffer).length with
        | none => exact ⟨.error (.Integrity kind), hasher, writer, s, s', rfl, rfl, h, hall⟩
        | some length =>
          obtain ⟨-, rfl⟩ : _ ∧ hasher.length + (b :: buffer).length = length := by
            simpa only [u64_checked_add, Option.ite_none_right_eq_some, Option.some.injEq]
              using hadd
          simp only []
          by_cases hbound : expected_size < hasher.length + (b :: buffer).length
          · rw [if_pos hbound, if_pos hbound]
            exact ⟨.error (.Integrity kind), hasher, writer, s, s', rfl, rfl, h, hall⟩
          · rw [if_neg hbound, if_neg hbound]
            -- One writes through the buffer, the other at once.
            obtain ⟨writer', s₁, hwrite, hkeeps⟩ :=
              h.run_write_all host hall (b :: buffer)
            obtain ⟨s₁', hs₁', happend⟩ := run_append host hall (b :: buffer)
            obtain ⟨result, all, writer'', s₂, s₂', hcopy, hbody, hkeeps', hall'⟩ :=
              ih hkeeps hs₁'
            refine ⟨result, all, writer'', s₂, s₂', ?_, ?_, hkeeps', hall'⟩
            · rw [← List.length_append]
              exact (run_bind_ok _ hwrite _).trans hcopy
            · exact (run_bind_ok _ (happend fs) _).trans hbody

/-- When no call fails and every write takes something, the download through the
    buffer is that of the installer: the same result, and the same tree. -/
theorem run_download_verified (host : Host) {accepts : List Nat} (htakes : ∀ n ∈ accepts, n ≠ 0)
    (url : String) (destination : Path) (expected_size : Nat) (expected_sha256 kind : String)
    (s : Option Node) :
    run (machine host)
        (download_verified host accepts url destination expected_size expected_sha256 kind) s =
      run (machine host)
        (Artifacts.download_verified host url destination expected_size expected_sha256 kind)
        s := by
  refine run_bind_congr _ fun _ s _ => run_bind_congr _ fun response s _ =>
    run_bind_congr _ fun _ s _ => run_bind_congr _ fun _ s₁ hcreate => ?_
  have hstart : with_file (part_path destination) [] s = some s₁ := by
    change run _ (fs (done s (Change.create.apply _ s)).1) (done s (Change.create.apply _ s)).2 = _
      at hcreate
    rw [create_eq_with_file] at hcreate
    cases hw : with_file (part_path destination) [] s with
    | none =>
      rw [hw] at hcreate
      cases hcreate
    | some s' =>
      rw [hw] at hcreate
      exact congrArg some (congrArg Prod.snd hcreate)
  -- From the empty file on, the two differ by what is held back.
  have hkeeps : Keeps (part_path destination) s [] { accepts } s₁ := ⟨htakes, [], hstart, rfl⟩
  obtain ⟨result, all, writer, s₂, s₂', hcopy, hbody, hkeeps', hall⟩ :=
    run_copy host expected_size kind List.length_nil.symm hkeeps hstart response.reads
  obtain ⟨accepts', hflush, -⟩ := hkeeps'.run_flush host hall
  cases result with
  | error e =>
    have hreceive : run (machine host) (receive host (part_path destination) destination
        expected_size expected_sha256 kind accepts response.reads) s₁ =
          (.ok (.error e, writer), s₂) := by
      rw [receive, run_bind_ok _ hcopy]
      rfl
    rw [run_bind_ok _ hreceive, run_bind_error _ hbody]
    exact run_bind_ok _ hflush _
  | ok body =>
    -- what is left is the same, once the buffer is empty
    have hreceive : run (machine host) (receive host (part_path destination) destination
        expected_size expected_sha256 kind accepts response.reads) s₁ =
          let r := run (machine host) (do
            service .sync_all
            conclude host (part_path destination) destination expected_size expected_sha256 kind
              body.length body) s₂'
          (.ok (r.1, ⟨[], accepts'⟩), r.2) := by
      rw [receive, run_bind_ok _ hcopy]
      change run _ (finish ..) s₂ = _
      rw [finish, run_bind_ok _ hflush]
      change run _ (attempt _ >>= _) s₂' = _
      rw [run_bind, run_attempt]
      rfl
    rw [run_bind_ok _ hreceive, run_bind_ok _ hbody]
    have hdrop (s : Option Node) : run (machine host)
        (BufWriter.flush_buf (part_path destination) ⟨[], accepts'⟩) s =
          (.ok (.ok (), ⟨[], accepts'⟩), s) := by
      cases accepts' <;> rfl
    rw [run_bind_ok _ (hdrop _)]
    rfl

end

end Inferences.Artifacts.Download
