import Inferences.Duration
import Inferences.Server.Grpc

/-!
# The deadline of a gRPC request

A client says in the header `grpc-timeout` how long it will wait: a decimal
number and a unit. `grpc_timeout` caps the time and keeps a margin of it to
answer in, half of a short time and 50 ms of a long one (`allowed`). Whatever
is accepted, no operation on the way loses anything (`Exact`), and a client
that waits longer is never given less (`allowed_mono`).

The number is read by `str::parse`, which also takes a plus sign before the
digits, so that a header with one is accepted where the grammar of the header
has digits only (`GrammarSigned`).
-/

namespace Inferences.Server.Grpc

open Time

/-- The timeout of a request that has none. -/
def DEFAULT_GRPC_TIMEOUT : Duration := .from_secs 30

/-- How much of the timeout is kept back, at most. -/
def MAX_GRPC_DEADLINE_MARGIN : Duration := .from_millis 50

/-- The status for a timeout that cannot be read. -/
def invalid_grpc_timeout : Status := ⟨.InvalidArgument, "invalid grpc-timeout"⟩

/-- `str::split_at`, by bytes; it panics inside a character and behind the end. -/
def split_at : List Char → Nat → Option (List Char × List Char)
  | text, 0 => some ([], text)
  | [], _ + 1 => none
  | c :: text, mid + 1 =>
    if mid + 1 < c.utf8Size then none
    else (split_at text (mid + 1 - c.utf8Size)).map fun (digits, unit) => (c :: digits, unit)

/-- The units of `grpc_timeout`. -/
def unit_duration (amount : UInt64) : List Char → Option Duration
  | ['H'] => some (.from_secs (saturating_mul amount (60 * 60)))
  | ['M'] => some (.from_secs (saturating_mul amount 60))
  | ['S'] => some (.from_secs amount)
  | ['m'] => some (.from_millis amount)
  | ['u'] => some (.from_micros amount)
  | ['n'] => some (.from_nanos amount)
  | _ => none

/-- The cap and the margin of `grpc_timeout`. -/
def with_margin (duration : Duration) : Option Duration := do
  let duration := duration.min DEFAULT_GRPC_TIMEOUT
  let margin := (← duration.checked_div 2).min MAX_GRPC_DEADLINE_MARGIN
  return (duration.checked_sub margin).getD .ZERO

/-- `grpc_timeout`, of the value of the header; nothing when it panics. -/
def grpc_timeout (to_str : Bytes → Option String) (metadata : Option Bytes) :
    Option (Except Status (Option Duration)) := ExceptT.run do
  let some value := metadata | return none
  let value ← (to_str value).elim (throw invalid_grpc_timeout) pure
  if value.utf8ByteSize < 2 || value.utf8ByteSize > 9 then throw invalid_grpc_timeout
  let (digits, unit) ← split_at value.toList (value.utf8ByteSize - 1)
  let amount ← (parse_u64 digits).elim (throw invalid_grpc_timeout) pure
  let duration ← (unit_duration amount unit).elim (throw invalid_grpc_timeout) pure
  return some (← with_margin duration)

/-- `GrpcInference::context` with the time that is left for the request. -/
def context_within (timeout : Duration) (next : Option UInt64) (representable : Duration → Bool) :
    Except Status (UInt64 × Duration) := do
  if timeout.is_zero then throw ⟨.DeadlineExceeded, "request deadline exceeded"⟩
  let id ← next.elim (throw ⟨.Internal, "request identity unavailable"⟩) pure
  if !representable timeout then throw ⟨.Internal, "request context unavailable"⟩
  return (id, timeout)

/-- `GrpcInference::context`: the identity of a request and its deadline, by the
    next identity, if there is one, and the deadlines that the clock can hold. -/
def context (to_str : Bytes → Option String) (metadata : Option Bytes) (next : Option UInt64)
    (representable : Duration → Bool) : Option (Except Status (UInt64 × Duration)) :=
  (grpc_timeout to_str metadata).map fun timeout => do
    context_within ((← timeout).getD DEFAULT_GRPC_TIMEOUT) next representable

/-! ## What a header says -/

/-- The units of a timeout. -/
inductive TimeoutUnit
  | Hour
  | Minute
  | Second
  | Millisecond
  | Microsecond
  | Nanosecond

/-- The letter of a unit. -/
def TimeoutUnit.symbol : TimeoutUnit → Char
  | Hour => 'H'
  | Minute => 'M'
  | Second => 'S'
  | Millisecond => 'm'
  | Microsecond => 'u'
  | Nanosecond => 'n'

/-- The length of a unit in nanoseconds. -/
def TimeoutUnit.nanos : TimeoutUnit → Nat
  | Hour => 3600 * 10 ^ 9
  | Minute => 60 * 10 ^ 9
  | Second => 10 ^ 9
  | Millisecond => 10 ^ 6
  | Microsecond => 10 ^ 3
  | Nanosecond => 1

/-- A value that is a number and a unit, with what stands before the number. -/
structure TimeoutText (value : Bytes) (sign digits : List Char) (unit : TimeoutUnit) : Prop where
  value_eq : value = (sign ++ digits ++ [unit.symbol]).map Char.toUInt8
  digits_ne : digits ≠ []
  is_digit : ∀ c ∈ digits, c.isDigit = true

/-- The grammar of the header: one to eight digits and a unit. -/
def Grammar (value : Bytes) : Prop :=
  ∃ digits unit, TimeoutText value [] digits unit ∧ digits.length ≤ 8

/-- A plus sign, one to seven digits and a unit. -/
def GrammarSigned (value : Bytes) : Prop :=
  ∃ digits unit, TimeoutText value ['+'] digits unit ∧ digits.length ≤ 7

/-- The time that a value asks for is so many units. -/
def Requests (value : Bytes) (amount : Nat) (unit : TimeoutUnit) : Prop :=
  ∃ sign digits, TimeoutText value sign digits unit ∧ (sign = [] ∨ sign = ['+']) ∧
    amount = Nat.ofDigitChars 10 digits 0

/-- What `HeaderValue::to_str` of the `http` crate is relied on for: it gives
    the text of a value of visible ASCII characters, and no other text than one
    in ASCII with the bytes of the value. -/
structure VisibleAscii (to_str : Bytes → Option String) : Prop where
  visible : ∀ text : List Char, (∀ c ∈ text, 32 ≤ c.toNat ∧ c.toNat < 127) →
    to_str (text.map Char.toUInt8) = some (.ofList text)
  sound : ∀ value text, to_str value = some text →
    value = text.toList.map Char.toUInt8 ∧ ∀ c ∈ text.toList, c.toNat < 128

/-! ## Reading the header -/

theorem utf8Size_of_ascii {c : Char} (h : c.toNat < 128) : c.utf8Size = 1 := by
  rw [Char.utf8Size_eq_one_iff, UInt32.le_iff_toNat_le]
  exact Nat.le_of_lt_succ h

theorem utf8ByteSize_of_ascii {text : List Char} (h : ∀ c ∈ text, c.toNat < 128) :
    (String.ofList text).utf8ByteSize = text.length := by
  induction text with
  | nil => rfl
  | cons c text ih =>
    rw [List.forall_mem_cons] at h
    rw [String.ofList_cons, String.utf8ByteSize_append, String.utf8ByteSize_singleton,
      utf8Size_of_ascii h.1, ih h.2, List.length_cons, add_comm]

theorem split_at_of_ascii {before after : List Char} (h : ∀ c ∈ before, c.toNat < 128) :
    split_at (before ++ after) before.length = some (before, after) := by
  induction before with
  | nil => cases after <;> rfl
  | cons c before ih =>
    rw [List.forall_mem_cons] at h
    rw [List.cons_append, List.length_cons, split_at, utf8Size_of_ascii h.1,
      if_neg (by omega), Nat.add_sub_cancel, ih h.2]
    rfl

theorem ofDigitChars_lt {digits : List Char} (h : ∀ c ∈ digits, c.isDigit = true) (init : Nat) :
    Nat.ofDigitChars 10 digits init < (init + 1) * 10 ^ digits.length := by
  induction digits generalizing init with
  | nil => simp
  | cons c digits ih =>
    rw [List.forall_mem_cons, Char.isDigit_iff_toNat] at h
    have h9 : '9'.toNat = '0'.toNat + 9 := rfl
    rw [Nat.ofDigitChars_cons, List.length_cons]
    calc Nat.ofDigitChars 10 digits (10 * init + (c.toNat - '0'.toNat))
        < (10 * init + (c.toNat - '0'.toNat) + 1) * 10 ^ digits.length := ih h.2 _
      _ ≤ (init + 1) * 10 * 10 ^ digits.length := Nat.mul_le_mul_right _ (by omega)
      _ = (init + 1) * 10 ^ (digits.length + 1) := by rw [pow_succ]; ring

/-- All characters of a text that is a number and a unit are visible. -/
theorem TimeoutText.visible {value : Bytes} {sign digits : List Char} {unit : TimeoutUnit}
    (h : TimeoutText value sign digits unit) (hsign : sign = [] ∨ sign = ['+']) :
    ∀ c ∈ sign ++ digits ++ [unit.symbol], 32 ≤ c.toNat ∧ c.toNat < 127 := by
  intro c hc
  rw [List.mem_append, List.mem_append, List.mem_singleton] at hc
  obtain (hc | hc) | rfl := hc
  · obtain rfl | rfl := hsign
    · cases hc
    · rw [List.mem_singleton] at hc
      subst hc
      decide
  · have hdigit := Char.isDigit_iff_toNat.1 (h.is_digit c hc)
    have h0 : '0'.toNat = 48 := rfl
    have h9 : '9'.toNat = 57 := rfl
    omega
  · cases unit <;> decide

theorem TimeoutText.length {value : Bytes} {sign digits : List Char} {unit : TimeoutUnit}
    (h : TimeoutText value sign digits unit) :
    value.length = sign.length + digits.length + 1 := by
  rw [h.value_eq, List.length_map, List.length_append, List.length_append, List.length_singleton]

/-! ## What is allowed of a time -/

/-- What is allowed of so many nanoseconds: at most 30 s, less the margin. -/
def allowed (requested : Nat) : Nat :=
  min requested (30 * 10 ^ 9) - min (min requested (30 * 10 ^ 9) / 2) (50 * 10 ^ 6)

theorem allowed_mono : Monotone allowed := by
  intro a b h
  simp only [allowed]
  omega

/-- Every operation on the way from a number of units to the deadline gives
    what it gives for numbers without a bound. -/
def Exact (amount : UInt64) (unit : TimeoutUnit) (deadline : Duration) : Prop :=
  ∃ duration half, unit_duration amount [unit.symbol] = some duration ∧
    duration.as_nanos = amount.toNat * unit.nanos ∧
    (duration.min DEFAULT_GRPC_TIMEOUT).checked_div 2 = some half ∧
    half.as_nanos = (duration.min DEFAULT_GRPC_TIMEOUT).as_nanos / 2 ∧
    (duration.min DEFAULT_GRPC_TIMEOUT).checked_sub (half.min MAX_GRPC_DEADLINE_MARGIN) =
      some deadline ∧
    deadline.as_nanos + (half.min MAX_GRPC_DEADLINE_MARGIN).as_nanos =
      (duration.min DEFAULT_GRPC_TIMEOUT).as_nanos

@[simp] theorem as_nanos_DEFAULT_GRPC_TIMEOUT : DEFAULT_GRPC_TIMEOUT.as_nanos = 30 * 10 ^ 9 := by
  rw [DEFAULT_GRPC_TIMEOUT, Duration.as_nanos_from_secs]
  rfl

@[simp] theorem as_nanos_MAX_GRPC_DEADLINE_MARGIN :
    MAX_GRPC_DEADLINE_MARGIN.as_nanos = 50 * 10 ^ 6 := by
  rw [MAX_GRPC_DEADLINE_MARGIN, Duration.as_nanos_from_millis]
  rfl

theorem Exact.as_nanos {amount : UInt64} {unit : TimeoutUnit} {deadline : Duration}
    (h : Exact amount unit deadline) :
    deadline.as_nanos = allowed (amount.toNat * unit.nanos) := by
  obtain ⟨duration, half, -, hduration, -, hhalf, -, hsum⟩ := h
  simp only [Duration.as_nanos_min, as_nanos_DEFAULT_GRPC_TIMEOUT,
    as_nanos_MAX_GRPC_DEADLINE_MARGIN] at hhalf hsum
  rw [allowed, ← hduration, ← hhalf]
  omega

/-- The cap and the margin never fail. -/
theorem exact_with_margin {amount : UInt64} {unit : TimeoutUnit} {duration : Duration}
    (hunit : unit_duration amount [unit.symbol] = some duration)
    (hduration : duration.as_nanos = amount.toNat * unit.nanos) :
    ∃ deadline, with_margin duration = some deadline ∧ Exact amount unit deadline := by
  obtain ⟨half, hdiv, hhalf⟩ :=
    Duration.as_nanos_checked_div (duration.min DEFAULT_GRPC_TIMEOUT)
      (show (2 : UInt32) ≠ 0 by decide)
  have hhalf : half.as_nanos = (duration.min DEFAULT_GRPC_TIMEOUT).as_nanos / 2 := hhalf
  have hle : (half.min MAX_GRPC_DEADLINE_MARGIN).as_nanos ≤
      (duration.min DEFAULT_GRPC_TIMEOUT).as_nanos := by
    rw [Duration.as_nanos_min, hhalf]
    omega
  obtain ⟨deadline, hsub, hdeadline⟩ := Duration.as_nanos_checked_sub hle
  refine ⟨deadline, ?_, duration, half, hunit, hduration, hdiv, hhalf, hsub, by omega⟩
  simp [with_margin, hdiv, hsub]

theorem unit_duration_symbol {amount : UInt64} (h : amount.toNat < 10 ^ 8) (unit : TimeoutUnit) :
    ∃ duration, unit_duration amount [unit.symbol] = some duration ∧
      duration.as_nanos = amount.toNat * unit.nanos := by
  have hmul : ∀ per : UInt64, per.toNat ≤ 3600 →
      (saturating_mul amount per).toNat = amount.toNat * per.toNat := fun per hper =>
    toNat_saturating_mul (lt_of_le_of_lt (Nat.mul_le_mul h.le hper) (by decide))
  cases unit with
  | Hour =>
    refine ⟨_, rfl, ?_⟩
    rw [Duration.as_nanos_from_secs, hmul _ (by decide)]
    simp [TimeoutUnit.nanos, mul_assoc]
  | Minute =>
    refine ⟨_, rfl, ?_⟩
    rw [Duration.as_nanos_from_secs, hmul _ (by decide)]
    simp [TimeoutUnit.nanos, mul_assoc]
  | Second => exact ⟨_, rfl, Duration.as_nanos_from_secs _⟩
  | Millisecond => exact ⟨_, rfl, Duration.as_nanos_from_millis _⟩
  | Microsecond => exact ⟨_, rfl, Duration.as_nanos_from_micros _⟩
  | Nanosecond => exact ⟨_, rfl, (Duration.as_nanos_from_nanos _).trans (mul_one _).symm⟩

theorem symbol_of_unit_duration {amount : UInt64} {text : List Char} {duration : Duration}
    (h : unit_duration amount text = some duration) :
    ∃ unit : TimeoutUnit, text = [unit.symbol] := by
  unfold unit_duration at h
  split at h
  · exact ⟨.Hour, rfl⟩
  · exact ⟨.Minute, rfl⟩
  · exact ⟨.Second, rfl⟩
  · exact ⟨.Millisecond, rfl⟩
  · exact ⟨.Microsecond, rfl⟩
  · exact ⟨.Nanosecond, rfl⟩
  · cases h

/-! ## What is accepted -/

variable {to_str : Bytes → Option String}

theorem grpc_timeout_of_to_str_none {value : Bytes} (h : to_str value = none) :
    grpc_timeout to_str (some value) = some (.error invalid_grpc_timeout) := by
  simp only [grpc_timeout, h, Option.elim_none]
  rfl

theorem grpc_timeout_of_size {value : Bytes} {text : String} (h : to_str value = some text)
    (hsize : text.utf8ByteSize < 2 ∨ text.utf8ByteSize > 9) :
    grpc_timeout to_str (some value) = some (.error invalid_grpc_timeout) := by
  simp only [grpc_timeout, h, Option.elim_some, pure_bind, Bool.or_eq_true, decide_eq_true_eq,
    if_pos hsize]
  rfl

/-- A value of the right length is decided by its number and its unit. -/
theorem grpc_timeout_of_split {value : Bytes} {text : String} {digits unit : List Char}
    (h : to_str value = some text)
    (hsize : ¬ (text.utf8ByteSize < 2 ∨ text.utf8ByteSize > 9))
    (hsplit : split_at text.toList (text.utf8ByteSize - 1) = some (digits, unit)) :
    grpc_timeout to_str (some value) =
      ((parse_u64 digits).bind (unit_duration · unit)).elim
        (some (.error invalid_grpc_timeout))
        fun duration => (with_margin duration).map fun deadline => .ok (some deadline) := by
  simp only [grpc_timeout, h, Option.elim_some, pure_bind, Bool.or_eq_true, decide_eq_true_eq,
    if_neg hsize, hsplit]
  rw [show (liftM (some (digits, unit)) : ExceptT Status Option _) = pure (digits, unit) from rfl,
    pure_bind]
  cases parse_u64 digits with
  | none => rfl
  | some amount =>
    rw [Option.elim_some, pure_bind, Option.bind_some]
    cases unit_duration amount unit with
    | none => rfl
    | some duration =>
      rw [Option.elim_some, pure_bind, Option.elim_some]
      cases with_margin duration with
      | none => rfl
      | some deadline => rfl

/-- A number and a unit of at most nine characters are accepted, with the
    deadline that the time allows. -/
theorem accepted_of_text (h : VisibleAscii to_str) {value : Bytes} {sign digits : List Char}
    {unit : TimeoutUnit} (ht : TimeoutText value sign digits unit)
    (hsign : sign = [] ∨ sign = ['+']) (hlen : sign.length + digits.length ≤ 8) :
    ∃ amount deadline, amount.toNat = Nat.ofDigitChars 10 digits 0 ∧ Exact amount unit deadline ∧
      grpc_timeout to_str (some value) = some (.ok (some deadline)) := by
  have hvisible := ht.visible hsign
  have hascii : ∀ c ∈ sign ++ digits ++ [unit.symbol], c.toNat < 128 := fun c hc =>
    (hvisible c hc).2.trans (by decide)
  have hvalue : to_str value = some (.ofList (sign ++ digits ++ [unit.symbol])) := by
    rw [ht.value_eq]
    exact h.visible _ hvisible
  have hsize : (String.ofList (sign ++ digits ++ [unit.symbol])).utf8ByteSize =
      (sign ++ digits).length + 1 := by
    rw [utf8ByteSize_of_ascii hascii, List.length_append, List.length_singleton]
  have hsplit : split_at (sign ++ digits ++ [unit.symbol]) (sign ++ digits).length =
      some (sign ++ digits, [unit.symbol]) :=
    split_at_of_ascii fun c hc => hascii c (List.mem_append_left _ hc)
  have hlt : Nat.ofDigitChars 10 digits 0 < 10 ^ 8 := by
    have hpow : 10 ^ digits.length ≤ 10 ^ 8 := Nat.pow_le_pow_right (by decide) (by omega)
    have := ofDigitChars_lt ht.is_digit 0
    omega
  have hamount : (UInt64.ofNat (Nat.ofDigitChars 10 digits 0)).toNat =
      Nat.ofDigitChars 10 digits 0 := by
    rw [UInt64.toNat_ofNat', Nat.mod_eq_of_lt (hlt.trans (by decide))]
  have hparse : parse_u64 (sign ++ digits) = some (.ofNat (Nat.ofDigitChars 10 digits 0)) :=
    parse_u64_eq_some.2 ⟨sign, digits, rfl, hsign, ht.digits_ne, ht.is_digit, hamount⟩
  obtain ⟨duration, hunit, hduration⟩ := unit_duration_symbol (hamount ▸ hlt) unit
  obtain ⟨deadline, hmargin, hexact⟩ := exact_with_margin hunit hduration
  refine ⟨_, deadline, hamount, hexact, ?_⟩
  have hpos : 0 < digits.length := List.length_pos_of_ne_nil ht.digits_ne
  rw [grpc_timeout_of_split hvalue, hparse, Option.bind_some, hunit, Option.elim_some, hmargin]
  · rfl
  · rw [hsize, List.length_append]
    omega
  · rw [hsize, String.toList_ofList, Nat.add_sub_cancel]
    exact hsplit

/-- What is not rejected is a number and a unit of at most nine characters. -/
theorem text_of_not_rejected (h : VisibleAscii to_str) {value : Bytes}
    (hvalue : grpc_timeout to_str (some value) ≠ some (.error invalid_grpc_timeout)) :
    ∃ sign digits unit, TimeoutText value sign digits unit ∧ (sign = [] ∨ sign = ['+']) ∧
      sign.length + digits.length ≤ 8 := by
  obtain ⟨text, hstr⟩ : ∃ text, to_str value = some text :=
    Option.ne_none_iff_exists'.1 fun hnone => hvalue (grpc_timeout_of_to_str_none hnone)
  have hsize : ¬ (text.utf8ByteSize < 2 ∨ text.utf8ByteSize > 9) := fun hsize =>
    hvalue (grpc_timeout_of_size hstr hsize)
  obtain ⟨hbytes, hascii⟩ := h.sound value text hstr
  have hlength : text.utf8ByteSize = text.toList.length := by
    conv_lhs => rw [← String.ofList_toList (s := text)]
    exact utf8ByteSize_of_ascii hascii
  -- The last character is the unit.
  obtain ⟨front, last, hlast⟩ : ∃ front last, text.toList = front ++ [last] :=
    (List.eq_nil_or_concat' text.toList).resolve_left fun hnil => by simp [hlength, hnil] at hsize
  have hsplit : split_at text.toList (text.utf8ByteSize - 1) = some (front, [last]) := by
    rw [hlength, hlast, List.length_append, List.length_singleton, Nat.add_sub_cancel]
    exact split_at_of_ascii fun c hc => hascii c (hlast ▸ List.mem_append_left _ hc)
  rw [grpc_timeout_of_split hstr hsize hsplit] at hvalue
  obtain ⟨duration, hduration⟩ :
      ∃ duration, (parse_u64 front).bind (unit_duration · [last]) = some duration :=
    Option.ne_none_iff_exists'.1 fun hnone => hvalue (by rw [hnone]; rfl)
  obtain ⟨amount, hparse, hunit⟩ := Option.bind_eq_some_iff.1 hduration
  obtain ⟨unit, hsymbol⟩ := symbol_of_unit_duration hunit
  obtain ⟨sign, digits, rfl, hsign, hne, hdigits, -⟩ := parse_u64_eq_some.1 hparse
  refine ⟨sign, digits, unit, ⟨?_, hne, hdigits⟩, hsign, ?_⟩
  · rw [hbytes, hlast, hsymbol]
  · rw [hlength, hlast, List.length_append, List.length_append, List.length_singleton] at hsize
    omega

/-- Nothing but the header grammar, with or without a plus sign, is accepted;
    all else is rejected with the one status. -/
theorem grpc_timeout_cases (h : VisibleAscii to_str) (value : Bytes) :
    (Grammar value ∨ GrammarSigned value) ∧
        (∃ deadline, grpc_timeout to_str (some value) = some (.ok (some deadline))) ∨
      ¬ (Grammar value ∨ GrammarSigned value) ∧
        grpc_timeout to_str (some value) = some (.error invalid_grpc_timeout) := by
  have haccepted : Grammar value ∨ GrammarSigned value →
      ∃ deadline, grpc_timeout to_str (some value) = some (.ok (some deadline)) := by
    rintro (⟨digits, unit, ht, hlen⟩ | ⟨digits, unit, ht, hlen⟩)
    · obtain ⟨_, deadline, -, -, hdeadline⟩ :=
        accepted_of_text h ht (.inl rfl) (by simpa using hlen)
      exact ⟨deadline, hdeadline⟩
    · obtain ⟨_, deadline, -, -, hdeadline⟩ :=
        accepted_of_text h ht (.inr rfl) (by rw [List.length_singleton]; omega)
      exact ⟨deadline, hdeadline⟩
  by_cases hgrammar : Grammar value ∨ GrammarSigned value
  · exact .inl ⟨hgrammar, haccepted hgrammar⟩
  · refine .inr ⟨hgrammar, ?_⟩
    by_contra hrejected
    obtain ⟨sign, digits, unit, ht, rfl | rfl, hlen⟩ := text_of_not_rejected h hrejected
    · exact hgrammar (.inl ⟨digits, unit, ht, by simpa using hlen⟩)
    · rw [List.length_singleton] at hlen
      exact hgrammar (.inr ⟨digits, unit, ht, by omega⟩)

/-- No value has a number both with and without the plus sign. -/
theorem not_grammar_of_signed {value : Bytes} (hsigned : GrammarSigned value) :
    ¬ Grammar value := by
  rintro ⟨digits, unit, ht, -⟩
  obtain ⟨digits', unit', ht', -⟩ := hsigned
  have heq := ht.value_eq.symm.trans ht'.value_eq
  cases digits with
  | nil => exact ht.digits_ne rfl
  | cons c digits =>
    obtain ⟨hbyte, -⟩ := List.cons.inj heq
    have hdigit := Char.isDigit_iff_toNat.1 (ht.is_digit c List.mem_cons_self)
    have hnat : c.toNat % 2 ^ 8 = 43 := congrArg UInt8.toNat hbyte
    have h0 : '0'.toNat = 48 := rfl
    have h9 : '9'.toNat = 57 := rfl
    omega

/-- The text of a value of visible ASCII characters and tabs. -/
def visible_text (value : Bytes) : Option String :=
  if value.all (fun b => (32 ≤ b && b < 127) || b == 9) then
    some (.ofList (value.map fun b => .ofNat b.toNat))
  else none

theorem toNat_toUInt8 {c : Char} (h : c.toNat < 128) : c.toUInt8.toNat = c.toNat :=
  Nat.mod_eq_of_lt (h.trans (by decide))

theorem toUInt8_ofNat {b : UInt8} (h : b.toNat < 128) :
    (Char.ofNat b.toNat).toUInt8 = b ∧ (Char.ofNat b.toNat).toNat < 128 := by
  have hnat : (Char.ofNat b.toNat).toNat = b.toNat := by
    rw [Char.toNat_ofNat, if_pos (.inl (h.trans (by decide)))]
  have hlt : (Char.ofNat b.toNat).toNat < 128 := by rwa [hnat]
  refine ⟨UInt8.toNat_inj.1 ?_, hlt⟩
  rw [toNat_toUInt8 hlt, hnat]

theorem visibleAscii_visible_text : VisibleAscii visible_text where
  visible text h := by
    have hchars : ∀ c ∈ text, Char.ofNat c.toUInt8.toNat = c := fun c hc => by
      rw [toNat_toUInt8 ((h c hc).2.trans (by decide)), Char.ofNat_toNat]
    have hall : (text.map Char.toUInt8).all (fun b => (32 ≤ b && b < 127) || b == 9) = true := by
      rw [List.all_eq_true, List.forall_mem_map]
      intro c hc
      have hnat := toNat_toUInt8 ((h c hc).2.trans (by decide))
      simp only [Bool.or_eq_true, Bool.and_eq_true, decide_eq_true_eq, UInt8.le_iff_toNat_le,
        UInt8.lt_iff_toNat_lt, hnat]
      exact .inl (h c hc)
    rw [visible_text, if_pos hall, List.map_map]
    exact congrArg (fun text => some (String.ofList text))
      ((List.map_congr_left hchars).trans (List.map_id _))
  sound value text h := by
    rw [visible_text] at h
    split at h
    · next hall =>
      have hbytes : ∀ b ∈ value, b.toNat < 128 := fun b hb => by
        have hvisible := List.all_eq_true.1 hall b hb
        simp only [Bool.or_eq_true, Bool.and_eq_true, decide_eq_true_eq, beq_iff_eq,
          UInt8.lt_iff_toNat_lt, ← UInt8.toNat_inj] at hvisible
        have h127 : (127 : UInt8).toNat = 127 := rfl
        have h9 : (9 : UInt8).toNat = 9 := rfl
        omega
      cases h
      rw [String.toList_ofList, List.map_map]
      constructor
      · exact ((List.map_congr_left fun b hb => (toUInt8_ofNat (hbytes b hb)).1).trans
          (List.map_id _)).symm
      · rw [List.forall_mem_map]
        exact fun b hb => (toUInt8_ofNat (hbytes b hb)).2
    · cases h

/-- The values that are accepted are those of the grammar, and all others are
    rejected with the status, unless the value has a plus sign before one to
    seven digits. -/
theorem grpc_timeout_grammar_iff (h : VisibleAscii to_str) (value : Bytes) :
    (((∃ deadline, grpc_timeout to_str (some value) = some (.ok (some deadline))) ↔
        Grammar value) ∧
      (¬ Grammar value →
        grpc_timeout to_str (some value) =
          some (.error ⟨.InvalidArgument, "invalid grpc-timeout"⟩))) ↔
      ¬ GrammarSigned value := by
  constructor
  · rintro ⟨haccepted, -⟩ hsigned
    obtain ⟨-, hdeadline⟩ | ⟨hnot, -⟩ := grpc_timeout_cases h value
    · exact not_grammar_of_signed hsigned (haccepted.1 hdeadline)
    · exact hnot (.inr hsigned)
  · intro hsigned
    obtain ⟨hgrammar, hdeadline⟩ | ⟨hnot, hrejected⟩ := grpc_timeout_cases h value
    · have hgrammar := hgrammar.resolve_right hsigned
      exact ⟨iff_of_true hdeadline hgrammar, fun hnot => absurd hgrammar hnot⟩
    · refine ⟨iff_of_false ?_ fun hgrammar => hnot (.inl hgrammar), fun _ => hrejected⟩
      rintro ⟨deadline, hdeadline⟩
      rw [hrejected] at hdeadline
      cases hdeadline

/-- A timeout of five seconds, what is allowed of it, and the same with a sign. -/
def five_seconds : Bytes := ['5', 'S'].map Char.toUInt8

theorem grpc_timeout_grammar_iff_five :
    (((∃ deadline, grpc_timeout visible_text (some five_seconds) = some (.ok (some deadline))) ↔
        Grammar five_seconds) ∧
      (¬ Grammar five_seconds →
        grpc_timeout visible_text (some five_seconds) =
          some (.error ⟨.InvalidArgument, "invalid grpc-timeout"⟩))) ↔
      ¬ GrammarSigned five_seconds :=
  grpc_timeout_grammar_iff visibleAscii_visible_text five_seconds

def five_seconds_allowed : Duration := .from_millis 4950

def plus_five_seconds : Bytes := ['+', '5', 'S'].map Char.toUInt8

theorem grammarSigned_plus_five : GrammarSigned plus_five_seconds :=
  ⟨['5'], .Second, ⟨rfl, by decide, List.forall_mem_singleton.2 rfl⟩, by decide⟩

/-- Five seconds with a plus sign: the deadline is 4.95 s. -/
theorem plus_sign_accepted :
    grpc_timeout visible_text (some plus_five_seconds) = some (.ok (some five_seconds_allowed)) ∧
      ¬ Grammar plus_five_seconds :=
  ⟨by rfl, not_grammar_of_signed grammarSigned_plus_five⟩

/-! ## The deadline -/

/-- How a deadline lies to the time that is asked for. -/
structure Within (requested : Nat) (deadline : Duration) : Prop where
  le_requested : deadline.as_nanos ≤ requested
  le_default : deadline.as_nanos ≤ DEFAULT_GRPC_TIMEOUT.as_nanos
  half_le : min requested DEFAULT_GRPC_TIMEOUT.as_nanos ≤ 2 * deadline.as_nanos
  margin_le : min requested DEFAULT_GRPC_TIMEOUT.as_nanos ≤
    deadline.as_nanos + MAX_GRPC_DEADLINE_MARGIN.as_nanos

theorem within_allowed {requested : Nat} {deadline : Duration}
    (h : deadline.as_nanos = allowed requested) : Within requested deadline := by
  rw [allowed] at h
  have hdefault := as_nanos_DEFAULT_GRPC_TIMEOUT
  have hmargin := as_nanos_MAX_GRPC_DEADLINE_MARGIN
  constructor <;> omega

theorem allowed_eq_zero_iff {requested : Nat} : allowed requested = 0 ↔ requested = 0 := by
  rw [allowed]
  omega

theorem TimeoutUnit.nanos_pos (unit : TimeoutUnit) : 0 < unit.nanos := by
  cases unit <;> decide

theorem text_of_accepted (h : VisibleAscii to_str) {value : Bytes} {deadline : Duration}
    (hvalue : grpc_timeout to_str (some value) = some (.ok (some deadline))) :
    ∃ sign digits unit, TimeoutText value sign digits unit ∧ (sign = [] ∨ sign = ['+']) ∧
      sign.length + digits.length ≤ 8 := by
  refine text_of_not_rejected h fun hrejected => ?_
  rw [hvalue] at hrejected
  cases hrejected

/-- The deadline of an accepted value, by the time the value asks for. -/
theorem exact_of_accepted (h : VisibleAscii to_str) {value : Bytes} {deadline : Duration}
    (hvalue : grpc_timeout to_str (some value) = some (.ok (some deadline)))
    {amount : Nat} {unit : TimeoutUnit} (hrequests : Requests value amount unit) :
    ∃ amount' : UInt64, amount'.toNat = amount ∧ Exact amount' unit deadline := by
  obtain ⟨sign, digits, ht, hsign, rfl⟩ := hrequests
  obtain ⟨sign', digits', unit', ht', -, hlen⟩ := text_of_accepted h hvalue
  have hlen : sign.length + digits.length ≤ 8 := by
    have := ht.length
    have := ht'.length
    omega
  obtain ⟨amount', deadline', hamount, hexact, hdeadline⟩ := accepted_of_text h ht hsign hlen
  rw [hvalue] at hdeadline
  cases hdeadline
  exact ⟨amount', hamount, hexact⟩

theorem Exact.as_nanos_of_amount {amount : Nat} {unit : TimeoutUnit} {deadline : Duration}
    (h : ∃ amount' : UInt64, amount'.toNat = amount ∧ Exact amount' unit deadline) :
    deadline.as_nanos = allowed (amount * unit.nanos) := by
  obtain ⟨amount', rfl, hexact⟩ := h
  exact hexact.as_nanos

/-- An accepted value asks for some time. For whatever time it asks, the
    deadline is computed without a loss, it lies below this time and the cap
    by no more than a half and the margin, it is zero when the amount is, and
    it is not longer than that of an accepted value which asks for no less. -/
theorem grpc_timeout_deadline (h : VisibleAscii to_str) {value : Bytes} {deadline : Duration}
    (hvalue : grpc_timeout to_str (some value) = some (.ok (some deadline))) :
    (∃ amount unit, Requests value amount unit) ∧
      ∀ amount unit, Requests value amount unit →
        (∃ amount' : UInt64, amount'.toNat = amount ∧ Exact amount' unit deadline) ∧
        Within (amount * unit.nanos) deadline ∧
        (deadline.is_zero = true ↔ amount = 0) ∧
        ∀ value' deadline' amount' unit',
          grpc_timeout to_str (some value') = some (.ok (some deadline')) →
          Requests value' amount' unit' → amount * unit.nanos ≤ amount' * unit'.nanos →
          deadline.as_nanos ≤ deadline'.as_nanos := by
  constructor
  · obtain ⟨sign, digits, unit, ht, hsign, -⟩ := text_of_accepted h hvalue
    exact ⟨_, unit, sign, digits, ht, hsign, rfl⟩
  · intro amount unit hrequests
    have hexact := exact_of_accepted h hvalue hrequests
    have hnanos := Exact.as_nanos_of_amount hexact
    refine ⟨hexact, within_allowed hnanos, ?_, ?_⟩
    · rw [Duration.is_zero_iff, hnanos, allowed_eq_zero_iff, Nat.mul_eq_zero]
      exact or_iff_left unit.nanos_pos.ne'
    · intro value' deadline' amount' unit' hvalue' hrequests' hle
      rw [hnanos, Exact.as_nanos_of_amount (exact_of_accepted h hvalue' hrequests')]
      exact allowed_mono hle

theorem grpc_timeout_deadline_five :
    (∃ amount unit, Requests five_seconds amount unit) ∧
      ∀ amount unit, Requests five_seconds amount unit →
        (∃ amount' : UInt64, amount'.toNat = amount ∧ Exact amount' unit five_seconds_allowed) ∧
        Within (amount * unit.nanos) five_seconds_allowed ∧
        (five_seconds_allowed.is_zero = true ↔ amount = 0) ∧
        ∀ value' deadline' amount' unit',
          grpc_timeout visible_text (some value') = some (.ok (some deadline')) →
          Requests value' amount' unit' → amount * unit.nanos ≤ amount' * unit'.nanos →
          five_seconds_allowed.as_nanos ≤ deadline'.as_nanos :=
  grpc_timeout_deadline visibleAscii_visible_text (by rfl)

end Inferences.Server.Grpc
