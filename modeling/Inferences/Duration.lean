import Mathlib

/-!
# Durations and decimal numbers

`Duration` of the standard library: seconds and the nanoseconds below a second,
with the operations as the library computes them, in machine words. Each
operation is known by what it makes of the nanoseconds (`as_nanos`):

* `as_nanos_from_secs` and the others: the constructors.
* `as_nanos_min`, `as_nanos_checked_div`, `as_nanos_checked_sub`: the minimum,
  the division by a number, which rounds down, and the subtraction.

`parse_u64` reads a decimal number as `str::parse` does, a plus sign before the
digits included (`parse_u64_eq_some`).
-/

namespace Inferences.Time

def NANOS_PER_SEC : UInt32 := 1000000000

@[simp] theorem toNat_NANOS_PER_SEC : NANOS_PER_SEC.toNat = 10 ^ 9 := by decide

structure Duration where
  secs : UInt64
  nanos : UInt32
  nanos_lt : nanos < NANOS_PER_SEC
  deriving DecidableEq

namespace Duration

/-- The whole length in nanoseconds. -/
def as_nanos (self : Duration) : Nat := self.secs.toNat * 10 ^ 9 + self.nanos.toNat

/-- The nanoseconds are less than a second. -/
theorem nanos_toNat_lt (self : Duration) : self.nanos.toNat < 10 ^ 9 :=
  toNat_NANOS_PER_SEC ▸ UInt32.lt_iff_toNat_lt.1 self.nanos_lt

/-- No time at all. -/
def ZERO : Duration := ⟨0, 0, by decide⟩

/-! ## Constructors -/

/-- `Duration::new` carries whole seconds over; nothing when that overflows,
    where it panics. -/
def new (secs : UInt64) (nanos : UInt32) : Option Duration :=
  if h : nanos < NANOS_PER_SEC then some ⟨secs, nanos, h⟩
  else if secs.toNat + (nanos / NANOS_PER_SEC).toNat < 2 ^ 64 then
    some ⟨secs + (nanos / NANOS_PER_SEC).toUInt64, nanos % NANOS_PER_SEC,
      UInt32.mod_lt _ (by decide)⟩
  else none

/-- A number of seconds. -/
def from_secs (secs : UInt64) : Duration := ⟨secs, 0, by decide⟩

/-- The part below a second does not overflow. -/
theorem toNat_subsec (value : UInt64) {per : UInt64} {unit : UInt32}
    (h : per.toNat * unit.toNat = 10 ^ 9) :
    ((value % per).toUInt32 * unit).toNat = value.toNat % per.toNat * unit.toNat ∧
      value.toNat % per.toNat * unit.toNat < 10 ^ 9 := by
  have hper : 0 < per.toNat := Nat.pos_of_ne_zero fun h0 => by simp [h0] at h
  have hunit : 0 < unit.toNat := Nat.pos_of_ne_zero fun h0 => by simp [h0] at h
  have hper_le : per.toNat ≤ 10 ^ 9 := h ▸ Nat.le_mul_of_pos_right _ hunit
  have hmod : value.toNat % per.toNat < per.toNat := Nat.mod_lt _ hper
  have hlt : value.toNat % per.toNat * unit.toNat < 10 ^ 9 :=
    h ▸ Nat.mul_lt_mul_of_pos_right hmod hunit
  refine ⟨?_, hlt⟩
  rw [UInt32.toNat_mul, UInt64.toNat_toUInt32, UInt64.toNat_mod,
    Nat.mod_eq_of_lt (a := value.toNat % per.toNat) (by omega), Nat.mod_eq_of_lt (by omega)]

/-- So many units of which `per` make a second, of `unit` nanoseconds each. -/
def of_units (value per : UInt64) (unit : UInt32) (h : per.toNat * unit.toNat = 10 ^ 9) :
    Duration where
  secs := value / per
  nanos := (value % per).toUInt32 * unit
  nanos_lt := by
    rw [UInt32.lt_iff_toNat_lt, (toNat_subsec value h).1, toNat_NANOS_PER_SEC]
    exact (toNat_subsec value h).2

/-- A number of milliseconds. -/
def from_millis (millis : UInt64) : Duration := of_units millis 1000 1000000 rfl

/-- A number of microseconds. -/
def from_micros (micros : UInt64) : Duration := of_units micros 1000000 1000 rfl

/-- A number of nanoseconds. -/
def from_nanos (nanos : UInt64) : Duration := of_units nanos 1000000000 1 rfl

@[simp] theorem as_nanos_from_secs (secs : UInt64) :
    (from_secs secs).as_nanos = secs.toNat * 10 ^ 9 := by
  rw [as_nanos, from_secs]
  simp

/-- The time is the number of units. -/
theorem as_nanos_of_units {value per : UInt64} {unit : UInt32}
    (h : per.toNat * unit.toNat = 10 ^ 9) :
    (of_units value per unit h).as_nanos = value.toNat * unit.toNat := by
  calc (of_units value per unit h).as_nanos
      = value.toNat / per.toNat * 10 ^ 9 + value.toNat % per.toNat * unit.toNat := by
        rw [as_nanos, of_units, (toNat_subsec value h).1, UInt64.toNat_div]
    _ = (per.toNat * (value.toNat / per.toNat) + value.toNat % per.toNat) * unit.toNat := by
        rw [← h]
        ring
    _ = value.toNat * unit.toNat := by rw [Nat.div_add_mod]

@[simp] theorem as_nanos_from_millis (millis : UInt64) :
    (from_millis millis).as_nanos = millis.toNat * 10 ^ 6 := as_nanos_of_units rfl

@[simp] theorem as_nanos_from_micros (micros : UInt64) :
    (from_micros micros).as_nanos = micros.toNat * 10 ^ 3 := as_nanos_of_units rfl

@[simp] theorem as_nanos_from_nanos (nanos : UInt64) :
    (from_nanos nanos).as_nanos = nanos.toNat := (as_nanos_of_units rfl).trans (mul_one _)

/-! ## Operations -/

/-- The derived order: seconds first. -/
def lt (self other : Duration) : Bool :=
  self.secs < other.secs || self.secs == other.secs && self.nanos < other.nanos

/-- `Ord::min`. -/
protected def min (self other : Duration) : Duration := if other.lt self then other else self

/-- No time at all. -/
def is_zero (self : Duration) : Bool := self.secs == 0 && self.nanos == 0

/-- The duration of so many nanoseconds, if it fits. -/
def of_total (nanos : Nat) : Option Duration :=
  if nanos < 2 ^ 64 * 10 ^ 9 then
    some {
      secs := .ofNat (nanos / 10 ^ 9)
      nanos := .ofNat (nanos % 10 ^ 9)
      nanos_lt := by
        have hlt : nanos % 10 ^ 9 < 10 ^ 9 := Nat.mod_lt _ (by decide)
        rw [UInt32.lt_iff_toNat_lt, toNat_NANOS_PER_SEC,
          UInt32.toNat_ofNat_of_lt' (hlt.trans (by decide))]
        exact hlt }
  else none

def checked_mul (self : Duration) (rhs : UInt32) : Option Duration :=
  of_total (self.as_nanos * rhs.toNat)

def checked_add (self rhs : Duration) : Option Duration := of_total (self.as_nanos + rhs.as_nanos)

/-- `Duration::checked_div`; nothing also where `Duration::new` panics. -/
def checked_div (self : Duration) (rhs : UInt32) : Option Duration :=
  if rhs = 0 then none
  else
    let secs := self.secs / rhs.toUInt64
    let extra_secs := self.secs % rhs.toUInt64
    let nanos := self.nanos / rhs
    let extra_nanos := self.nanos % rhs
    new secs (nanos +
      ((extra_secs * NANOS_PER_SEC.toUInt64 + extra_nanos.toUInt64) / rhs.toUInt64).toUInt32)

/-- The difference, if it is not negative. -/
def checked_sub (self rhs : Duration) : Option Duration :=
  if rhs.secs ≤ self.secs then
    let secs := self.secs - rhs.secs
    if rhs.nanos ≤ self.nanos then new secs (self.nanos - rhs.nanos)
    else if 1 ≤ secs then new (secs - 1) (self.nanos + NANOS_PER_SEC - rhs.nanos)
    else none
  else none

/-- The order is that of the nanoseconds. -/
theorem lt_iff {d e : Duration} : d.lt e = true ↔ d.as_nanos < e.as_nanos := by
  have hd := d.nanos_toNat_lt
  have he := e.nanos_toNat_lt
  simp only [lt, as_nanos, Bool.or_eq_true, Bool.and_eq_true, decide_eq_true_eq, beq_iff_eq,
    UInt64.lt_iff_toNat_lt, UInt32.lt_iff_toNat_lt, ← UInt64.toNat_inj]
  omega

/-- Only no time at all has no nanoseconds. -/
theorem is_zero_iff {d : Duration} : d.is_zero = true ↔ d.as_nanos = 0 := by
  have hd := d.nanos_toNat_lt
  simp only [is_zero, as_nanos, Bool.and_eq_true, beq_iff_eq, ← UInt64.toNat_inj,
    ← UInt32.toNat_inj, UInt64.toNat_zero, UInt32.toNat_zero]
  omega

@[simp] theorem as_nanos_min (d e : Duration) :
    (d.min e).as_nanos = min d.as_nanos e.as_nanos := by
  rw [Duration.min]
  split
  · next h =>
    have := lt_iff.1 h
    omega
  · next h =>
    have := mt lt_iff.2 h
    omega

theorem new_of_lt (secs : UInt64) {nanos : UInt32} {n : Nat} (hnanos : nanos.toNat = n)
    (hn : n < 10 ^ 9) :
    ∃ duration, new secs nanos = some duration ∧ duration.as_nanos = secs.toNat * 10 ^ 9 + n := by
  subst hnanos
  have hlt : nanos < NANOS_PER_SEC := by
    rw [UInt32.lt_iff_toNat_lt, toNat_NANOS_PER_SEC]
    exact hn
  exact ⟨_, dif_pos hlt, rfl⟩

/-- Seconds and nanoseconds are divided apart, and what remains of the seconds
    is carried over to the nanoseconds. -/
theorem div_parts (secs nanos per : Nat) {rhs : Nat} (hrhs : 0 < rhs) :
    (secs * per + nanos) / rhs =
      secs / rhs * per + (nanos / rhs + (secs % rhs * per + nanos % rhs) / rhs) := by
  have hsum : secs * per + nanos =
      rhs * (secs / rhs * per + nanos / rhs) + (secs % rhs * per + nanos % rhs) := by
    conv_lhs => rw [← Nat.div_add_mod secs rhs, ← Nat.div_add_mod nanos rhs]
    ring
  rw [hsum, Nat.mul_add_div hrhs]
  omega

/-- What the nanoseconds of a quotient come to, below a second. -/
theorem nanos_quotient_lt (secs nanos per : Nat) {rhs : Nat} (hrhs : 0 < rhs) (h : nanos < per) :
    nanos / rhs + (secs % rhs * per + nanos % rhs) / rhs < per := by
  have hparts := div_parts (secs % rhs) nanos per hrhs
  rw [Nat.div_eq_of_lt (Nat.mod_lt _ hrhs), Nat.mod_mod, zero_mul, zero_add] at hparts
  rw [← hparts, Nat.div_lt_iff_lt_mul hrhs]
  calc secs % rhs * per + nanos < secs % rhs * per + per := by omega
    _ = (secs % rhs + 1) * per := by ring
    _ ≤ per * rhs := by
      rw [mul_comm per]
      exact Nat.mul_le_mul_right _ (Nat.mod_lt _ hrhs)

/-- Dividing by a number that is not zero neither overflows nor panics, and
    rounds the nanoseconds down. -/
theorem as_nanos_checked_div (d : Duration) {rhs : UInt32} (hrhs : rhs ≠ 0) :
    ∃ quotient, d.checked_div rhs = some quotient ∧
      quotient.as_nanos = d.as_nanos / rhs.toNat := by
  have hpos : 0 < rhs.toNat := Nat.pos_of_ne_zero fun h => hrhs (UInt32.toNat_inj.1 h)
  have hmod : d.secs.toNat % rhs.toNat < 2 ^ 32 := (Nat.mod_lt _ hpos).trans rhs.toNat_lt
  have hextra : d.nanos.toNat % rhs.toNat < 10 ^ 9 := (Nat.mod_le _ _).trans_lt d.nanos_toNat_lt
  have hlt := nanos_quotient_lt d.secs.toNat d.nanos.toNat _ hpos d.nanos_toNat_lt
  -- The machine words hold all that is computed.
  have hcarry : ((d.secs % rhs.toUInt64 * NANOS_PER_SEC.toUInt64 + (d.nanos % rhs).toUInt64) /
      rhs.toUInt64).toUInt32.toNat =
      (d.secs.toNat % rhs.toNat * 10 ^ 9 + d.nanos.toNat % rhs.toNat) / rhs.toNat := by
    simp only [UInt64.toNat_toUInt32, UInt64.toNat_div, UInt64.toNat_add, UInt64.toNat_mul,
      UInt64.toNat_mod, UInt32.toNat_toUInt64, UInt32.toNat_mod, toNat_NANOS_PER_SEC]
    rw [Nat.mod_eq_of_lt (a := _ * _) (by omega), Nat.mod_eq_of_lt (a := _ + _) (by omega),
      Nat.mod_eq_of_lt (((Nat.le_add_left _ _).trans_lt hlt).trans (by decide))]
  have hnanos : (d.nanos / rhs + ((d.secs % rhs.toUInt64 * NANOS_PER_SEC.toUInt64 +
      (d.nanos % rhs).toUInt64) / rhs.toUInt64).toUInt32).toNat =
      d.nanos.toNat / rhs.toNat +
        (d.secs.toNat % rhs.toNat * 10 ^ 9 + d.nanos.toNat % rhs.toNat) / rhs.toNat := by
    rw [UInt32.toNat_add, hcarry, UInt32.toNat_div, Nat.mod_eq_of_lt (hlt.trans (by decide))]
  obtain ⟨quotient, hnew, hquotient⟩ := new_of_lt (d.secs / rhs.toUInt64) hnanos hlt
  refine ⟨quotient, (if_neg hrhs).trans hnew, ?_⟩
  rw [hquotient, as_nanos, UInt64.toNat_div, UInt32.toNat_toUInt64]
  exact (div_parts _ _ _ hpos).symm

/-- A subtraction that is possible is exact. -/
theorem as_nanos_checked_sub {d e : Duration} (h : e.as_nanos ≤ d.as_nanos) :
    ∃ difference, d.checked_sub e = some difference ∧
      difference.as_nanos = d.as_nanos - e.as_nanos := by
  have hd := d.nanos_toNat_lt
  have he := e.nanos_toNat_lt
  have hsplit : e.secs.toNat * 10 ^ 9 + e.nanos.toNat ≤ d.secs.toNat * 10 ^ 9 + d.nanos.toNat := h
  have hsecs : e.secs ≤ d.secs := by
    rw [UInt64.le_iff_toNat_le]
    omega
  have hdiff : (d.secs - e.secs).toNat = d.secs.toNat - e.secs.toNat :=
    UInt64.toNat_sub_of_le _ _ hsecs
  rw [checked_sub, if_pos hsecs]
  rw [UInt64.le_iff_toNat_le] at hsecs
  by_cases hnanos : e.nanos ≤ d.nanos
  · obtain ⟨difference, hnew, hdifference⟩ := new_of_lt (d.secs - e.secs)
      (UInt32.toNat_sub_of_le _ _ hnanos) (by omega)
    refine ⟨difference, (if_pos hnanos).trans hnew, ?_⟩
    rw [UInt32.le_iff_toNat_le] at hnanos
    rw [hdifference, hdiff, as_nanos, as_nanos]
    omega
  · -- One second is borrowed.
    have hborrow : 1 ≤ d.secs - e.secs := by
      rw [UInt32.le_iff_toNat_le] at hnanos
      rw [UInt64.le_iff_toNat_le, hdiff, UInt64.toNat_one]
      omega
    have hnanos' : (d.nanos + NANOS_PER_SEC - e.nanos).toNat =
        d.nanos.toNat + 10 ^ 9 - e.nanos.toNat := by
      have hadd : (d.nanos + NANOS_PER_SEC).toNat = d.nanos.toNat + 10 ^ 9 := by
        rw [UInt32.toNat_add, toNat_NANOS_PER_SEC, Nat.mod_eq_of_lt (by omega)]
      rw [UInt32.toNat_sub_of_le _ _ (by rw [UInt32.le_iff_toNat_le, hadd]; omega), hadd]
    rw [UInt32.le_iff_toNat_le] at hnanos
    obtain ⟨difference, hnew, hdifference⟩ := new_of_lt (d.secs - e.secs - 1) hnanos' (by omega)
    refine ⟨difference, ?_, ?_⟩
    · rw [if_neg (by rwa [UInt32.le_iff_toNat_le]), if_pos hborrow]
      exact hnew
    · rw [hdifference, UInt64.toNat_sub_of_le _ _ hborrow, hdiff, UInt64.toNat_one, as_nanos,
        as_nanos]
      omega

end Duration

/-! ## Decimal numbers -/

/-- `u64::saturating_mul`. -/
def saturating_mul (a b : UInt64) : UInt64 :=
  if a.toNat * b.toNat < 2 ^ 64 then a * b else UInt64.ofNat (2 ^ 64 - 1)

def checked_mul (a b : UInt64) : Option UInt64 :=
  if a.toNat * b.toNat < 2 ^ 64 then some (a * b) else none

def checked_add (a b : UInt64) : Option UInt64 :=
  if a.toNat + b.toNat < 2 ^ 64 then some (a + b) else none

/-- `char::to_digit`, in the decimal system. -/
def to_digit (c : Char) : Option UInt64 :=
  if c.isDigit then some (UInt64.ofNat (c.toNat - '0'.toNat)) else none

/-- The loop of `parse_u64`. -/
def parse_digits (result : UInt64) : List Char → Option UInt64
  | [] => some result
  | c :: digits => do
    let mul := checked_mul result 10
    let x ← to_digit c
    let result ← checked_add (← mul) x
    parse_digits result digits

/-- `str::parse::<u64>`, without the kind of its error. -/
def parse_u64 : List Char → Option UInt64
  | [] | ['+'] | ['-'] => none
  | '+' :: digits => parse_digits 0 digits
  | digits => parse_digits 0 digits

/-- Below the bound, the product is exact. -/
theorem toNat_saturating_mul {a b : UInt64} (h : a.toNat * b.toNat < 2 ^ 64) :
    (saturating_mul a b).toNat = a.toNat * b.toNat := by
  rw [saturating_mul, if_pos h, UInt64.toNat_mul, Nat.mod_eq_of_lt h]

theorem checked_mul_eq_some {a b c : UInt64} :
    checked_mul a b = some c ↔ c.toNat = a.toNat * b.toNat := by
  rw [checked_mul]
  split
  · next h =>
    rw [Option.some_inj, eq_comm, ← UInt64.toNat_inj, UInt64.toNat_mul, Nat.mod_eq_of_lt h]
  · next h =>
    have := c.toNat_lt
    simp only [reduceCtorEq, false_iff]
    omega

theorem checked_add_eq_some {a b c : UInt64} :
    checked_add a b = some c ↔ c.toNat = a.toNat + b.toNat := by
  rw [checked_add]
  split
  · next h =>
    rw [Option.some_inj, eq_comm, ← UInt64.toNat_inj, UInt64.toNat_add, Nat.mod_eq_of_lt h]
  · next h =>
    have := c.toNat_lt
    simp only [reduceCtorEq, false_iff]
    omega

/-- The digits, with their values. -/
theorem to_digit_eq_some {c : Char} {x : UInt64} :
    to_digit c = some x ↔ c.isDigit = true ∧ x.toNat = c.toNat - '0'.toNat := by
  rw [to_digit]
  split
  · next h =>
    have hlt : c.toNat - '0'.toNat < 2 ^ 64 := by
      have := (Char.isDigit_iff_toNat.1 h).2
      have h9 : '9'.toNat = 57 := rfl
      omega
    rw [Option.some_inj, eq_comm, ← UInt64.toNat_inj, UInt64.toNat_ofNat', Nat.mod_eq_of_lt hlt]
    simp [h]
  · next h => simp [h]

/-- A loop that has read some digits gives the number of these and the rest:
    no more is in it than it holds, as a number only grows. -/
theorem parse_digits_eq_some {result n : UInt64} {digits : List Char} :
    parse_digits result digits = some n ↔
      (∀ c ∈ digits, c.isDigit = true) ∧ n.toNat = Nat.ofDigitChars 10 digits result.toNat := by
  induction digits generalizing result with
  | nil => simp [parse_digits, eq_comm (a := n.toNat), UInt64.toNat_inj]
  | cons c digits ih =>
    have hgrow : ∀ init, init ≤ Nat.ofDigitChars 10 digits init := fun init => by
      rw [Nat.ofDigitChars_eq_ofDigitChars_zero]
      exact (Nat.le_mul_of_pos_left init (by positivity)).trans (Nat.le_add_right _ _)
    simp only [parse_digits, Option.bind_eq_bind, Option.bind_eq_some_iff, to_digit_eq_some,
      checked_mul_eq_some, checked_add_eq_some, ih, List.forall_mem_cons, Nat.ofDigitChars_cons]
    constructor
    · rintro ⟨x, ⟨hc, hx⟩, product, hproduct, sum, hsum, hdigits, hn⟩
      refine ⟨⟨hc, hdigits⟩, ?_⟩
      rw [hn, hsum, hproduct, hx, mul_comm]
      rfl
    · rintro ⟨⟨hc, hdigits⟩, hn⟩
      have hle := hgrow (10 * result.toNat + (c.toNat - '0'.toNat))
      rw [← hn] at hle
      have hn_lt := n.toNat_lt
      refine ⟨.ofNat (c.toNat - '0'.toNat), ⟨hc, ?_⟩, .ofNat (result.toNat * 10), ?_,
        .ofNat (10 * result.toNat + (c.toNat - '0'.toNat)), ?_, hdigits, ?_⟩
      · rw [UInt64.toNat_ofNat', Nat.mod_eq_of_lt (by omega)]
      · rw [UInt64.toNat_ofNat', Nat.mod_eq_of_lt (by omega)]
        rfl
      · simp only [UInt64.toNat_ofNat']
        omega
      · rw [hn, UInt64.toNat_ofNat', Nat.mod_eq_of_lt (by omega)]

/-- What is read as a number: digits, perhaps after a plus sign. -/
theorem parse_u64_eq_some {text : List Char} {n : UInt64} :
    parse_u64 text = some n ↔ ∃ sign digits, text = sign ++ digits ∧ (sign = [] ∨ sign = ['+']) ∧
      digits ≠ [] ∧ (∀ c ∈ digits, c.isDigit = true) ∧ n.toNat = Nat.ofDigitChars 10 digits 0 := by
  constructor
  · intro h
    unfold parse_u64 at h
    split at h
    · cases h
    · cases h
    · cases h
    · next digits hlone =>
      obtain ⟨hdigits, hn⟩ := parse_digits_eq_some.1 h
      exact ⟨['+'], digits, rfl, .inr rfl, fun h0 => hlone (by rw [h0]), hdigits, hn⟩
    · next hnil _ _ _ =>
      obtain ⟨hdigits, hn⟩ := parse_digits_eq_some.1 h
      exact ⟨[], text, rfl, .inl rfl, hnil, hdigits, hn⟩
  · rintro ⟨sign, digits, rfl, rfl | rfl, hne, hdigits, hn⟩
    · have hparse : parse_digits 0 digits = some n := parse_digits_eq_some.2 ⟨hdigits, hn⟩
      rw [List.nil_append]
      unfold parse_u64
      split
      · exact absurd rfl hne
      · exact absurd (hdigits '+' List.mem_cons_self) (by decide)
      · exact absurd (hdigits '-' List.mem_cons_self) (by decide)
      · exact absurd (hdigits '+' List.mem_cons_self) (by decide)
      · exact hparse
    · have hparse : parse_digits 0 digits = some n := parse_digits_eq_some.2 ⟨hdigits, hn⟩
      cases digits with
      | nil => exact absurd rfl hne
      | cons c digits => exact hparse

end Inferences.Time
