import Mathlib

/-!
# Rounding to binary32

The conversion of a number to `f32`, to nearest with ties to even. A positive
number is rounded at an exponent (`exponent`): that of its binade, but not below
the one of the subnormal numbers. Its significand there is a natural number,
and the float is the two together (`of_rat`), or infinite where they do not fit.

Rounding keeps the order of a number and a power of two (`of_rat_le_two`,
`of_rat_le_one`), and gives zero up to half of the least float.
-/

namespace Inferences.Binary32

open Float.Model UnpackedFloat

/-- The nearest natural number, the even one of two. -/
def round_even (q : ℚ) : ℕ :=
  if q - ⌊q⌋₊ < 1 / 2 then ⌊q⌋₊
  else if 1 / 2 < q - ⌊q⌋₊ then ⌊q⌋₊ + 1
  else ⌊q⌋₊ + ⌊q⌋₊ % 2

/-- The exponent a positive number is rounded at. -/
def exponent (x : ℚ) : ℤ := max (Int.log 2 x - 23) (-149)

/-- The significand of a positive number at its exponent, before a carry. -/
def significand (x : ℚ) : ℕ := round_even (x / 2 ^ exponent x)

/-- A positive number, rounded. -/
def round (sign : Sign) (x : ℚ) : UnpackedFloat :=
  if hcarry : significand x = 2 ^ 24 then .finite sign (2 ^ 23) (exponent x + 1) (by decide)
  else if hzero : significand x = 0 then .zero sign
  else .finite sign (significand x) (exponent x) (Nat.pos_of_ne_zero hzero)

/-- `as f32`. -/
def of_rat (x : ℚ) : Float32 :=
  .ofModel <| .pack <|
    if x = 0 then .zero .positive
    else if 0 < x then round .positive x
    else round .negative (-x)

/-- The zero with a sign. -/
def negative_zero : Float32 := .ofModel (.pack (.zero .negative))

/-! ## Unpacking -/

/-- The sign is the one that was packed. -/
theorem unpackSign_packComponents {spec : Format} {sign : UnpackedFloat.Sign}
    {exponent : BitVec spec.exponentBits} {mantissa : BitVec spec.mantissaBitsWithoutImplicit} :
    unpackSign (packComponents spec sign exponent mantissa) = sign.toBitVec := by
  ext i hi
  obtain rfl : i = 0 := by omega
  simp [unpackSign, packComponents, BitVec.getLsbD_append, BitVec.getElem_append]

/-- A significand and an exponent that fit the format. -/
structure Canonical (m : ℕ) (e : ℤ) : Prop where
  fits : m < 2 ^ 24
  normal : 2 ^ 23 ≤ m ∨ e = -149
  low : -149 ≤ e
  high : e < 105

/-- A significand with its leading bit put back. -/
theorem toNat_leading_append {m : ℕ} (hlow : 2 ^ 23 ≤ m) (hhigh : m < 2 ^ 24) :
    (1#1 ++ BitVec.ofNat 23 m).toNat = m := by
  rw [BitVec.toNat_append, ← Nat.shiftLeft_add_eq_or_of_lt (BitVec.ofNat 23 m).isLt,
    BitVec.toNat_ofNat, Nat.shiftLeft_eq]
  change 1 * 2 ^ 23 + m % 2 ^ 23 = m
  omega

/-- The numbers of exactly 24 bits. -/
theorem log2_iff {m : ℕ} (hm : 0 < m) (hhigh : m < 2 ^ 24) :
    m.log2 + 1 = Format.binary32.mantissaBits ↔ 2 ^ 23 ≤ m := by
  have hlow := Nat.le_log2 (n := m) (k := 23) hm.ne'
  have hlt : m.log2 < 24 := (Nat.log2_lt hm.ne').2 hhigh
  change m.log2 + 1 = 24 ↔ _
  omega

/-- A canonical float is unpacked as it was packed. -/
theorem unpack_pack_finite {m : ℕ} {e : ℤ} (h : Canonical m e) (hm : 0 < m) :
    (Float32.Model.pack (.finite .positive m e hm)).unpack = .finite .positive m e hm := by
  have hlow := h.low
  have hhigh := h.high
  have hfits := h.fits
  obtain ⟨biased, hbiased⟩ : ∃ biased : ℕ, e = biased - 150 := ⟨(e + 150).toNat, by omega⟩
  have hbias : (e + (Format.binary32.exponentBias : ℤ) +
      (Format.binary32.mantissaBitsWithoutImplicit : ℤ)).toNat = biased := by
    change (e + (127 : ℕ) + (23 : ℕ)).toNat = biased
    omega
  have hsmall : ¬ 2 ^ Format.binary32.exponentBits ≤ biased + 1 := by
    change ¬ 2 ^ 8 ≤ biased + 1
    omega
  change UnpackedFloat.unpack Format.binary32 (UnpackedFloat.pack Format.binary32 _) = _
  rw [UnpackedFloat.pack]
  simp only [hbias]
  rw [if_neg hsmall]
  by_cases hnormal : 2 ^ 23 ≤ m
  · -- The leading bit goes away and comes back.
    have hfield : (BitVec.ofNat 8 biased).toNat = biased := by
      rw [BitVec.toNat_ofNat, Nat.mod_eq_of_lt (by omega)]
    have hones : BitVec.ofNat 8 biased ≠ -1#8 := by
      intro heq
      have := congrArg BitVec.toNat heq
      rw [hfield] at this
      change biased = 255 at this
      omega
    have hzero : BitVec.ofNat 8 biased ≠ 0#8 := by
      intro heq
      have := congrArg BitVec.toNat heq
      rw [hfield] at this
      change biased = 0 at this
      omega
    rw [if_pos ((log2_iff hm hfits).2 hnormal), UnpackedFloat.unpack]
    simp only [unpackMantissa_packComponents, unpackExponent_packComponents,
      unpackSign_packComponents]
    rw [if_neg hones, if_neg hzero]
    have hexponent : ((BitVec.ofNat 8 biased).toNat : ℤ) - ((127 : ℕ) + (23 : ℕ)) = e := by
      rw [hfield]
      omega
    simp only [toNat_leading_append hnormal hfits]
    exact congrArg (fun e => UnpackedFloat.finite .positive m e hm) hexponent
  · -- The exponent is the least, and its field is zero.
    have hleast : e = -149 := h.normal.resolve_left hnormal
    have hmantissa : (BitVec.ofNat 23 m).toNat = m := by
      rw [BitVec.toNat_ofNat, Nat.mod_eq_of_lt (by omega)]
    have hzero : BitVec.ofNat 23 m ≠ 0#23 := by
      intro heq
      have := congrArg BitVec.toNat heq
      rw [hmantissa] at this
      change m = 0 at this
      omega
    rw [if_neg (fun hlog => hnormal ((log2_iff hm hfits).1 hlog)), UnpackedFloat.unpack]
    simp only [unpackMantissa_packComponents, unpackExponent_packComponents,
      unpackSign_packComponents]
    rw [if_neg (by decide), if_pos trivial, dif_neg hzero]
    simp only [hmantissa]
    exact congrArg (fun e => UnpackedFloat.finite .positive m e hm) hleast.symm

/-! ## The nearest natural number -/

/-- Rounding keeps a whole number above. -/
theorem round_even_le {q : ℚ} {n : ℕ} (hq : 0 ≤ q) (h : q ≤ n) : round_even q ≤ n := by
  have hfloor : (⌊q⌋₊ : ℚ) ≤ q := Nat.floor_le hq
  have hle : ⌊q⌋₊ ≤ n := by exact_mod_cast hfloor.trans h
  unfold round_even
  split
  · exact hle
  · rename_i hfar
    -- A number that is not close to its floor is not `n`.
    have hne : ⌊q⌋₊ ≠ n := by
      rintro rfl
      linarith
    split
    · omega
    · omega

/-- Rounding keeps a whole number below. -/
theorem le_round_even {q : ℚ} {n : ℕ} (h : n ≤ q) : n ≤ round_even q := by
  have hfloor : n ≤ ⌊q⌋₊ := Nat.le_floor h
  unfold round_even
  split
  · exact hfloor
  split
  · omega
  · omega

/-- Up to a half is rounded to nothing. -/
theorem round_even_eq_zero_iff {q : ℚ} (hq : 0 ≤ q) : round_even q = 0 ↔ q ≤ 1 / 2 := by
  unfold round_even
  by_cases hfloor : ⌊q⌋₊ = 0
  · simp only [hfloor, Nat.cast_zero, sub_zero]
    split
    · rename_i hlt
      exact iff_of_true rfl hlt.le
    split
    · rename_i hlt
      exact iff_of_false (by decide) (not_le.2 hlt)
    · rename_i hle
      exact iff_of_true (Nat.zero_mod 2) (not_lt.1 hle)
  · have hone : (1 : ℚ) ≤ q := by
      have := Nat.floor_le hq
      have : (1 : ℚ) ≤ ⌊q⌋₊ := by exact_mod_cast Nat.one_le_iff_ne_zero.2 hfloor
      linarith
    refine iff_of_false ?_ (by linarith)
    split
    · exact hfloor
    split
    · omega
    · omega

/-! ## The significand -/

section

variable {x : ℚ}

/-- The exponent of the smallest floats. -/
theorem low_exponent (x : ℚ) : -149 ≤ exponent x := le_max_right _ _

theorem scaled_nonneg (hx : 0 < x) : 0 ≤ x / 2 ^ exponent x :=
  div_nonneg hx.le (by positivity)

/-- The significand has at most 24 bits before it is rounded. -/
theorem scaled_le (x : ℚ) : x / 2 ^ exponent x ≤ (2 ^ 24 : ℕ) := by
  rw [div_le_iff₀ (by positivity)]
  have hlt : x < 2 ^ (Int.log 2 x + 1) := Int.lt_zpow_succ_log_self (b := 2) (by decide) x
  have hle : Int.log 2 x + 1 ≤ 24 + exponent x := by
    have : Int.log 2 x - 23 ≤ exponent x := le_max_left _ _
    omega
  calc x ≤ 2 ^ (Int.log 2 x + 1) := hlt.le
    _ ≤ 2 ^ (24 + exponent x) := zpow_le_zpow_right₀ (by norm_num) hle
    _ = (2 ^ 24 : ℕ) * 2 ^ exponent x := by
      rw [zpow_add₀ (by norm_num)]
      norm_num

/-- It has after it is rounded, but for a power of two. -/
theorem significand_le (hx : 0 < x) : significand x ≤ 2 ^ 24 :=
  round_even_le (scaled_nonneg hx) (scaled_le x)

/-- Above the subnormal numbers, the leading bit is there. -/
theorem le_significand (hx : 0 < x) (h : exponent x ≠ -149) : 2 ^ 23 ≤ significand x := by
  have hexponent : exponent x = Int.log 2 x - 23 := (max_choice _ _).resolve_right h
  refine le_round_even ?_
  rw [le_div_iff₀ (by positivity), hexponent]
  calc ((2 ^ 23 : ℕ) : ℚ) * 2 ^ (Int.log 2 x - 23) = 2 ^ Int.log 2 x := by
        rw [zpow_sub₀ (by norm_num)]
        norm_num
        ring
    _ ≤ x := Int.zpow_log_le_self (by decide) hx

/-- A positive number is rounded to zero up to half of the least float. -/
theorem significand_eq_zero_iff (hx : 0 < x) : significand x = 0 ↔ x ≤ 2 ^ (-150 : ℤ) := by
  by_cases h : exponent x = -149
  · rw [significand, round_even_eq_zero_iff (scaled_nonneg hx), h, div_le_iff₀ (by positivity)]
    have hhalf : (1 / 2 : ℚ) * 2 ^ (-149 : ℤ) = 2 ^ (-150 : ℤ) := by norm_num
    rw [hhalf]
  · -- with the leading bit there, the number is far above
    have hleading := le_significand hx h
    refine iff_of_false (by omega) (not_le.2 ?_)
    have hlow := low_exponent x
    have hlog : exponent x = Int.log 2 x - 23 := (max_choice _ _).resolve_right h
    calc (2 : ℚ) ^ (-150 : ℤ) < 2 ^ Int.log 2 x :=
          zpow_lt_zpow_right₀ (by norm_num) (by omega)
      _ ≤ x := Int.zpow_log_le_self (by decide) hx

/-- A number below a power of two is rounded at a lower exponent. -/
theorem exponent_lt {k : ℤ} (hx : 0 < x) (hlt : x < 2 ^ k) (hk : -126 < k) :
    exponent x < k - 23 := by
  have hlog : Int.log 2 x < k := (Int.lt_zpow_iff_log_lt (by decide) hx).1 hlt
  refine max_lt ?_ ?_
  · omega
  · omega

/-- The exponent of a power of two. -/
theorem exponent_zpow {k : ℤ} (hk : -126 < k) : exponent (2 ^ k) = k - 23 := by
  have hlog : Int.log 2 ((2 : ℚ) ^ k) = k := Int.log_zpow (R := ℚ) (b := 2) (by decide) k
  rw [exponent, hlog]
  exact max_eq_left (by omega)

/-- The significand of a power of two. -/
theorem significand_zpow {k : ℤ} (hk : -126 < k) : significand (2 ^ k) = 2 ^ 23 := by
  have hscaled : (2 : ℚ) ^ k / 2 ^ exponent ((2 : ℚ) ^ k) = (2 ^ 23 : ℕ) := by
    rw [exponent_zpow hk, ← zpow_sub₀ (by norm_num)]
    norm_num
  rw [significand, hscaled]
  exact le_antisymm (round_even_le (by positivity) le_rfl) (le_round_even le_rfl)

end

/-! ## Powers of two as bounds -/

/-- A positive float up to `2 ^ k`. -/
def AtMost (k : ℤ) (u : UnpackedFloat) : Prop :=
  ∃ m e hm, u = .finite .positive m e hm ∧ Canonical m e ∧
    (e < k - 23 ∨ e = k - 23 ∧ m ≤ 2 ^ 23)

section

variable {x : ℚ} {k : ℤ}

/-- Rounding keeps a power of two above. -/
theorem round_atMost (hx : 0 < x) (hle : x ≤ 2 ^ k) (hlow : -126 < k) (hhigh : k < 128)
    (hzero : significand x ≠ 0) : AtMost k (round .positive x) := by
  have hbound := significand_le hx
  have hleast := low_exponent x
  unfold round
  rcases hle.lt_or_eq with hlt | rfl
  · -- below the power of two, a carry goes up to it at most
    have hexponent := exponent_lt hx hlt hlow
    split
    · exact ⟨_, _, _, rfl, ⟨by decide, .inl le_rfl, by omega, by omega⟩, by omega⟩
    · rename_i hcarry
      have hnormal : 2 ^ 23 ≤ significand x ∨ exponent x = -149 :=
        or_iff_not_imp_right.2 (le_significand hx)
      exact ⟨_, _, _, rfl, ⟨by omega, hnormal, hleast, by omega⟩, .inl hexponent⟩
  · have hsignificand := significand_zpow hlow
    have hexponent := exponent_zpow hlow
    rw [dif_neg (by omega), dif_neg hzero]
    exact ⟨_, _, _, rfl, ⟨by omega, .inl hsignificand.ge, hleast, by omega⟩,
      .inr ⟨hexponent, hsignificand.le⟩⟩

/-- A positive number up to a power of two gives a float up to it, or zero. -/
theorem unpack_of_rat (hx : 0 < x) (hle : x ≤ 2 ^ k) (hlow : -126 < k) (hhigh : k < 128) :
    (significand x = 0 ∧ (of_rat x).toModel.unpack = .zero .positive) ∨
      (significand x ≠ 0 ∧ AtMost k (of_rat x).toModel.unpack) := by
  have hof : (of_rat x).toModel = Float32.Model.pack (round .positive x) := by
    rw [of_rat, if_neg hx.ne', if_pos hx]
  rw [hof]
  by_cases hzero : significand x = 0
  · have hround : round .positive x = .zero .positive := by
      rw [round, dif_neg (by omega), dif_pos hzero]
    rw [hround]
    exact .inl ⟨hzero, rfl⟩
  · have hround := round_atMost hx hle hlow hhigh hzero
    obtain ⟨m, e, hm, heq, hcanonical, hbound⟩ := hround
    rw [heq, unpack_pack_finite hcanonical hm]
    exact .inr ⟨hzero, m, e, hm, rfl, hcanonical, hbound⟩

theorem AtMost.isFinite {u : UnpackedFloat} (h : AtMost k u) : u.isFinite = true := by
  obtain ⟨m, e, hm, rfl, -⟩ := h
  rfl

theorem AtMost.pos {u : UnpackedFloat} (h : AtMost k u) (sign : Sign) :
    UnpackedFloat.lt (.zero sign) u = true := by
  obtain ⟨m, e, hm, rfl, -⟩ := h
  rfl

theorem AtMost.nonneg {u : UnpackedFloat} (h : AtMost k u) (sign : Sign) :
    UnpackedFloat.le (.zero sign) u = true := by
  obtain ⟨m, e, hm, rfl, -⟩ := h
  rfl

theorem AtMost.le {u : UnpackedFloat} (h : AtMost k u) (hpos : 0 < 2 ^ 23) :
    u.le (.finite .positive (2 ^ 23) (k - 23) hpos) = true := by
  obtain ⟨m, e, hm, rfl, -, hlt | ⟨rfl, hle⟩⟩ := h
  · simp [UnpackedFloat.le, UnpackedFloat.compare, Int.compare_eq_lt.2 hlt]
  · have hcompare : (compare m (2 ^ 23)).isLE = true := Nat.isLE_compare.2 hle
    simpa [UnpackedFloat.le, UnpackedFloat.compare] using hcompare

theorem le_iff {a b : Float32} : a ≤ b ↔ a.toModel.unpack.le b.toModel.unpack = true :=
  decide_eq_true_iff

theorem lt_iff {a b : Float32} : a < b ↔ a.toModel.unpack.lt b.toModel.unpack = true :=
  decide_eq_true_iff

theorem unpack_zero : (0.0 : Float32).toModel.unpack = .zero .positive := rfl

theorem unpack_one :
    (1.0 : Float32).toModel.unpack = .finite .positive (2 ^ 23) (0 - 23) (by decide) := rfl

theorem unpack_two :
    (2.0 : Float32).toModel.unpack = .finite .positive (2 ^ 23) (1 - 23) (by decide) := rfl

theorem of_rat_zero : of_rat 0 = 0.0 := by
  rw [of_rat, if_pos rfl]
  rfl

/-- A number from 0 to 2 stays there. -/
theorem of_rat_le_two (hx : 0 ≤ x) (hle : x ≤ 2) :
    (of_rat x).isFinite = true ∧ 0.0 ≤ of_rat x ∧ of_rat x ≤ 2.0 := by
  rcases hx.eq_or_lt with rfl | hpos
  · rw [of_rat_zero]
    decide
  rw [le_iff, le_iff, unpack_zero, unpack_two]
  rcases unpack_of_rat (k := 1) hpos (by simpa using hle) (by decide) (by decide) with
    ⟨-, hzero⟩ | ⟨-, hmost⟩
  · have hfinite : (of_rat x).isFinite = true := congrArg UnpackedFloat.isFinite hzero
    rw [hzero]
    exact ⟨hfinite, rfl, rfl⟩
  · exact ⟨hmost.isFinite, hmost.nonneg _, hmost.le _⟩

/-- A positive number up to 1 stays there, and is zero up to half of the least float. -/
theorem of_rat_le_one (hx : 0 < x) (hle : x ≤ 1) :
    (of_rat x).isFinite = true ∧ of_rat x ≤ 1.0 ∧ (0.0 < of_rat x ↔ 2 ^ (-150 : ℤ) < x) := by
  rw [le_iff, lt_iff, unpack_zero, unpack_one]
  rcases unpack_of_rat (k := 0) hx (by simpa using hle) (by decide) (by decide) with
    ⟨hsmall, hzero⟩ | ⟨hlarge, hmost⟩
  · have hfinite : (of_rat x).isFinite = true := congrArg UnpackedFloat.isFinite hzero
    rw [hzero]
    exact ⟨hfinite, rfl,
      iff_of_false (by decide) (not_lt.2 ((significand_eq_zero_iff hx).1 hsmall))⟩
  · exact ⟨hmost.isFinite, hmost.le _, iff_of_true (hmost.pos _)
      (not_le.1 fun h => hlarge ((significand_eq_zero_iff hx).2 h))⟩

end

end Inferences.Binary32
