import Inferences.Binary32

/-!
# The numbers of binary32

A finite float stands for a number (`to_rat`), and rounding that number gives
the float back (`of_rat_to_rat`), if it is not the zero with a sign: the
exponent and the significand of the float are those its number is rounded at.
-/

namespace Inferences.Binary32

open Float.Model UnpackedFloat

/-- The number a finite float stands for. -/
def to_rat (x : Float32) : Option ℚ :=
  match x.toModel.unpack with
  | .zero _ => some 0
  | .finite .positive m e _ => some (m * 2 ^ e)
  | .finite .negative m e _ => some (-(m * 2 ^ e))
  | _ => none

/-- The zero with a sign. -/
def is_negative_zero (x : Float32) : Bool :=
  match x.toModel.unpack with
  | .zero .negative => true
  | _ => false

theorem exists_to_rat {x : Float32} (h : x.isFinite = true) : ∃ q, to_rat x = some q := by
  have hfinite : x.toModel.unpack.isFinite = true := h
  unfold to_rat
  rcases hx : x.toModel.unpack with sign | _ | sign | ⟨sign, m, e, hm⟩
  · rw [hx] at hfinite
    cases hfinite
  · rw [hx] at hfinite
    cases hfinite
  · exact ⟨0, rfl⟩
  · cases sign <;> exact ⟨_, rfl⟩

/-! ## Packing -/

theorem toBitVec_ofBitVec (b : BitVec 1) : (Sign.ofBitVec b).toBitVec = b := by
  revert b
  decide

/-- A float is put together from its parts. -/
theorem packComponents_unpack (b : BitVec Format.binary32.numBits) :
    packComponents Format.binary32 (Sign.ofBitVec (unpackSign b)) (unpackExponent b)
      (unpackMantissa b) = b := by
  rw [packComponents, toBitVec_ofBitVec]
  have hparts (b : BitVec 32) :
      (b.extractLsb 31 31 ++ b.extractLsb 30 23 ++ b.extractLsb 22 0) = b := by
    ext i hi
    have hi' : i < 32 := hi
    simp only [BitVec.getElem_append]
    split
    · simp [BitVec.getLsbD_eq_getElem hi']
    split
    · rename_i hlow hmid
      have hsum : 23 + (i - 23) = i := by omega
      simp [hsum, BitVec.getLsbD_eq_getElem hi']
    · obtain rfl : i = 31 := by omega
      simp
  exact hparts b

/-- With the least exponent, its field is zero. -/
theorem pack_subnormal {b : BitVec Format.binary32.numBits} (hzero : unpackExponent b = 0#8)
    (hm : 0 < (unpackMantissa b).toNat) :
    pack Format.binary32
      (.finite (Sign.ofBitVec (unpackSign b)) (unpackMantissa b).toNat (-149) hm) = b := by
  have hlt : (unpackMantissa b).toNat < 2 ^ 23 := (unpackMantissa b).isLt
  have hlog : ¬ (unpackMantissa b).toNat.log2 + 1 = Format.binary32.mantissaBits := fun hlog => by
    have hleading := (log2_iff hm (by omega)).1 hlog
    omega
  have hbiased : ((-149 : ℤ) + (Format.binary32.exponentBias : ℤ) +
      (Format.binary32.mantissaBitsWithoutImplicit : ℤ)).toNat = 1 := rfl
  rw [UnpackedFloat.pack]
  dsimp only
  rw [hbiased, if_neg (by decide), if_neg hlog, BitVec.ofNat_toNat, BitVec.setWidth_eq, ← hzero]
  exact packComponents_unpack b

/-- Else the leading bit goes away. -/
theorem pack_normal {b : BitVec Format.binary32.numBits} (hlow : 0 < (unpackExponent b).toNat)
    (hhigh : (unpackExponent b).toNat < 255) (hm : 0 < 2 ^ 23 + (unpackMantissa b).toNat) :
    pack Format.binary32 (.finite (Sign.ofBitVec (unpackSign b))
      (2 ^ 23 + (unpackMantissa b).toNat) ((unpackExponent b).toNat - 150) hm) = b := by
  have hlt : (unpackMantissa b).toNat < 2 ^ 23 := (unpackMantissa b).isLt
  have hlog : (2 ^ 23 + (unpackMantissa b).toNat).log2 + 1 = Format.binary32.mantissaBits :=
    (log2_iff hm (by omega)).2 (by omega)
  have hbiased : ((unpackExponent b).toNat - 150 + (Format.binary32.exponentBias : ℤ) +
      (Format.binary32.mantissaBitsWithoutImplicit : ℤ)).toNat = (unpackExponent b).toNat := by
    change (((unpackExponent b).toNat : ℤ) - 150 + (127 : ℕ) + (23 : ℕ)).toNat = _
    omega
  have hsmall : ¬ 2 ^ Format.binary32.exponentBits ≤ (unpackExponent b).toNat + 1 := by
    change ¬ 2 ^ 8 ≤ _
    omega
  have hmantissa : BitVec.ofNat 23 (2 ^ 23 + (unpackMantissa b).toNat) = unpackMantissa b := by
    refine BitVec.eq_of_toNat_eq ?_
    rw [BitVec.toNat_ofNat]
    omega
  rw [UnpackedFloat.pack]
  dsimp only
  rw [hbiased, if_neg hsmall, if_pos hlog, BitVec.ofNat_toNat, BitVec.setWidth_eq]
  exact (congrArg (packComponents Format.binary32 _ _) hmantissa).trans (packComponents_unpack b)

/-- What a float is unpacked to is canonical, and is packed to it again. -/
theorem canonical_of_unpack {b : BitVec Format.binary32.numBits} {sign : Sign} {m : ℕ} {e : ℤ}
    {hm : 0 < m} (h : unpack Format.binary32 b = .finite sign m e hm) :
    Canonical m e ∧ pack Format.binary32 (.finite sign m e hm) = b := by
  have hlt : (unpackMantissa b).toNat < 2 ^ 23 := (unpackMantissa b).isLt
  have hexp : (unpackExponent b).toNat < 2 ^ 8 := (unpackExponent b).isLt
  rw [UnpackedFloat.unpack] at h
  dsimp only at h
  split at h
  · split at h <;> cases h
  rename_i hones
  split at h
  · rename_i hzero
    split at h
    · cases h
    injection h with hsign hmantissa he
    obtain rfl : e = -149 := by
      rw [← he, hzero]
      rfl
    subst hsign hmantissa
    exact ⟨⟨by omega, .inr rfl, by omega, by omega⟩, pack_subnormal hzero hm⟩
  · rename_i hzero
    injection h with hsign hmantissa he
    have hhigh : (unpackExponent b).toNat < 255 := by
      have hne : (unpackExponent b).toNat ≠ 255 := fun heq => hones (BitVec.eq_of_toNat_eq heq)
      change (unpackExponent b).toNat < 256 at hexp
      omega
    have hlow : 0 < (unpackExponent b).toNat :=
      Nat.pos_of_ne_zero fun heq => hzero (BitVec.eq_of_toNat_eq heq)
    obtain rfl : m = 2 ^ 23 + (unpackMantissa b).toNat := by
      rw [← hmantissa, BitVec.toNat_append, ← Nat.shiftLeft_add_eq_or_of_lt hlt, Nat.shiftLeft_eq]
      rfl
    obtain rfl : e = (unpackExponent b).toNat - 150 := by
      rw [← he]
      change ((unpackExponent b).toNat : ℤ) - ((127 : ℕ) + (23 : ℕ)) = _
      omega
    subst hsign
    exact ⟨⟨by omega, .inl (by omega), by omega, by omega⟩, pack_normal hlow hhigh hm⟩

/-! ## Rounding a float -/

theorem round_even_natCast (n : ℕ) : round_even n = n :=
  le_antisymm (round_even_le (Nat.cast_nonneg n) le_rfl) (le_round_even le_rfl)

section

variable {m : ℕ} {e : ℤ}

theorem exponent_of_canonical (h : Canonical m e) (hm : 0 < m) :
    exponent (m * 2 ^ e) = e := by
  have hpos : (0 : ℚ) < m * 2 ^ e := by positivity
  have hupper : Int.log 2 ((m : ℚ) * 2 ^ e) < e + 24 := by
    refine (Int.lt_zpow_iff_log_lt (by decide) hpos).1 ?_
    have hfits : (m : ℚ) < 2 ^ (24 : ℤ) := by exact_mod_cast h.fits
    calc (m : ℚ) * 2 ^ e < 2 ^ (24 : ℤ) * 2 ^ e := by gcongr
      _ = 2 ^ (e + 24) := by rw [← zpow_add₀ (by norm_num), add_comm]
  have hlow := h.low
  rcases h.normal with hnormal | hleast
  · have hlower : e + 23 ≤ Int.log 2 ((m : ℚ) * 2 ^ e) := by
      refine (Int.zpow_le_iff_le_log (by decide) hpos).1 ?_
      have hle : (2 : ℚ) ^ (23 : ℤ) ≤ m := by exact_mod_cast hnormal
      calc (2 : ℚ) ^ (e + 23) = 2 ^ (23 : ℤ) * 2 ^ e := by
            rw [← zpow_add₀ (by norm_num), add_comm]
        _ ≤ m * 2 ^ e := by gcongr
    unfold exponent
    norm_cast at *
    omega
  · unfold exponent
    norm_cast at *
    omega

theorem round_of_canonical (h : Canonical m e) (hm : 0 < m) (sign : Sign) :
    round sign (m * 2 ^ e) = .finite sign m e hm := by
  have hexponent := exponent_of_canonical h hm
  have hsignificand : significand (m * 2 ^ e) = m := by
    rw [significand, hexponent, mul_div_cancel_right₀ _ (by positivity), round_even_natCast]
  have hfits := h.fits
  unfold round
  rw [dif_neg (by omega), dif_neg (by omega)]
  simp only [hsignificand, hexponent]

end

theorem pack_of_unpack {x : Float32} {sign : Sign} {m : ℕ} {e : ℤ} {hm : 0 < m}
    (h : x.toModel.unpack = .finite sign m e hm) :
    Canonical m e ∧ Float32.ofModel (.pack (.finite sign m e hm)) = x := by
  obtain ⟨hcanonical, hbits⟩ := canonical_of_unpack h
  refine ⟨hcanonical, ?_⟩
  have hmodel : Float32.Model.pack (.finite sign m e hm) = x.toModel := by
    obtain ⟨⟨bits, valid⟩⟩ := x
    simp only [Float32.Model.pack, hbits]
  rw [hmodel]

/-- A zero is packed to itself, with its sign. -/
theorem pack_zero {b : BitVec Format.binary32.numBits} {sign : Sign}
    (h : unpack Format.binary32 b = .zero sign) : pack Format.binary32 (.zero sign) = b := by
  rw [UnpackedFloat.unpack] at h
  dsimp only at h
  split at h
  · split at h <;> cases h
  split at h
  · rename_i hexponent
    split at h
    · rename_i hmantissa
      injection h with hsign
      subst hsign
      have hparts := packComponents_unpack b
      rw [hexponent, hmantissa] at hparts
      exact hparts
    · cases h
  · cases h

theorem zero_of_unpack {x : Float32} {sign : Sign} (h : x.toModel.unpack = .zero sign) :
    Float32.ofModel (.pack (.zero sign)) = x := by
  have hmodel : Float32.Model.pack (.zero sign) = x.toModel := by
    obtain ⟨⟨bits, valid⟩⟩ := x
    simp only [Float32.Model.pack, pack_zero h]
  rw [hmodel]

theorem eq_negative_zero {x : Float32} (h : is_negative_zero x = true) : x = negative_zero := by
  unfold is_negative_zero at h
  split at h
  · rename_i hx
    exact (zero_of_unpack hx).symm
  · cases h

/-- Rounding the number of a float gives the float back. -/
theorem of_rat_to_rat {x : Float32} {q : ℚ} (h : to_rat x = some q)
    (hsign : is_negative_zero x = false) : of_rat q = x := by
  unfold to_rat at h
  split at h
  · rename_i sign hx
    obtain rfl := Option.some.inj h
    cases sign with
    | negative => simp [is_negative_zero, hx] at hsign
    | positive => rw [of_rat, if_pos rfl, zero_of_unpack hx]
  · rename_i m e hm hx
    obtain rfl := Option.some.inj h
    obtain ⟨hcanonical, hpack⟩ := pack_of_unpack hx
    have hpos : (0 : ℚ) < m * 2 ^ e := by positivity
    rw [of_rat, if_neg hpos.ne', if_pos hpos, round_of_canonical hcanonical hm, hpack]
  · rename_i m e hm hx
    obtain rfl := Option.some.inj h
    obtain ⟨hcanonical, hpack⟩ := pack_of_unpack hx
    have hpos : (0 : ℚ) < m * 2 ^ e := by positivity
    rw [of_rat, if_neg (by linarith), if_neg (by linarith), neg_neg,
      round_of_canonical hcanonical hm, hpack]
  · cases h

end Inferences.Binary32
