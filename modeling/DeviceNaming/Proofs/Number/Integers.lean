import DeviceNaming.Number.Magnitude
import DeviceNaming.Proofs.Number.Arithmetic

/-!
# Integers beyond one

An integer that is at least two in size stays so when it is converted to binary64 and from there to binary32, in any
rounding (`atLeastTwo_round`). So it is above one or below minus one in the order of binary32 numbers
(`not_le_one`, `not_neg_one_le`).
-/

namespace DeviceNaming.Rounding

open Float.Model (Format UnpackedFloat totalExponent)
open Float.Model.UnpackedFloat (Sign Accuracy ExtendedMantissa packComponents roundWithAccuracy
  shiftToTargetExponent unpackExponent unpackMantissa unpackSign)
open Binary32 (mantissaBits_eq)

variable {spec : Format} {s : Sign} {m : ℕ} {e : ℤ} {acc : Accuracy} {u : UnpackedFloat}

/-- A number with the sign, infinite or normal in the format, whose first bit stands for two or more. -/
def AtLeastTwo (spec : Format) (s : Sign) : UnpackedFloat → Prop
  | .infinity s' => s' = s
  | .finite s' m e _ => s' = s ∧ m.log2 + 1 = spec.mantissaBits ∧ 2 ≤ spec.mantissaBits + e
  | .zero _ => False
  | .notANumber => False

/-! ## Rounding -/

theorem targetExponent_of_two_le {t : ℤ} (ht : 2 ≤ t) : spec.targetExponent t = t - spec.mantissaBits := by
  have hpow : (1 : ℤ) ≤ 2 ^ (spec.exponentBits - 1) := one_le_pow₀ one_le_two
  rw [Format.targetExponent, Format.minExponent, max_eq_left (by omega)]

theorem log2_div_two_pow {p : ℕ} (hp : 0 < p) (hm : m ≠ 0) (h : p ≤ m.log2 + 1) :
    m / 2 ^ (m.log2 + 1 - p) ≠ 0 ∧ (m / 2 ^ (m.log2 + 1 - p)).log2 + 1 = p := by
  have hlower : 2 ^ (p - 1) ≤ m / 2 ^ (m.log2 + 1 - p) := by
    rw [Nat.le_div_iff_mul_le (Nat.two_pow_pos _), ← pow_add, show p - 1 + (m.log2 + 1 - p) = m.log2 by omega]
    exact Nat.log2_self_le hm
  have hupper : m / 2 ^ (m.log2 + 1 - p) < 2 ^ p := by
    rw [Nat.div_lt_iff_lt_mul (Nat.two_pow_pos _), ← pow_add, show p + (m.log2 + 1 - p) = m.log2 + 1 by omega]
    exact Nat.lt_log2_self
  have hne : m / 2 ^ (m.log2 + 1 - p) ≠ 0 := ((Nat.two_pow_pos _).trans_le hlower).ne'
  have hlog := (Nat.le_log2 hne).2 hlower
  have hlog' := (Nat.log2_lt hne).2 hupper
  exact ⟨hne, by omega⟩

/-- A mantissa with bits enough is shifted until it fills the format. -/
theorem shiftToTargetExponent_of_two_le (hfill : spec.mantissaBits ≤ m.log2 + 1) (htwo : 2 ≤ totalExponent m e) :
    shiftToTargetExponent spec m e acc =
      (ExtendedMantissa.ofMantissaAndAccuracy m acc >>> (m.log2 + 1 - spec.mantissaBits),
        e + (m.log2 + 1 - spec.mantissaBits : ℕ)) := by
  have hshift : (totalExponent m e - spec.mantissaBits - e).toNat = m.log2 + 1 - spec.mantissaBits := by
    rw [totalExponent]
    omega
  rw [shiftToTargetExponent, targetExponent_of_two_le htwo, UnpackedFloat.shiftToExponent, hshift]

theorem atLeastTwo_round (hm : m ≠ 0) (hfill : spec.mantissaBits ≤ m.log2 + 1) (htwo : 2 ≤ totalExponent m e) :
    AtLeastTwo spec s (roundWithAccuracy spec s m e acc) := by
  have hp : 0 < spec.mantissaBits := Nat.add_pos_left Nat.one_pos _
  obtain ⟨k, hk⟩ : ∃ k, m.log2 + 1 - spec.mantissaBits = k := ⟨_, rfl⟩
  obtain ⟨r, hr⟩ : ∃ r, (ExtendedMantissa.ofMantissaAndAccuracy m acc >>> k).roundedMantissa = r := ⟨_, rfl⟩
  have hbounds := roundedMantissa_bounds (ExtendedMantissa.ofMantissaAndAccuracy m acc >>> k)
  rw [mantissa_shiftRight, mantissa_ofMantissaAndAccuracy, hr] at hbounds
  obtain ⟨hne, hlog⟩ := log2_div_two_pow hp hm hfill
  rw [hk] at hne hlog
  have hrne : r ≠ 0 := ((Nat.pos_of_ne_zero hne).trans_le hbounds.1).ne'
  have hrlog : (m / 2 ^ k).log2 ≤ r.log2 := (Nat.le_log2 hrne).2 ((Nat.log2_self_le hne).trans hbounds.1)
  rw [totalExponent] at htwo
  have htwo' : 2 ≤ totalExponent r (e + k) := by
    rw [totalExponent]
    omega
  obtain ⟨hne', hlog'⟩ := log2_div_two_pow hp hrne (by omega : spec.mantissaBits ≤ r.log2 + 1)
  have hlast : (ExtendedMantissa.ofMantissaAndAccuracy r .exact >>> (r.log2 + 1 - spec.mantissaBits)).mantissa =
      r / 2 ^ (r.log2 + 1 - spec.mantissaBits) := by
    rw [mantissa_shiftRight, mantissa_ofMantissaAndAccuracy]
  rw [roundWithAccuracy, shiftToTargetExponent_of_two_le hfill htwo, hk]
  dsimp only
  rw [hr, shiftToTargetExponent_of_two_le (by omega) htwo']
  dsimp only
  rw [dif_neg (hlast ▸ hne')]
  exact ⟨rfl, hlast ▸ hlog', by omega⟩

/-! ## Patterns -/

theorem unpack_packedInfinity (s : Sign) :
    UnpackedFloat.unpack spec (UnpackedFloat.packedInfinity spec s) = .infinity s := by
  rw [UnpackedFloat.unpack, UnpackedFloat.packedInfinity, UnpackedFloat.unpackExponent_packComponents, if_pos rfl,
    UnpackedFloat.unpackMantissa_packComponents, if_pos BitVec.ofNat_eq_ofNat, unpackSign_packComponents]
  cases s <;> rfl

theorem log2_toNat_append (v : BitVec spec.mantissaBitsWithoutImplicit) :
    (1#1 ++ v).toNat.log2 + 1 = spec.mantissaBits := by
  have hv := v.isLt
  have hnat : (1#1 ++ v).toNat = 2 ^ spec.mantissaBitsWithoutImplicit + v.toNat := by
    rw [BitVec.toNat_append, ← Nat.shiftLeft_add_eq_or_of_lt hv, Nat.shiftLeft_eq]
    simp
  have hne : (1#1 ++ v).toNat ≠ 0 := by omega
  have hlog := (Nat.le_log2 hne).2 (hnat ▸ Nat.le_add_right _ _)
  have hlog' := (Nat.log2_lt hne (k := spec.mantissaBitsWithoutImplicit + 1)).2 (by rw [pow_succ]; omega)
  rw [Format.mantissaBits]
  omega

theorem not_fields {b : BitVec spec.numBits} (h : unpackExponent b ≠ -1#_) (h' : unpackExponent b = 0#_) :
    ¬(unpackExponent b = -1#_ ∧ unpackMantissa b = 0#_ ∨
      unpackExponent b ≠ -1#_ ∧ spec.exponentBias < (unpackExponent b).toNat) := by
  rintro (H | H)
  · exact h H.1
  · rw [h', BitVec.toNat_ofNat, Nat.zero_mod] at H
    exact Nat.not_lt_zero _ H.2

/-- The size of a number shows in the fields of its pattern. -/
theorem atLeastTwo_unpack_iff {b : BitVec spec.numBits} :
    AtLeastTwo spec s (UnpackedFloat.unpack spec b) ↔ Sign.ofBitVec (unpackSign b) = s ∧
      (unpackExponent b = -1#_ ∧ unpackMantissa b = 0#_ ∨
        unpackExponent b ≠ -1#_ ∧ spec.exponentBias < (unpackExponent b).toNat) := by
  fun_cases UnpackedFloat.unpack spec b with
  | case1 v x sign s' h h' => exact ⟨fun H => ⟨H, .inl ⟨h, h'⟩⟩, And.left⟩
  | case2 v x h h' =>
    refine ⟨False.elim, fun H => ?_⟩
    rcases H.2 with H | H
    · exact h' H.2
    · exact H.1 h
  | case3 v x sign s' h h' => exact ⟨False.elim, fun H => absurd H.2 (not_fields h h')⟩
  | case4 v x e sign s' h h' hv =>
    refine ⟨fun H => ?_, fun H => absurd H.2 (not_fields h h')⟩
    -- without the first bit the mantissa is too short
    have hlt := (Nat.log2_lt (fun h => hv (BitVec.eq_of_toNat_eq h))).2 v.isLt
    have hlog := H.2.1
    rw [Format.mantissaBits] at hlog
    omega
  | case5 v x e sign s' h h' =>
    have hsize : 2 ≤ (spec.mantissaBits : ℤ) + e ↔ spec.exponentBias < x.toNat := by
      rw [Format.mantissaBits]
      omega
    refine and_congr_right fun _ => ?_
    rw [hsize]
    exact ⟨fun H => .inr ⟨h, H.2⟩, fun H => ⟨log2_toNat_append v, (H.resolve_left fun H => h H.1).2⟩⟩

/-- What is packed is read off the pattern. -/
theorem AtLeastTwo.unpack_pack (H : AtLeastTwo spec s u) :
    AtLeastTwo spec s (UnpackedFloat.unpack spec (UnpackedFloat.pack spec u)) := by
  cases u with
  | zero => exact H.elim
  | notANumber => exact H.elim
  | infinity s' =>
    obtain rfl : s' = s := H
    rw [UnpackedFloat.pack, unpack_packedInfinity]
    rfl
  | finite s' m e hm =>
    obtain ⟨rfl, hlog, htwo⟩ := H
    rw [Format.mantissaBits] at htwo
    rw [UnpackedFloat.pack]
    obtain ⟨biased, hbiased⟩ :
      ∃ biased : ℕ, (e + spec.exponentBias + spec.mantissaBitsWithoutImplicit).toNat = biased := ⟨_, rfl⟩
    rw [hbiased, if_pos hlog]
    split
    · rw [unpack_packedInfinity]
      rfl
    · rename_i hroom
      have hx : (BitVec.ofNat spec.exponentBits biased).toNat = biased := by
        rw [BitVec.toNat_ofNat, Nat.mod_eq_of_lt (by omega)]
      rw [atLeastTwo_unpack_iff, UnpackedFloat.unpackExponent_packComponents, unpackSign_packComponents, hx]
      refine ⟨ofBitVec_toBitVec s', .inr ⟨fun h => ?_, by omega⟩⟩
      have htoNat := congrArg BitVec.toNat h
      rw [hx, BitVec.neg_one_eq_allOnes, BitVec.toNat_allOnes] at htoNat
      omega

theorem AtLeastTwo.neg (H : AtLeastTwo spec s u) : AtLeastTwo spec (-s) u.neg := by
  cases u with
  | zero => exact H.elim
  | notANumber => exact H.elim
  | infinity s' => exact congrArg (-·) H
  | finite s' m e hm => exact ⟨congrArg (-·) H.1, H.2⟩

/-! ## Conversions -/

/-- The conversion multiplies by one, which is written with as many bits as the format has. -/
theorem AtLeastTwo.mul_one {k : ℕ} (H : AtLeastTwo spec s u) :
    AtLeastTwo spec s (UnpackedFloat.mul spec u (.finite .positive (2 ^ k) (-k) (Nat.two_pow_pos k))) := by
  have hsign : s * .positive = s := by cases s <;> rfl
  cases u with
  | zero => exact H.elim
  | notANumber => exact H.elim
  | infinity s' =>
    obtain rfl : s' = s := H
    exact hsign
  | finite s' m e hm =>
    obtain ⟨rfl, hlog, htwo⟩ := H
    have hprod : (m * 2 ^ k).log2 = m.log2 + k := by
      rw [← Nat.shiftLeft_eq, log2_shiftLeft hm.ne']
    rw [UnpackedFloat.mul, hsign]
    refine atLeastTwo_round (Nat.mul_ne_zero hm.ne' (Nat.two_pow_pos k).ne') (by omega) ?_
    rw [totalExponent, hprod]
    omega

theorem atLeastTwo_ofNat (hm : 2 ≤ m) : AtLeastTwo spec .positive (UnpackedFloat.ofNat spec m) := by
  have hlog : 1 ≤ m.log2 := (Nat.le_log2 (by omega)).2 hm
  have htwo : 2 ≤ totalExponent m 0 := by
    rw [totalExponent]
    omega
  rw [UnpackedFloat.ofNat, UnpackedFloat.ofInt, UnpackedFloat.normalize,
    compare_gt_iff_gt.2 (by omega : (m : ℤ) > 0)]
  dsimp only
  rw [Int.toNat_natCast, UnpackedFloat.round, targetExponent_of_two_le htwo, UnpackedFloat.decreaseExponent]
  dsimp only
  rw [totalExponent]
  refine atLeastTwo_round ?_ ?_ ?_
  · rw [Nat.shiftLeft_eq]
    exact Nat.mul_ne_zero (by omega) (Nat.two_pow_pos _).ne'
  · rw [log2_shiftLeft (by omega)]
    omega
  · rw [totalExponent, log2_shiftLeft (by omega)]
    omega

/-- A number with ten to the power of zero. -/
theorem atLeastTwo_ofScientific (hm : 2 ≤ m) :
    AtLeastTwo spec .positive (UnpackedFloat.ofScientific spec m 0) := by
  have hlog : 1 ≤ m.log2 := (Nat.le_log2 (by omega)).2 hm
  have hpow : (0 : ℤ) < 2 ^ spec.exponentBits := by positivity
  rw [UnpackedFloat.ofScientific, dif_neg (by omega), if_neg (by omega), if_neg (by omega), if_pos le_rfl]
  refine atLeastTwo_round ?_ ?_ ?_
  · rw [Nat.shiftLeft_eq]
    positivity
  · rw [Int.toNat_zero, pow_zero, Nat.mul_one, log2_shiftLeft (by omega)]
    omega
  · rw [totalExponent, Int.toNat_zero, pow_zero, Nat.mul_one, log2_shiftLeft (by omega)]
    omega

theorem atLeastTwo_float {n : ℕ} (hn : 2 ≤ n) :
    AtLeastTwo Format.binary64 .positive (Float.ofNat n).toModel.unpack := by
  have hsmall (m : UInt64) (hm : 2 ≤ m.toNat) :
      AtLeastTwo Format.binary64 .positive (m.toFloat * Float.ofBits 0x3FF0000000000000).toModel.unpack := by
    have hone : (Float.ofBits 0x3FF0000000000000).toModel.unpack =
        .finite .positive (2 ^ 52) (-(52 : ℕ)) (Nat.two_pow_pos 52) := rfl
    have hm : AtLeastTwo Format.binary64 .positive m.toFloat.toModel.unpack := (atLeastTwo_ofNat hm).unpack_pack
    have hmul := hm.mul_one (k := 52)
    rw [← hone] at hmul
    exact hmul.unpack_pack
  change AtLeastTwo Format.binary64 .positive (Float.ofScientific n false 0).toModel.unpack
  unfold Float.ofScientific
  split
  · rename_i h
    refine hsmall n.toUInt64 ?_
    rw [Nat.toUInt64, UInt64.toNat_ofNat', Nat.mod_eq_of_lt (by omega)]
    exact hn
  · exact (atLeastTwo_ofScientific hn).unpack_pack

/-! ## From binary64 to binary32 -/

/-- The sign is the first bit of the pattern. -/
theorem sign_eq_negative_iff {b : BitVec spec.numBits} :
    Sign.ofBitVec (unpackSign b) = .negative ↔
      2 ^ (spec.mantissaBitsWithoutImplicit + spec.exponentBits) ≤ b.toNat := by
  obtain ⟨n, hn⟩ : ∃ n, 2 ^ (spec.mantissaBitsWithoutImplicit + spec.exponentBits) = n := ⟨_, rfl⟩
  have hpos : 0 < n := hn ▸ Nat.two_pow_pos _
  have hlt : b.toNat < 2 * n := by
    rw [← hn, ← pow_succ']
    exact b.isLt.trans_eq (congrArg _ (by rw [Format.numBits]; omega))
  have hbit : (unpackSign b).toNat = b.toNat / n := by
    rw [unpackSign, BitVec.toNat_cast, BitVec.extractLsb_toNat, Nat.shiftRight_eq_div_pow, Nat.sub_self, hn]
    exact Nat.mod_eq_of_lt ((Nat.div_lt_iff_lt_mul hpos).2 hlt)
  have hzero : unpackSign b = 0#1 ↔ b.toNat < n := by
    rw [← BitVec.toNat_inj, hbit]
    exact Nat.div_eq_zero_iff_lt hpos
  rw [hn, Sign.ofBitVec, ← not_lt, ← hzero]
  split <;> rename_i h <;> simp [h]

theorem toNat_unpackExponent64 (b : BitVec Format.binary64.numBits) :
    (unpackExponent b).toNat = b.toNat / 2 ^ 52 % 2 ^ 11 := by
  rw [unpackExponent, BitVec.toNat_cast, BitVec.extractLsb_toNat, Nat.shiftRight_eq_div_pow]
  rfl

variable {x : Float}

theorem signBit_eq_true_iff (H : AtLeastTwo Format.binary64 s x.toModel.unpack) :
    signBit x = true ↔ s = .negative := by
  rw [← (atLeastTwo_unpack_iff.1 H).1, sign_eq_negative_iff, signBit, decide_eq_true_iff, ge_iff_le,
    UInt64.le_iff_toNat_le]
  rfl

/-- The magnitude that is read off the bits has all of the bits of a mantissa. -/
theorem ofFloat_bounds (H : AtLeastTwo Format.binary64 s x.toModel.unpack) :
    (Magnitude.ofFloat x).m.log2 = 52 ∧ -51 ≤ (Magnitude.ofFloat x).q := by
  obtain ⟨b, hb⟩ : ∃ b, x.toBits = b := ⟨_, rfl⟩
  have hexponent : 1023 < b.toNat / 2 ^ 52 % 2 ^ 11 := by
    have hfields := (atLeastTwo_unpack_iff.1 H).2
    rw [show x.toModel.toBits = b from hb] at hfields
    have hx := toNat_unpackExponent64 b.toBitVec
    rw [UInt64.toNat_toBitVec] at hx
    rw [← hx]
    rcases hfields with h | h
    · rw [h.1]
      decide
    · exact h.2
  have he : ((b >>> 52) &&& 0x7FF).toNat = b.toNat / 2 ^ 52 % 2 ^ 11 := by
    rw [UInt64.toNat_and, UInt64.toNat_shiftRight, show (0x7FF : UInt64).toNat = 2 ^ 11 - 1 from rfl,
      Nat.and_two_pow_sub_one_eq_mod, Nat.shiftRight_eq_div_pow]
    rfl
  obtain ⟨f, hf⟩ : ∃ f, (b &&& 0xFFFFFFFFFFFFF).toNat = f := ⟨_, rfl⟩
  have hlt : f < 2 ^ 52 := by
    rw [← hf, UInt64.toNat_and, show (0xFFFFFFFFFFFFF : UInt64).toNat = 2 ^ 52 - 1 from rfl,
      Nat.and_two_pow_sub_one_eq_mod]
    exact Nat.mod_lt _ (Nat.two_pow_pos 52)
  rw [Magnitude.ofFloat, hb, Magnitude.ofFields, he, hf, if_neg (by omega)]
  refine ⟨?_, ?_⟩
  · change (2 ^ 52 + f).log2 = 52
    rw [Nat.log2_eq_iff (by omega)]
    omega
  · change -51 ≤ (-1074 : ℤ) + _ - 1
    omega

theorem two_pow_le_quotient {k j : ℕ} (hm : 2 ^ 52 ≤ m) (hk : k ≤ 52) :
    2 ^ (52 + j - k) ≤ (m * 5 ^ k) <<< j / 10 ^ k := by
  rw [Nat.le_div_iff_mul_le (by positivity), Nat.shiftLeft_eq, show 10 ^ k = 2 ^ k * 5 ^ k from mul_pow 2 5 k]
  calc 2 ^ (52 + j - k) * (2 ^ k * 5 ^ k) = 2 ^ 52 * 5 ^ k * 2 ^ j := by
        rw [← mul_assoc, ← pow_add, Nat.sub_add_cancel (by omega), pow_add]
        ring
    _ ≤ m * 5 ^ k * 2 ^ j := by gcongr

theorem log2_ten_pow_le {k : ℕ} (hm : 2 ^ 52 ≤ m) (hk : k ≤ 52) : (10 ^ k).log2 ≤ (m * 5 ^ k).log2 := by
  have hM : m * 5 ^ k ≠ 0 := Nat.mul_ne_zero (by omega) (by positivity)
  refine (Nat.le_log2 hM).2 ((Nat.log2_self_le (by positivity)).trans ?_)
  rw [show 10 ^ k = 2 ^ k * 5 ^ k from mul_pow 2 5 k]
  gcongr
  exact (Nat.pow_le_pow_right Nat.two_pos hk).trans hm

/-- The quotient by ten to some power of what was multiplied by the power of five. -/
theorem atLeastTwo_quotient {k : ℕ} (hm : 2 ^ 52 ≤ m) (hk : 0 < k) (hk' : k ≤ 51) :
    AtLeastTwo Format.binary32 .positive (UnpackedFloat.ofScientific Format.binary32 (m * 5 ^ k) (-k)) := by
  have hM : 0 < m * 5 ^ k := Nat.mul_pos (by omega) (by positivity)
  have hpow : (2 : ℤ) ^ Format.binary32.exponentBits = 256 := rfl
  rw [UnpackedFloat.ofScientific, dif_neg hM.ne', if_neg (by omega), if_neg (by omega), if_neg (by omega),
    UnpackedFloat.div, UnpackedFloat.divCore]
  dsimp only
  rw [show (-(-(k : ℤ))).toNat = k by omega]
  obtain ⟨t, ht⟩ : ∃ t, min ((0 : ℤ) - 0)
      (Format.binary32.targetExponent (totalExponent (m * 5 ^ k) 0 - totalExponent (10 ^ k) 0)) = t := ⟨_, rfl⟩
  rw [ht]
  rw [Format.targetExponent, totalExponent, totalExponent, mantissaBits_eq] at ht
  obtain ⟨j, hj⟩ : ∃ j, ((0 : ℤ) - 0 - t).toNat = j := ⟨_, rfl⟩
  have hfits := @quotient_fits (m * 5 ^ k) 0 (10 ^ k) 0 t hM (by positivity) (ht.symm.trans rfl)
  rw [hj] at hfits ⊢
  rw [target] at hfits
  have hquot := two_pow_le_quotient (j := j) hm (by omega : k ≤ 52)
  have hne : (m * 5 ^ k) <<< j / 10 ^ k ≠ 0 := ((Nat.two_pow_pos _).trans_le hquot).ne'
  have hlog := (Nat.le_log2 hne).2 hquot
  have hten := log2_ten_pow_le hm (by omega : k ≤ 52)
  refine atLeastTwo_round hne ?_ ?_
  · rw [mantissaBits_eq]
    omega
  · rw [totalExponent]
    omega

theorem atLeastTwo_toFloat32 {M : Magnitude} (hm : M.m.log2 = 52) (hq : -51 ≤ M.q) :
    AtLeastTwo Format.binary32 .positive M.toFloat32.toModel.unpack := by
  have hm0 : 2 ^ 52 ≤ M.m := by
    refine hm ▸ Nat.log2_self_le ?_
    intro h
    rw [h] at hm
    cases hm
  unfold Magnitude.toFloat32
  split
  · have hM : 2 ^ 52 ≤ M.m * Nat.pow 2 M.q.toNat := hm0.trans (Nat.le_mul_of_pos_right _ (Nat.two_pow_pos _))
    rw [Float32.ofScientific, dif_neg (fun h => absurd h.1 (by omega))]
    exact (atLeastTwo_ofScientific (by omega)).unpack_pack
  · rename_i hneg
    obtain ⟨k, hk⟩ : ∃ k, (-M.q).toNat = k := ⟨_, rfl⟩
    have hM : 2 ^ 52 ≤ M.m * Nat.pow 5 k := hm0.trans (Nat.le_mul_of_pos_right _ (Nat.pow_pos (by decide)))
    rw [hk, Float32.ofScientific, dif_neg (fun h => absurd h.1 (by omega))]
    dsimp only
    rw [if_pos rfl, Int.negOfNat_eq]
    exact (atLeastTwo_quotient hm0 (by omega) (by omega)).unpack_pack

/-- The sign is put before the pattern of the magnitude. -/
theorem atLeastTwo_negative {r : Float32} (H : AtLeastTwo Format.binary32 .positive r.toModel.unpack) :
    AtLeastTwo Format.binary32 .negative (Binary32.mk (0x80000000 ||| r.toBits)).unpacked := by
  obtain ⟨b, hb⟩ : ∃ b, r.toBits = b := ⟨_, rfl⟩
  obtain ⟨hsign, hfields⟩ := atLeastTwo_unpack_iff.1 H
  rw [show r.toModel.toBits = b from hb] at hsign hfields
  have hlt : b.toNat < 2 ^ 31 := by
    refine not_le.1 fun hle => ?_
    cases hsign.symm.trans (sign_eq_negative_iff.2 hle)
  have hor : (0x80000000 ||| b).toNat = 2 ^ 31 + b.toNat := by
    rw [UInt32.toNat_or]
    exact (Nat.two_pow_add_eq_or_of_lt hlt 1).symm
  have hexponent : @unpackExponent Format.binary32 (0x80000000 ||| b).toBitVec =
      @unpackExponent Format.binary32 b.toBitVec := by
    refine BitVec.eq_of_toNat_eq ?_
    rw [Binary32.toNat_unpackExponent, Binary32.toNat_unpackExponent, UInt32.toNat_toBitVec, UInt32.toNat_toBitVec,
      hor]
    omega
  have hmantissa : @unpackMantissa Format.binary32 (0x80000000 ||| b).toBitVec =
      @unpackMantissa Format.binary32 b.toBitVec := by
    refine BitVec.eq_of_toNat_eq ?_
    rw [Binary32.toNat_unpackMantissa, Binary32.toNat_unpackMantissa, UInt32.toNat_toBitVec, UInt32.toNat_toBitVec,
      hor]
    omega
  rw [hb]
  refine atLeastTwo_unpack_iff.2 ⟨sign_eq_negative_iff.2 ?_, ?_⟩
  · exact (Nat.le_add_right (2 ^ 31) b.toNat).trans_eq hor.symm
  · rw [hexponent, hmantissa]
    exact hfields

theorem atLeastTwo_ofFloat (H : AtLeastTwo Format.binary64 s x.toModel.unpack) :
    AtLeastTwo Format.binary32 s (Binary32.ofFloat x).unpacked := by
  have hnan : x.isNaN = false := by
    change x.toModel.unpack.isNaN = false
    revert H
    cases x.toModel.unpack <;> first | exact fun _ => rfl | exact False.elim
  have hsign := signBit_eq_true_iff H
  obtain ⟨hm, hq⟩ := ofFloat_bounds H
  have hmagnitude := atLeastTwo_toFloat32 hm hq
  rw [Binary32.ofFloat, hnan]
  cases s with
  | negative =>
    rw [hsign.2 rfl]
    cases x.isInf <;> simp only [Bool.false_eq_true, if_false, if_true]
    · exact atLeastTwo_negative hmagnitude
    · exact atLeastTwo_unpack_iff.2 ⟨rfl, .inl (by decide)⟩
  | positive =>
    rw [Bool.eq_false_iff.2 fun h => nomatch hsign.1 h]
    cases x.isInf <;> simp only [Bool.false_eq_true, if_false, if_true, UInt32.zero_or]
    · exact hmagnitude
    · exact atLeastTwo_unpack_iff.2 ⟨rfl, .inl (by decide)⟩

/-! ## The order -/

variable {a : Binary32} {p : Binary32.Place}

theorem place_lt_of_positive (H : AtLeastTwo Format.binary32 .positive u) (hp : Binary32.placeOf u = some p) :
    toLex (1, toLex (-23, 8388608)) < p := by
  cases u with
  | zero => exact H.elim
  | notANumber => exact H.elim
  | infinity s =>
    obtain rfl : s = .positive := H
    cases hp
    decide
  | finite s m e hm =>
    obtain ⟨rfl, -, htwo⟩ := H
    rw [mantissaBits_eq] at htwo
    cases hp
    refine Prod.Lex.toLex_lt_toLex.2 (.inr ⟨rfl, Prod.Lex.toLex_lt_toLex.2 (.inl ?_)⟩)
    dsimp only
    omega

theorem lt_place_of_negative (H : AtLeastTwo Format.binary32 .negative u) (hp : Binary32.placeOf u = some p) :
    p < toLex (-1, toLex (23, -8388608)) := by
  cases u with
  | zero => exact H.elim
  | notANumber => exact H.elim
  | infinity s =>
    obtain rfl : s = .negative := H
    cases hp
    decide
  | finite s m e hm =>
    obtain ⟨rfl, -, htwo⟩ := H
    rw [mantissaBits_eq] at htwo
    cases hp
    refine Prod.Lex.toLex_lt_toLex.2 (.inr ⟨rfl, Prod.Lex.toLex_lt_toLex.2 (.inl ?_)⟩)
    dsimp only
    omega

theorem not_le_one (H : AtLeastTwo Format.binary32 .positive a.unpacked) : Binary32.le a ⟨0x3F800000⟩ = false := by
  have hone : Binary32.place? ⟨0x3F800000⟩ = some (toLex (1, toLex (-23, 8388608))) := rfl
  refine Bool.eq_false_iff.2 fun hle => ?_
  obtain ⟨p, q, hp, hq, hpq⟩ := Binary32.le_iff.1 hle
  cases hone.symm.trans hq
  exact absurd hpq (not_le.2 (place_lt_of_positive H hp))

theorem not_neg_one_le (H : AtLeastTwo Format.binary32 .negative a.unpacked) :
    Binary32.le ⟨0xBF800000⟩ a = false := by
  have hone : Binary32.place? ⟨0xBF800000⟩ = some (toLex (-1, toLex (23, -8388608))) := rfl
  refine Bool.eq_false_iff.2 fun hle => ?_
  obtain ⟨p, q, hp, hq, hpq⟩ := Binary32.le_iff.1 hle
  cases hone.symm.trans hp
  exact absurd hpq (not_le.2 (lt_place_of_negative H hq))

/-- A natural number that is no similarity. -/
theorem not_le_one_ofNat {n : ℕ} (hn : 2 ≤ n) :
    Binary32.le (Binary32.ofFloat (Float.ofNat n)) ⟨0x3F800000⟩ = false :=
  not_le_one (atLeastTwo_ofFloat (atLeastTwo_float hn))

theorem not_neg_one_le_neg_ofNat {n : ℕ} (hn : 2 ≤ n) :
    Binary32.le ⟨0xBF800000⟩ (Binary32.ofFloat (-(Float.ofNat n))) = false :=
  not_neg_one_le (atLeastTwo_ofFloat (atLeastTwo_float hn).neg.unpack_pack)

end DeviceNaming.Rounding
