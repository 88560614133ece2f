import DeviceNaming.Proofs.Number.Quotient

/-!
# Rounding of binary32 numbers

A mantissa with residual bits stands for a real number (`Stands`), which shifts and the last step of rounding follow.
So what is rounded to binary32 is a finite number no further from the exact one than half of a last place
(`roundWithAccuracy_spec`): by at most one part in 2²⁴ above the subnormal numbers, and by at most 2⁻¹⁵⁰ among them
(`roundWithAccuracy_near`).
-/

namespace DeviceNaming.Rounding

open Float.Model (Format UnpackedFloat totalExponent)
open Float.Model.UnpackedFloat (Sign Accuracy ExtendedMantissa packComponents roundWithAccuracy
  shiftToTargetExponent shiftToExponent decreaseExponent unpackExponent unpackMantissa unpackSign)
open Binary32 (mantissaBits_eq exponentBias_eq)

/-! ## Mantissas with residual bits -/

/-- The real number of which the mantissa is the whole part, as far as the residual bits tell. -/
def Stands (em : ExtendedMantissa) (x : ℝ) : Prop :=
  match em.roundBit, em.stickyBit with
  | false, false => x = em.mantissa
  | false, true => em.mantissa < x ∧ x < em.mantissa + 1 / 2
  | true, false => x = em.mantissa + 1 / 2
  | true, true => em.mantissa + 1 / 2 < x ∧ x < em.mantissa + 1

namespace Stands

variable {em : ExtendedMantissa} {x : ℝ}

theorem le (H : Stands em x) : em.mantissa ≤ x := by
  obtain ⟨m, _ | _, _ | _⟩ := em <;> simp only [Stands] at H <;> linarith

/-- Half of the number has the next bits. -/
theorem shiftRightOne (H : Stands em x) : Stands em.shiftRightOne (x / 2) := by
  obtain ⟨m, r, s⟩ := em
  have hm : (m : ℝ) = 2 * (m / 2 : ℕ) + (m % 2 : ℕ) := by exact_mod_cast (Nat.div_add_mod m 2).symm
  rcases Nat.mod_two_eq_zero_or_one m with hpar | hpar <;> rw [hpar] at hm <;> cases r <;> cases s <;>
    simp [Stands, ExtendedMantissa.shiftRightOne, hpar] at hm H ⊢ <;>
    first | linarith | constructor <;> linarith

theorem shiftRight (H : Stands em x) (k : ℕ) : Stands (em >>> k) (x / 2 ^ k) := by
  change Stands (k.repeat ExtendedMantissa.shiftRightOne em) _
  induction k with
  | zero => simpa [Nat.repeat] using H
  | succ k ih =>
    rw [Nat.repeat, pow_succ, ← div_div]
    exact ih.shiftRightOne

/-- The rounded mantissa is the nearest. -/
theorem rounded (H : Stands em x) : |(em.roundedMantissa : ℝ) - x| ≤ 1 / 2 := by
  have hle := H.le
  obtain ⟨m, _ | _, _ | _⟩ := em <;>
    simp [Stands, ExtendedMantissa.roundedMantissa, ExtendedMantissa.accuracy,
      Accuracy.roundToNearestEven] at H ⊢ <;> rw [abs_le]
  · constructor <;> linarith
  · constructor <;> linarith
  · have hpar : ((m % 2 : ℕ) : ℝ) ≤ 1 := by exact_mod_cast Nat.lt_succ_iff.1 (Nat.mod_lt m Nat.two_pos)
    have hpar' : (0 : ℝ) ≤ (m % 2 : ℕ) := Nat.cast_nonneg _
    push_cast at *
    constructor <;> linarith
  · constructor <;> linarith

end Stands

theorem roundedMantissa_bounds (em : ExtendedMantissa) :
    em.mantissa ≤ em.roundedMantissa ∧ em.roundedMantissa ≤ em.mantissa + 1 := by
  obtain ⟨m, _ | _, _ | _⟩ := em <;>
    simp [ExtendedMantissa.roundedMantissa, ExtendedMantissa.accuracy, Accuracy.roundToNearestEven]
  omega

theorem mantissa_shiftRight (em : ExtendedMantissa) (k : ℕ) : (em >>> k).mantissa = em.mantissa / 2 ^ k := by
  change (k.repeat ExtendedMantissa.shiftRightOne em).mantissa = _
  induction k with
  | zero => simp [Nat.repeat]
  | succ k ih =>
    rw [Nat.repeat, pow_succ, ← Nat.div_div_eq_div_mul, ← ih]
    rfl

theorem mantissa_ofMantissaAndAccuracy (m : ℕ) (acc : Accuracy) :
    (ExtendedMantissa.ofMantissaAndAccuracy m acc).mantissa = m := by
  rcases acc with _ | (_ | _ | _) <;> rfl

/-! ## Numbers that are read off patterns -/

def signOf : Sign → ℝ
  | .negative => -1
  | .positive => 1

/-- The real number for which a finite one stands. -/
noncomputable def realOf : UnpackedFloat → Option ℝ
  | .zero _ => some 0
  | .finite s m e _ => some (signOf s * (m * 2 ^ e))
  | .infinity _ => none
  | .notANumber => none

/-- The number is finite and in the form in which it is read off a pattern. -/
def Canonical : UnpackedFloat → Prop
  | .zero _ => True
  | .finite _ m e _ => m < 2 ^ 24 ∧ -149 ≤ e ∧ e ≤ 104 ∧ (2 ^ 23 ≤ m ∨ e = -149)
  | .infinity _ => False
  | .notANumber => False

/-! ## Rounding -/

variable {s : Sign} {m : ℕ} {e : ℤ} {acc : Accuracy} {ρ : ℝ} {u v : UnpackedFloat}

/-- The exponent to which a mantissa is rounded. -/
def target (m : ℕ) (e : ℤ) : ℤ := max (m.log2 + e - 23) (-149)

theorem targetExponent_eq (m : ℕ) (e : ℤ) : Format.binary32.targetExponent (totalExponent m e) = target m e := by
  rw [Format.targetExponent, totalExponent, target, mantissaBits_eq,
    show Format.binary32.minExponent = -149 by decide]
  omega

theorem shiftToTargetExponent_eq (m : ℕ) (e : ℤ) (acc : Accuracy) :
    shiftToTargetExponent Format.binary32 m e acc =
      (ExtendedMantissa.ofMantissaAndAccuracy m acc >>> (target m e - e).toNat, e + (target m e - e).toNat) := by
  rw [shiftToTargetExponent, targetExponent_eq]
  rfl

/-- A rounded mantissa needs at most one more shift, which loses nothing. -/
theorem shiftToTargetExponent_rounded (r : ℕ) {t : ℤ} (hr : r ≤ 2 ^ 24) (ht : -149 ≤ t) :
    (r < 2 ^ 24 ∧ shiftToTargetExponent Format.binary32 r t .exact = (⟨r, false, false⟩, t)) ∨
      (r = 2 ^ 24 ∧ shiftToTargetExponent Format.binary32 r t .exact = (⟨2 ^ 23, false, false⟩, t + 1)) := by
  rcases Nat.lt_or_eq_of_le hr with hlt | rfl
  · refine .inl ⟨hlt, ?_⟩
    have hlog : r.log2 ≤ 23 := by
      rcases Nat.eq_zero_or_pos r with rfl | hpos
      · decide
      · exact Nat.lt_succ_iff.1 ((Nat.log2_lt hpos.ne').2 hlt)
    have hshift : (target r t - t).toNat = 0 := by
      rw [target]
      omega
    rw [shiftToTargetExponent_eq, hshift]
    exact Prod.ext rfl (add_zero t)
  · refine .inr ⟨rfl, ?_⟩
    have hshift : (target (2 ^ 24) t - t).toNat = 1 := by
      rw [target, Nat.log2_two_pow]
      omega
    rw [shiftToTargetExponent_eq, hshift]
    rfl

/-- The last step of rounding keeps the number. -/
theorem realOf_rounded (s : Sign) (r : ℕ) {t : ℤ} (hr : r ≤ 2 ^ 24) (ht : -149 ≤ t) (ht' : t ≤ 103)
    (hnormal : 2 ^ 23 ≤ r ∨ t = -149) :
    let x := shiftToTargetExponent Format.binary32 r t .exact
    let u : UnpackedFloat :=
      if h : x.1.mantissa = 0 then .zero s else .finite s x.1.mantissa x.2 (Nat.pos_of_ne_zero h)
    Canonical u ∧ realOf u = some (signOf s * (r * 2 ^ t)) := by
  intro x u
  rcases shiftToTargetExponent_rounded r hr ht with ⟨hlt, hx⟩ | ⟨rfl, hx⟩
  · rcases Nat.eq_zero_or_pos r with rfl | hpos
    · have hu : u = .zero s := dif_pos (by simp [x, hx])
      rw [hu]
      exact ⟨trivial, by simp [realOf]⟩
    · have hu : u = .finite s r t hpos := by simp [u, x, hx, hpos.ne']
      rw [hu]
      exact ⟨⟨hlt, ht, by omega, hnormal⟩, rfl⟩
  · have hu : u = .finite s (2 ^ 23) (t + 1) (by decide) := by simp [u, x, hx]
    rw [hu]
    refine ⟨⟨by decide, by omega, by omega, .inl le_rfl⟩, ?_⟩
    rw [realOf, zpow_add₀ two_ne_zero]
    push_cast
    ring_nf

theorem two_zpow_log2_le (hm : m ≠ 0) : (2 : ℝ) ^ (m.log2 : ℤ) ≤ m := by
  rw [zpow_natCast]
  exact_mod_cast Nat.log2_self_le hm

theorem log2_add_lt {n : ℤ} (hm : m ≠ 0) (h : (m : ℝ) * 2 ^ e < 2 ^ n) : m.log2 + e < n := by
  refine (zpow_lt_zpow_iff_right₀ (one_lt_two : (1 : ℝ) < 2)).1 (lt_of_le_of_lt ?_ h)
  rw [zpow_add₀ two_ne_zero]
  exact mul_le_mul_of_nonneg_right (two_zpow_log2_le hm) (by positivity)

/-- At its target a mantissa has the bits of the format, unless it is among the subnormal numbers. -/
theorem shifted_bounds (he : e ≤ target m e) :
    m / 2 ^ (target m e - e).toNat < 2 ^ 24 ∧ (2 ^ 23 ≤ m / 2 ^ (target m e - e).toNat ∨ target m e = -149) := by
  obtain ⟨k, hk⟩ : ∃ k, (target m e - e).toNat = k := ⟨_, rfl⟩
  rw [hk]
  rw [target] at he hk ⊢
  constructor
  · rw [Nat.div_lt_iff_lt_mul (Nat.two_pow_pos k), ← pow_add]
    exact Nat.lt_log2_self.trans_le (Nat.pow_le_pow_right Nat.two_pos (by omega))
  · refine or_iff_not_imp_right.2 fun hne => ?_
    have hm : m ≠ 0 := by
      rintro rfl
      rw [Nat.log2_zero] at hne he
      omega
    rw [Nat.le_div_iff_mul_le (Nat.two_pow_pos k), ← pow_add]
    exact (Nat.pow_le_pow_right Nat.two_pos (by omega)).trans (Nat.log2_self_le hm)

theorem target_le (he : e ≤ target m e) (hle : (m : ℝ) ≤ ρ) (hbound : ρ * 2 ^ e < 2 ^ (127 : ℤ)) :
    target m e ≤ 103 := by
  rw [target] at he ⊢
  rcases eq_or_ne m 0 with rfl | hm
  · rw [Nat.log2_zero] at he ⊢
    omega
  · have hlog := log2_add_lt hm ((mul_le_mul_of_nonneg_right hle (by positivity)).trans_lt hbound)
    omega

/-- The mantissa at its target, rounded to the nearest one. -/
def roundedAt (m : ℕ) (e : ℤ) (acc : Accuracy) : ℕ :=
  (ExtendedMantissa.ofMantissaAndAccuracy m acc >>> (target m e - e).toNat).roundedMantissa

theorem roundWithAccuracy_eq (he : e ≤ target m e) :
    roundWithAccuracy Format.binary32 s m e acc =
      let x := shiftToTargetExponent Format.binary32 (roundedAt m e acc) (target m e) .exact
      if h : x.1.mantissa = 0 then .zero s else .finite s x.1.mantissa x.2 (Nat.pos_of_ne_zero h) := by
  rw [roundWithAccuracy, shiftToTargetExponent_eq m e acc, show e + (target m e - e).toNat = target m e by omega]
  rfl

/-- A number is rounded to a multiple of the power of two at its target, and no further than half of it. -/
theorem roundWithAccuracy_spec (s : Sign) (hρ : Stands (ExtendedMantissa.ofMantissaAndAccuracy m acc) ρ)
    (he : e ≤ target m e) (hbound : ρ * 2 ^ e < 2 ^ (127 : ℤ)) :
    ∃ r : ℕ, Canonical (roundWithAccuracy Format.binary32 s m e acc) ∧
      realOf (roundWithAccuracy Format.binary32 s m e acc) = some (signOf s * (r * 2 ^ target m e)) ∧
      |(r : ℝ) * 2 ^ target m e - ρ * 2 ^ e| ≤ 2 ^ (target m e - 1) := by
  obtain ⟨hupper, hnormal⟩ := shifted_bounds he
  have hbounds := roundedMantissa_bounds (ExtendedMantissa.ofMantissaAndAccuracy m acc >>> (target m e - e).toNat)
  have herror := (hρ.shiftRight (target m e - e).toNat).rounded
  rw [mantissa_shiftRight, mantissa_ofMantissaAndAccuracy, ← roundedAt] at hbounds
  rw [← roundedAt] at herror
  have hlow : -149 ≤ target m e := le_max_right _ _
  have hhigh : target m e ≤ 103 := target_le he (mantissa_ofMantissaAndAccuracy m acc ▸ hρ.le) hbound
  obtain ⟨hcanonical, hreal⟩ := realOf_rounded s (roundedAt m e acc) (by omega) hlow hhigh (by omega)
  rw [← roundWithAccuracy_eq he] at hcanonical hreal
  refine ⟨roundedAt m e acc, hcanonical, hreal, ?_⟩
  obtain ⟨t, ht⟩ : ∃ t, target m e = t := ⟨_, rfl⟩
  obtain ⟨k, hk⟩ : ∃ k, (t - e).toNat = k := ⟨_, rfl⟩
  rw [ht] at he herror ⊢
  rw [hk] at herror
  have hscale : (roundedAt m e acc : ℝ) * 2 ^ t - ρ * 2 ^ e = (roundedAt m e acc - ρ / 2 ^ k) * 2 ^ t := by
    rw [show t = e + k by omega, zpow_add₀ two_ne_zero, zpow_natCast]
    field_simp
  rw [hscale, abs_mul, abs_of_pos (by positivity : (0 : ℝ) < 2 ^ t), zpow_sub_one₀ two_ne_zero]
  nlinarith [zpow_pos (two_pos : (0 : ℝ) < 2) t]

/-! ## The error of rounding -/

/-- The largest relative error of a rounding. -/
noncomputable def roundoff : ℝ := 1 / 2 ^ 24

/-- The number is zero, or its magnitude is between two powers of two. -/
def Between (low high : ℤ) (x : ℝ) : Prop := x = 0 ∨ 2 ^ low ≤ |x| ∧ |x| ≤ 2 ^ high

theorem abs_signOf (s : Sign) : |signOf s| = 1 := by
  cases s <;> simp [signOf]

theorem abs_signOf_mul_sub (s : Sign) (x y : ℝ) : |signOf s * x - signOf s * y| = |x - y| := by
  rw [← mul_sub, abs_mul, abs_signOf, one_mul]

theorem roundoff_mul_two_zpow (t : ℤ) : roundoff * 2 ^ t = 2 ^ (t - 24) := by
  rw [roundoff, zpow_sub₀ two_ne_zero, one_div_mul_eq_div]
  norm_num

/-- Half of a last place is at most one part in 2²⁴, unless the last place is the smallest one. -/
theorem half_place_le (he : e ≤ target m e) (ht : target m e ≠ -149) :
    (2 : ℝ) ^ (target m e - 1) ≤ roundoff * (m * 2 ^ e) := by
  rw [target] at he ht
  have hm : m ≠ 0 := by
    rintro rfl
    rw [Nat.log2_zero] at he ht
    omega
  have htarget : target m e - 1 = m.log2 + e - 24 := by
    rw [target]
    omega
  rw [htarget, ← roundoff_mul_two_zpow, zpow_add₀ two_ne_zero]
  have hroundoff : 0 ≤ roundoff := by
    rw [roundoff]
    positivity
  gcongr
  exact two_zpow_log2_le hm

variable (s) in
theorem roundWithAccuracy_near (hρ : Stands (ExtendedMantissa.ofMantissaAndAccuracy m acc) ρ)
    (he : e ≤ target m e) (hbound : ρ * 2 ^ e < 2 ^ (127 : ℤ)) :
    ∃ y, Canonical (roundWithAccuracy Format.binary32 s m e acc) ∧
      realOf (roundWithAccuracy Format.binary32 s m e acc) = some y ∧
      |y - signOf s * (ρ * 2 ^ e)| ≤ max (roundoff * (ρ * 2 ^ e)) (2 ^ (-150 : ℤ)) := by
  obtain ⟨r, hcanonical, hreal, herror⟩ := roundWithAccuracy_spec s hρ he hbound
  refine ⟨_, hcanonical, hreal, ?_⟩
  rw [abs_signOf_mul_sub]
  refine herror.trans (le_max_iff.2 ?_)
  by_cases ht : target m e = -149
  · exact .inr (ht ▸ le_rfl)
  · have hle := hρ.le
    rw [mantissa_ofMantissaAndAccuracy] at hle
    refine .inl ((half_place_le he ht).trans ?_)
    rw [roundoff]
    gcongr

variable (s) in
theorem roundWithAccuracy_near_of_le (hρ : Stands (ExtendedMantissa.ofMantissaAndAccuracy m acc) ρ)
    (he : e ≤ target m e) (hlow : 2 ^ (-126 : ℤ) ≤ ρ * 2 ^ e) (hbound : ρ * 2 ^ e < 2 ^ (127 : ℤ)) :
    ∃ y, Canonical (roundWithAccuracy Format.binary32 s m e acc) ∧
      realOf (roundWithAccuracy Format.binary32 s m e acc) = some y ∧
      |y - signOf s * (ρ * 2 ^ e)| ≤ roundoff * (ρ * 2 ^ e) := by
  obtain ⟨y, hcanonical, hreal, herror⟩ := roundWithAccuracy_near s hρ he hbound
  refine ⟨y, hcanonical, hreal, herror.trans (max_le le_rfl ?_)⟩
  rw [show (-150 : ℤ) = -126 - 24 by norm_num, ← roundoff_mul_two_zpow, roundoff]
  gcongr

variable (s) in
/-- Whole multiples of the smallest last place are kept as long as they have room. -/
theorem roundWithAccuracy_near_exact (he : e ≤ target m e) (hlow : -149 ≤ e)
    (hbound : (m : ℝ) * 2 ^ e < 2 ^ (127 : ℤ)) :
    ∃ y, Canonical (roundWithAccuracy Format.binary32 s m e .exact) ∧
      realOf (roundWithAccuracy Format.binary32 s m e .exact) = some y ∧
      |y - signOf s * (m * 2 ^ e)| ≤ roundoff * (m * 2 ^ e) := by
  have hstands : Stands (ExtendedMantissa.ofMantissaAndAccuracy m .exact) m := rfl
  obtain ⟨r, hcanonical, hreal, herror⟩ := roundWithAccuracy_spec s hstands he hbound
  refine ⟨_, hcanonical, hreal, ?_⟩
  rw [abs_signOf_mul_sub]
  by_cases ht : target m e = -149
  · obtain rfl : e = -149 := by omega
    rw [ht, ← sub_mul, abs_mul, abs_of_pos (by positivity : (0 : ℝ) < 2 ^ (-149 : ℤ)), zpow_sub_one₀ two_ne_zero,
      mul_comm, mul_le_mul_iff_right₀ (by positivity)] at herror
    have hr : |(r : ℤ) - m| < 1 := by
      have hlt : |(r : ℝ) - m| < 1 := herror.trans_lt (by norm_num)
      exact_mod_cast hlt
    obtain rfl : r = m := by
      rw [Int.abs_lt_one_iff] at hr
      omega
    rw [ht, sub_self, abs_zero, roundoff]
    positivity
  · exact herror.trans (half_place_le he ht)

end DeviceNaming.Rounding
