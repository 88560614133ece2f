import DeviceNaming.Proofs.Number.Rounding

/-!
# The accuracy of operations on unpacked numbers

The sum, the product, the quotient and the square root of canonical numbers are canonical, and near the real ones
(`add_near`, `mul_near`, `div_near`, `sqrt_near`). A sum of multiples of the smallest last place is one, so that it
has no error of its own among the subnormal numbers. Quotients and roots are taken so far that the residual bits tell
where the exact one lies (`stands_fraction`, `stands_sqrt`).
-/

namespace DeviceNaming.Rounding

open Float.Model (Format UnpackedFloat totalExponent)
open Float.Model.UnpackedFloat (Sign Accuracy ExtendedMantissa roundWithAccuracy decreaseExponent accuracyOfFraction
  divCore sqrtCore)
open Binary32 (mantissaBits_eq)

variable {s : Sign} {m : ℕ} {e : ℤ} {u v : UnpackedFloat} {x y : ℝ}

/-! ## Sums -/

theorem log2_shiftLeft (hm : m ≠ 0) (k : ℕ) : (m <<< k).log2 = m.log2 + k := by
  obtain ⟨hle, hlt⟩ := (Nat.log2_eq_iff hm).1 rfl
  rw [Nat.shiftLeft_eq, Nat.log2_eq_iff (by positivity)]
  constructor
  · rw [pow_add]
    gcongr
  · rw [show m.log2 + k + 1 = m.log2 + 1 + k by omega, pow_add _ (m.log2 + 1)]
    gcongr

theorem shiftLeft_mul_two_zpow (m k : ℕ) (e : ℤ) : ((m <<< k : ℕ) : ℝ) * 2 ^ (e - k) = m * 2 ^ e := by
  rw [Nat.shiftLeft_eq, zpow_sub₀ two_ne_zero, zpow_natCast]
  push_cast
  field_simp

variable (s) in
theorem round_near (hm : 0 < m) (hlow : -149 ≤ e) (hbound : (m : ℝ) * 2 ^ e < 2 ^ (127 : ℤ)) :
    ∃ y, Canonical (UnpackedFloat.round Format.binary32 s m e) ∧
      realOf (UnpackedFloat.round Format.binary32 s m e) = some y ∧
      |y - signOf s * (m * 2 ^ e)| ≤ roundoff * (m * 2 ^ e) := by
  obtain ⟨k, hk⟩ : ∃ k, (e - target m e).toNat = k := ⟨_, rfl⟩
  have hround : UnpackedFloat.round Format.binary32 s m e =
      roundWithAccuracy Format.binary32 s (m <<< k) (e - k) .exact := by
    rw [UnpackedFloat.round, targetExponent_eq, decreaseExponent, hk]
  have htarget : target (m <<< k) (e - k) = target m e := by
    rw [target, target, log2_shiftLeft hm.ne']
    omega
  rw [target] at hk
  rw [hround, ← shiftLeft_mul_two_zpow m k e]
  refine roundWithAccuracy_near_exact s ?_ ?_ ?_
  · rw [htarget, target]
    omega
  · omega
  · rwa [shiftLeft_mul_two_zpow]

theorem normalize_near (m : ℤ) (hlow : -149 ≤ e) (hbound : |(m : ℝ) * 2 ^ e| < 2 ^ (127 : ℤ)) (s : Sign) :
    ∃ y, Canonical (UnpackedFloat.normalize Format.binary32 m e s) ∧
      realOf (UnpackedFloat.normalize Format.binary32 m e s) = some y ∧
      |y - m * 2 ^ e| ≤ roundoff * |(m : ℝ) * 2 ^ e| := by
  rw [abs_mul, abs_of_pos (by positivity : (0 : ℝ) < 2 ^ e)] at hbound ⊢
  rw [UnpackedFloat.normalize]
  rcases lt_trichotomy m 0 with hm | rfl | hm
  · obtain ⟨n, rfl⟩ : ∃ n : ℕ, m = -n := ⟨m.natAbs, by omega⟩
    rw [compare_lt_iff_lt.2 hm, neg_neg, Int.toNat_natCast]
    push_cast at hbound ⊢
    rw [abs_neg, Nat.abs_cast] at hbound ⊢
    obtain ⟨y, hcanonical, hreal, herror⟩ := round_near .negative (by omega) hlow hbound
    exact ⟨y, hcanonical, hreal, by simpa [signOf] using herror⟩
  · exact ⟨0, trivial, rfl, by simp⟩
  · obtain ⟨n, rfl⟩ := Int.eq_ofNat_of_zero_le hm.le
    rw [compare_gt_iff_gt.2 hm, Int.toNat_natCast]
    push_cast at hbound ⊢
    rw [Nat.abs_cast] at hbound ⊢
    obtain ⟨y, hcanonical, hreal, herror⟩ := round_near .positive (by omega) hlow hbound
    exact ⟨y, hcanonical, hreal, by simpa [signOf] using herror⟩

theorem cast_apply (s : Sign) (m : ℤ) : ((s.apply m : ℤ) : ℝ) = signOf s * m := by
  cases s <;> simp [Sign.apply, signOf]

theorem roundoff_nonneg : 0 ≤ roundoff := by
  rw [roundoff]
  positivity

theorem add_near (hu : Canonical u) (hv : Canonical v) (hx : realOf u = some x) (hy : realOf v = some y)
    (hbound : |x + y| < 2 ^ (127 : ℤ)) :
    ∃ z, Canonical (UnpackedFloat.add Format.binary32 u v) ∧
      realOf (UnpackedFloat.add Format.binary32 u v) = some z ∧ |z - (x + y)| ≤ roundoff * |x + y| := by
  have hself {z : ℝ} : |z - z| ≤ roundoff * |z| := by
    rw [sub_self, abs_zero]
    exact mul_nonneg roundoff_nonneg (abs_nonneg z)
  cases u <;> cases v <;> simp only [Canonical] at hu hv <;> simp only [realOf, Option.some.injEq] at hx hy
  case zero.zero s s' =>
    subst hx hy
    refine ⟨0, ?_, ?_, by simp⟩ <;> rw [UnpackedFloat.add] <;> split <;> trivial
  case zero.finite =>
    subst hx
    rw [zero_add]
    exact ⟨y, hv, congrArg some hy, hself⟩
  case finite.zero =>
    subst hy
    rw [add_zero]
    exact ⟨x, hu, congrArg some hx, hself⟩
  case finite.finite s m e hm s' m' e' hm' =>
    obtain ⟨-, hlow, -⟩ := hu
    obtain ⟨-, hlow', -⟩ := hv
    have hleast : -149 ≤ min e e' := le_min hlow hlow'
    obtain ⟨k, hk⟩ : ∃ k, (e - min e e').toNat = k := ⟨_, rfl⟩
    obtain ⟨k', hk'⟩ : ∃ k, (e' - min e e').toNat = k := ⟨_, rfl⟩
    have hexp : min e e' = e - k := by omega
    have hexp' : min e e' = e' - k' := by omega
    have hsum : ((s.apply (m <<< k : ℕ) + s'.apply (m' <<< k' : ℕ) : ℤ) : ℝ) * 2 ^ min e e' = x + y := by
      rw [← hx, ← hy, Int.cast_add, cast_apply, cast_apply, add_mul, mul_assoc, mul_assoc]
      nth_rewrite 1 [hexp]
      rw [hexp', Int.cast_natCast, Int.cast_natCast, shiftLeft_mul_two_zpow, shiftLeft_mul_two_zpow]
    rw [← hsum] at hbound ⊢
    simp only [UnpackedFloat.add, decreaseExponent, hk, hk']
    exact normalize_near _ hleast hbound _

/-! ## Products -/

theorem signOf_mul : ∀ s s' : Sign, signOf (s * s') = signOf s * signOf s'
  | .negative, .negative => (by norm_num : (1 : ℝ) = -1 * -1)
  | .negative, .positive => (mul_one _).symm
  | .positive, .negative => (one_mul _).symm
  | .positive, .positive => (one_mul _).symm

theorem div_eq_mul (s s' : Sign) : s / s' = s * s' := by
  cases s <;> cases s' <;> rfl

theorem signOf_div (s s' : Sign) : signOf (s / s') = signOf s * signOf s' :=
  (congrArg signOf (div_eq_mul s s')).trans (signOf_mul s s')

theorem le_target_of_le (h : 2 ^ 23 ≤ m ∨ e ≤ -149) : e ≤ target m e := by
  rw [target]
  rcases h with h | h
  · have hlog : 23 ≤ m.log2 := (Nat.le_log2 (by omega)).2 h
    omega
  · omega

/-- The product is zero or not among the subnormal numbers. -/
theorem mul_near (hu : Canonical u) (hv : Canonical v) (hx : realOf u = some x) (hy : realOf v = some y)
    (hlow : x * y = 0 ∨ 2 ^ (-126 : ℤ) ≤ |x * y|) (hbound : |x * y| < 2 ^ (127 : ℤ)) :
    ∃ z, Canonical (UnpackedFloat.mul Format.binary32 u v) ∧
      realOf (UnpackedFloat.mul Format.binary32 u v) = some z ∧ |z - x * y| ≤ roundoff * |x * y| := by
  cases u <;> cases v <;> simp only [Canonical] at hu hv <;> simp only [realOf, Option.some.injEq] at hx hy
  case finite.finite s m e hm s' m' e' hm' =>
    obtain ⟨-, he, -, hnormal⟩ := hu
    obtain ⟨-, he', -, hnormal'⟩ := hv
    have hprod : x * y = signOf (s * s') * ((m * m' : ℕ) * 2 ^ (e + e')) := by
      rw [← hx, ← hy, signOf_mul, zpow_add₀ two_ne_zero]
      push_cast
      ring
    have habs : |x * y| = (m * m' : ℕ) * 2 ^ (e + e') := by
      rw [hprod, abs_mul, abs_signOf, one_mul, abs_of_nonneg (by positivity)]
    have hroom : e + e' ≤ target (m * m') (e + e') := by
      refine le_target_of_le ?_
      rcases hnormal with h | h
      · exact .inl (h.trans (Nat.le_mul_of_pos_right m hm'))
      · rcases hnormal' with h' | h'
        · exact .inl (h'.trans (Nat.le_mul_of_pos_left m' hm))
        · exact .inr (by omega)
    have hstands : Stands (ExtendedMantissa.ofMantissaAndAccuracy (m * m') .exact) (m * m' : ℕ) := rfl
    have hne : x * y ≠ 0 := by
      rw [← abs_pos, habs]
      positivity
    have hlow := hlow.resolve_left hne
    rw [habs] at hlow hbound ⊢
    rw [hprod]
    exact roundWithAccuracy_near_of_le (s * s') hstands hroom hlow hbound
  all_goals
    subst_vars
    refine ⟨0, trivial, rfl, ?_⟩
    simp

/-! ## Quotients -/

theorem stands_fraction {a b : ℕ} (hb : 0 < b) :
    Stands (ExtendedMantissa.ofMantissaAndAccuracy (a / b) (accuracyOfFraction (a % b) b)) (a / b : ℝ) := by
  obtain ⟨q, hq⟩ : ∃ q, a / b = q := ⟨_, rfl⟩
  obtain ⟨r, hr⟩ : ∃ r, a % b = r := ⟨_, rfl⟩
  have hb' : (0 : ℝ) < b := by exact_mod_cast hb
  have hlt : (r : ℝ) < b := by exact_mod_cast hr ▸ Nat.mod_lt a hb
  have hdiv : (a / b : ℝ) = q + r / b := by
    have ha : (a : ℝ) = b * q + r := by exact_mod_cast hq ▸ hr ▸ (Nat.div_add_mod a b).symm
    rw [ha, add_div, mul_div_cancel_left₀ _ hb'.ne']
  rw [hdiv, hq, hr, accuracyOfFraction]
  split
  · rename_i hzero
    simp [hzero, Stands, ExtendedMantissa.ofMantissaAndAccuracy]
  · rename_i hpos
    have hpos' : 0 < (r : ℝ) / b := div_pos (by exact_mod_cast Nat.pos_of_ne_zero hpos) hb'
    rcases lt_trichotomy (2 * r) b with h | h | h
    · rw [compare_lt_iff_lt.2 h]
      have hhalf : (r : ℝ) / b < 1 / 2 := by
        rw [div_lt_div_iff₀ hb' two_pos]
        exact_mod_cast (by omega : r * 2 < 1 * b)
      exact ⟨lt_add_of_pos_right _ hpos', add_lt_add_right hhalf _⟩
    · rw [compare_eq_iff_eq.2 h]
      have hhalf : (r : ℝ) / b = 1 / 2 := by
        rw [div_eq_div_iff hb'.ne' two_ne_zero]
        exact_mod_cast (by omega : r * 2 = 1 * b)
      exact congrArg _ hhalf
    · rw [compare_gt_iff_gt.2 h]
      have hhalf : 1 / 2 < (r : ℝ) / b := by
        rw [div_lt_div_iff₀ two_pos hb']
        exact_mod_cast (by omega : 1 * b < r * 2)
      exact ⟨add_lt_add_right hhalf _, add_lt_add_right ((div_lt_one hb').2 hlt) _⟩

/-- A quotient is taken so far that it fills its mantissa, or that its last place is the smallest one. -/
theorem quotient_fits {m' : ℕ} {e' t : ℤ} (hm : 0 < m) (hm' : 0 < m')
    (ht : t = min (e - e') (max (m.log2 + 1 + e - (m'.log2 + 1 + e') - 24) (-149))) :
    t ≤ target (m <<< (e - e' - t).toNat / m') t := by
  refine le_target_of_le (or_iff_not_imp_right.2 fun hbig => ?_)
  rw [Nat.le_div_iff_mul_le hm']
  calc 2 ^ 23 * m' ≤ 2 ^ 23 * 2 ^ (m'.log2 + 1) := by
        gcongr
        exact Nat.lt_log2_self.le
    _ = 2 ^ (23 + (m'.log2 + 1)) := (pow_add ..).symm
    _ ≤ 2 ^ (m <<< (e - e' - t).toNat).log2 := by
        refine Nat.pow_le_pow_right Nat.two_pos ?_
        rw [log2_shiftLeft hm.ne']
        omega
    _ ≤ m <<< (e - e' - t).toNat := by
        refine Nat.log2_self_le ?_
        rw [Nat.shiftLeft_eq]
        positivity

theorem div_near (hu : Canonical u) (hv : Canonical v) (hx : realOf u = some x) (hy : realOf v = some y)
    (hne : y ≠ 0) (hbound : |x / y| < 2 ^ (127 : ℤ)) :
    ∃ z, Canonical (UnpackedFloat.div Format.binary32 u v) ∧
      realOf (UnpackedFloat.div Format.binary32 u v) = some z ∧
      |z - x / y| ≤ max (roundoff * |x / y|) (2 ^ (-150 : ℤ)) := by
  cases u <;> cases v <;> simp only [Canonical] at hu hv <;> simp only [realOf, Option.some.injEq] at hx hy
  case zero.zero => exact absurd hy.symm hne
  case finite.zero => exact absurd hy.symm hne
  case zero.finite =>
    subst hx
    refine ⟨0, trivial, rfl, ?_⟩
    simp
  case finite.finite s m e hm s' m' e' hm' =>
    obtain ⟨t, ht⟩ : ∃ t, min (e - e')
        (Format.binary32.targetExponent (totalExponent m e - totalExponent m' e')) = t := ⟨_, rfl⟩
    obtain ⟨k, hk⟩ : ∃ k, (e - e' - t).toNat = k := ⟨_, rfl⟩
    have hroom : t ≤ target (m <<< k / m') t := by
      rw [← hk]
      refine quotient_fits hm hm' ?_
      rw [← ht, Format.targetExponent, totalExponent, totalExponent, mantissaBits_eq]
      rfl
    have hkt : e = t + k + e' := by omega
    have hpos : (0 : ℝ) < m' := by exact_mod_cast hm'
    have hquot : x / y = signOf (s / s') * ((m <<< k : ℕ) / m' * 2 ^ t) := by
      rw [← hx, ← hy, signOf_div, Nat.shiftLeft_eq, hkt, zpow_add₀ two_ne_zero, zpow_add₀ two_ne_zero, zpow_natCast]
      cases s' <;> simp only [signOf] <;> push_cast <;> field_simp
    have habs : |x / y| = (m <<< k : ℕ) / m' * 2 ^ t := by
      rw [hquot, abs_mul, abs_signOf, one_mul, abs_of_nonneg (by positivity)]
    rw [habs] at hbound ⊢
    rw [hquot]
    simp only [UnpackedFloat.div, divCore, ht, hk]
    exact roundWithAccuracy_near (s / s') (stands_fraction hm') hroom hbound

/-! ## Square roots -/

theorem stands_sqrt (n : ℕ) :
    Stands (ExtendedMantissa.ofMantissaAndAccuracy (Nat.sqrt n) (if n - Nat.sqrt n * Nat.sqrt n = 0 then .exact
      else .inexact (if n - Nat.sqrt n * Nat.sqrt n ≤ Nat.sqrt n then .lt else .gt))) (√n) := by
  obtain ⟨r, hr⟩ : ∃ r, Nat.sqrt n = r := ⟨_, rfl⟩
  have hle : r * r ≤ n := hr ▸ Nat.sqrt_le n
  have hlt : n < (r + 1) * (r + 1) := hr ▸ Nat.lt_succ_sqrt n
  rw [hr]
  split
  · rename_i hzero
    obtain rfl : n = r * r := by omega
    push_cast
    exact Real.sqrt_mul_self (Nat.cast_nonneg r)
  · rename_i hpos
    have hroot : (r : ℝ) * r + 1 ≤ n := by exact_mod_cast (by omega : r * r + 1 ≤ n)
    split
    · rename_i hrem
      have hn : (n : ℝ) ≤ r * r + r := by exact_mod_cast (by omega : n ≤ r * r + r)
      have hlower : (r : ℝ) < √n := Real.lt_sqrt_of_sq_lt (by linarith)
      have hupper : √n < (r : ℝ) + 1 / 2 := (Real.sqrt_lt' (by positivity)).2 (by linarith)
      exact ⟨hlower, hupper⟩
    · rename_i hrem
      have hn : (r : ℝ) * r + r + 1 ≤ n := by exact_mod_cast (by omega : r * r + r + 1 ≤ n)
      have hn' : (n : ℝ) < (r + 1) * (r + 1) := by exact_mod_cast hlt
      have hlower : (r : ℝ) + 1 / 2 < √n := Real.lt_sqrt_of_sq_lt (by linarith)
      have hupper : √n < (r : ℝ) + 1 := (Real.sqrt_lt' (by positivity)).2 (by linarith)
      exact ⟨hlower, hupper⟩

/-- A root is taken so far that it fills its mantissa, or that its last place is the smallest one. -/
theorem root_fits {t : ℤ} (hm : 0 < m) (ht : t = min (e.ediv 2) (max ((m.log2 + 1 + e + 1).ediv 2 - 24) (-149))) :
    t ≤ target (Nat.sqrt (m <<< (e - 2 * t).toNat)) t := by
  refine le_target_of_le (or_iff_not_imp_right.2 fun hbig => ?_)
  have hediv (i : ℤ) : i.ediv 2 = i / 2 := rfl
  rw [hediv, hediv] at ht
  rw [Nat.le_sqrt]
  calc 2 ^ 23 * 2 ^ 23 = 2 ^ 46 := by norm_num
    _ ≤ 2 ^ (m <<< (e - 2 * t).toNat).log2 := by
        refine Nat.pow_le_pow_right Nat.two_pos ?_
        rw [log2_shiftLeft hm.ne']
        omega
    _ ≤ m <<< (e - 2 * t).toNat := by
        refine Nat.log2_self_le ?_
        rw [Nat.shiftLeft_eq]
        positivity

theorem sqrt_near (hu : Canonical u) (hx : realOf u = some x) (hnonneg : 0 ≤ x) :
    ∃ z, Canonical (UnpackedFloat.sqrt Format.binary32 u) ∧
      realOf (UnpackedFloat.sqrt Format.binary32 u) = some z ∧ |z - √x| ≤ roundoff * √x := by
  cases u <;> simp only [Canonical] at hu <;> simp only [realOf, Option.some.injEq] at hx
  case zero => exact ⟨0, trivial, rfl, by simp [← hx]⟩
  case finite s m e hm =>
    obtain ⟨hlt, hlow, hhigh, -⟩ := hu
    have hpos : (0 : ℝ) < m := by exact_mod_cast hm
    cases s with
    | negative =>
      have hneg : 0 < (m : ℝ) * 2 ^ e := by positivity
      rw [signOf] at hx
      linarith
    | positive =>
      rw [signOf, one_mul] at hx
      subst hx
      obtain ⟨t, ht⟩ : ∃ t, min (e.ediv 2)
          (Format.binary32.targetExponent ((totalExponent m e + 1).ediv 2)) = t := ⟨_, rfl⟩
      obtain ⟨k, hk⟩ : ∃ k, (e - 2 * t).toNat = k := ⟨_, rfl⟩
      have hroom : t ≤ target (Nat.sqrt (m <<< k)) t := by
        rw [← hk]
        refine root_fits hm ?_
        rw [← ht, Format.targetExponent, totalExponent, mantissaBits_eq]
        rfl
      have hkt : e = 2 * t + k := by
        have hediv : e.ediv 2 = e / 2 := rfl
        omega
      have hroot : √((m : ℝ) * 2 ^ e) = √(m <<< k : ℕ) * 2 ^ t := by
        rw [Nat.shiftLeft_eq, hkt, zpow_add₀ two_ne_zero, zpow_natCast, mul_comm (2 : ℤ), zpow_mul, zpow_ofNat,
          mul_left_comm, Real.sqrt_mul (by positivity), Real.sqrt_sq (by positivity)]
        push_cast
        ring
      have hleast : 2 ^ (-126 : ℤ) ≤ √((m : ℝ) * 2 ^ e) := by
        refine Real.le_sqrt_of_sq_le ?_
        calc ((2 : ℝ) ^ (-126 : ℤ)) ^ 2 ≤ 2 ^ (-149 : ℤ) := by norm_num
          _ ≤ 2 ^ e := zpow_le_zpow_right₀ one_le_two hlow
          _ ≤ m * 2 ^ e := le_mul_of_one_le_left (by positivity) (by exact_mod_cast hm)
      have hmost : √((m : ℝ) * 2 ^ e) < 2 ^ (127 : ℤ) := by
        refine (Real.sqrt_lt' (by positivity)).2 ?_
        calc (m : ℝ) * 2 ^ e < 2 ^ 24 * 2 ^ e := by
              gcongr
              exact_mod_cast hlt
          _ ≤ 2 ^ 24 * 2 ^ (104 : ℤ) := by
              gcongr
              exact one_le_two
          _ ≤ (2 ^ (127 : ℤ)) ^ 2 := by norm_num
      rw [hroot] at hleast hmost ⊢
      simp only [UnpackedFloat.sqrt, sqrtCore, ht, hk]
      obtain ⟨z, hcanonical, hreal, herror⟩ :=
        roundWithAccuracy_near_of_le .positive (stands_sqrt (m <<< k)) hroom hleast hmost
      exact ⟨z, hcanonical, hreal, by simpa [signOf] using herror⟩

end DeviceNaming.Rounding
