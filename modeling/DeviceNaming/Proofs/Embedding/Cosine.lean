import DeviceNaming.Embedding.Similarity
import DeviceNaming.Proofs.Number.Arithmetic

/-!
# The range of the similarity

Each operation of `cosine` rounds once, and a rounding keeps the part `kept` of a number at least. So a dot product
loses no more than that part for each component and one (`dotFrom_near`, by induction on the components), a norm loses
two parts more (`norm_near`), and by the Cauchy–Schwarz inequality (`mass_sq_le`) the similarity is within its range up
to these roundings (`cosine_range`). It is not within its range: `cosine_out_of_range`.
-/

namespace DeviceNaming.Embedding

open Rounding (real? roundoff Between real?_add real?_mul real?_div real?_sqrt)

/-! ## One rounding -/

/-- What a rounding leaves of a number at least. -/
noncomputable def kept : ℝ := 1 - roundoff

theorem kept_pos : 0 < kept := by
  rw [kept, roundoff]
  norm_num

theorem kept_le_one : kept ≤ 1 := by
  rw [kept, roundoff]
  norm_num

theorem kept_pow_le_one (n : ℕ) : kept ^ n ≤ 1 :=
  pow_le_one₀ kept_pos.le kept_le_one

/-- Few roundings leave half of a number. -/
theorem half_le_kept_pow {n : ℕ} (hn : n ≤ 2 ^ 23) : 1 / 2 ≤ kept ^ n := by
  have hbernoulli := one_add_mul_le_pow (a := -roundoff) (by rw [roundoff]; norm_num) n
  have hn' : (n : ℝ) ≤ 2 ^ 23 := by exact_mod_cast hn
  rw [kept, sub_eq_add_neg]
  refine le_trans ?_ hbernoulli
  rw [roundoff]
  linarith

variable {x z : ℝ}

theorem mul_kept_le_of_near (h : |z - x| ≤ roundoff * |x|) : |z| * kept ≤ |x| := by
  have htriangle : |z| ≤ |x| + roundoff * |x| := by
    calc |z| = |x + (z - x)| := by rw [add_sub_cancel]
      _ ≤ |x| + |z - x| := abs_add_le x (z - x)
      _ ≤ |x| + roundoff * |x| := by gcongr
  calc |z| * kept ≤ (|x| + roundoff * |x|) * kept := by
        gcongr
        exact kept_pos.le
    _ = |x| - roundoff ^ 2 * |x| := by
        rw [kept]
        ring
    _ ≤ |x| := sub_le_self _ (by positivity)

theorem le_of_near (h : |z - x| ≤ roundoff * |x|) (hx : 0 ≤ x) : x * kept ≤ z := by
  rw [abs_of_nonneg hx] at h
  have hle := (abs_le.1 h).1
  rw [kept]
  linarith

/-! ## Dot products -/

/-- The real number for which a component stands; zero for what is not finite. -/
noncomputable def real (x : Binary32) : ℝ := (real? x).getD 0

/-- The component is zero, or its magnitude is one at which neither products of such components nor sums of 2²⁰ of
them leave the range of binary32. -/
def Moderate (x : Binary32) : Prop :=
  ∃ r, real? x = some r ∧ Between (-60) 50 r

/-- The sum of the magnitudes of the products of the components. -/
noncomputable def mass (a b : Embedding) : ℝ := ((a.zip b).map fun p => |real p.1 * real p.2|).sum

variable {a b : Embedding} {x y c : Binary32} {r : ℝ}

theorem Moderate.real? (h : Moderate x) : real? x = some (real x) := by
  obtain ⟨r, hr, -⟩ := h
  rw [real, hr]
  rfl

theorem Moderate.between (h : Moderate x) : Between (-60) 50 (real x) := by
  obtain ⟨r, hr, hrange⟩ := h
  rwa [real, hr]

theorem Moderate.between_mul (hx : Moderate x) (hy : Moderate y) : Between (-120) 100 (real x * real y) := by
  rcases hx.between with hx | ⟨hx, hx'⟩
  · exact .inl (mul_eq_zero_of_left hx _)
  · rcases hy.between with hy | ⟨hy, hy'⟩
    · exact .inl (mul_eq_zero_of_right _ hy)
    · refine .inr ?_
      rw [abs_mul, show (-120 : ℤ) = -60 + -60 by rfl, show (100 : ℤ) = 50 + 50 by rfl, zpow_add₀ two_ne_zero,
        zpow_add₀ two_ne_zero]
      exact ⟨by gcongr, by gcongr⟩

theorem mass_cons (x y : Binary32) (a b : Embedding) : mass (x :: a) (y :: b) = |real x * real y| + mass a b := by
  simp [mass]

theorem mass_nonneg (a b : Embedding) : 0 ≤ mass a b := by
  refine List.sum_nonneg fun r hr => ?_
  obtain ⟨p, -, rfl⟩ := List.mem_map.1 hr
  exact abs_nonneg _

/-- One component more: the sum is off by two roundings at most, and loses no more than they take. -/
theorem add_mul_near (hc : real? c = some r) (hx : Moderate x) (hy : Moderate y)
    (hbound : |r| * kept + |real x * real y| ≤ 2 ^ (126 : ℤ)) :
    ∃ z, real? (c + x * y) = some z ∧ |z| * kept * kept ≤ |r| * kept + |real x * real y| ∧
      (0 ≤ r → 0 ≤ real x * real y → (r + real x * real y * kept) * kept ≤ z) := by
  have hprod := hx.between_mul hy
  obtain ⟨p, hp, hnear⟩ := real?_mul hx.real? hy.real?
    (hprod.imp_right fun h => (zpow_le_zpow_right₀ one_le_two (by norm_num)).trans h.1) (by
      rcases hprod with h | h
      · rw [h, abs_zero]
        positivity
      · exact h.2.trans_lt (zpow_lt_zpow_right₀ one_lt_two (by norm_num)))
  have hscaled : |r + p| * kept ≤ |r| * kept + |real x * real y| := by
    calc |r + p| * kept ≤ (|r| + |p|) * kept := by
          gcongr
          · exact kept_pos.le
          · exact abs_add_le r p
      _ = |r| * kept + |p| * kept := add_mul ..
      _ ≤ |r| * kept + |real x * real y| := by
          gcongr
          exact mul_kept_le_of_near hnear
  have hsum : |r + p| < 2 ^ (127 : ℤ) := by
    refine lt_of_mul_lt_mul_right ((hscaled.trans hbound).trans_lt ?_) kept_pos.le
    rw [kept, roundoff]
    norm_num
  obtain ⟨z, hz, hnear'⟩ := real?_add hc hp hsum
  refine ⟨z, hz, (mul_le_mul_of_nonneg_right (mul_kept_le_of_near hnear') kept_pos.le).trans hscaled, fun hr hxy => ?_⟩
  have hle := le_of_near hnear hxy
  have hnonneg : 0 ≤ p := (mul_nonneg hxy kept_pos.le).trans hle
  refine le_trans ?_ (le_of_near hnear' (add_nonneg hr hnonneg))
  gcongr
  exact kept_pos.le

theorem dotFrom_near (hlen : a.length = b.length) (hc : real? c = some r) (ha : ∀ x ∈ a, Moderate x)
    (hb : ∀ y ∈ b, Moderate y) (hbound : |r| * kept + mass a b ≤ 2 ^ (126 : ℤ) * kept ^ a.length) :
    ∃ z, real? (dotFrom c a b) = some z ∧ |z| * kept ^ (a.length + 1) ≤ |r| * kept + mass a b ∧
      (0 ≤ r → (∀ p ∈ a.zip b, 0 ≤ real p.1 * real p.2) → (r + mass a b * kept) * kept ^ a.length ≤ z) := by
  induction a generalizing b c r with
  | nil =>
    obtain rfl := List.length_eq_zero_iff.1 hlen.symm
    exact ⟨r, hc, by simp [mass], by simp [mass]⟩
  | cons x a ih =>
    obtain ⟨y, b, rfl⟩ := List.exists_cons_of_length_eq_add_one hlen.symm
    obtain ⟨hx, ha⟩ := List.forall_mem_cons.1 ha
    obtain ⟨hy, hb⟩ := List.forall_mem_cons.1 hb
    have hmass := mass_nonneg a b
    rw [mass_cons] at hbound ⊢
    have hroom : |r| * kept + |real x * real y| ≤ 2 ^ (126 : ℤ) := by
      have hlarge : 2 ^ (126 : ℤ) * kept ^ (a.length + 1) ≤ 2 ^ (126 : ℤ) :=
        mul_le_of_le_one_right (by positivity) (kept_pow_le_one _)
      rw [List.length_cons] at hbound
      linarith
    obtain ⟨z, hz, hle, hge⟩ := add_mul_near hc hx hy hroom
    have hstep : (|z| * kept + mass a b) * kept ≤ |r| * kept + (|real x * real y| + mass a b) := by
      have hrest := mul_le_of_le_one_right hmass kept_le_one
      linarith
    have hroom' : |z| * kept + mass a b ≤ 2 ^ (126 : ℤ) * kept ^ a.length := by
      refine le_of_mul_le_mul_right (hstep.trans (hbound.trans_eq ?_)) kept_pos
      rw [List.length_cons, pow_succ, mul_assoc]
    obtain ⟨w, hw, hle', hge'⟩ := ih (Nat.succ_inj.1 hlen) hz ha hb hroom'
    refine ⟨w, hw, ?_, fun hr hpairs => ?_⟩
    · calc |w| * kept ^ (a.length + 1 + 1) = |w| * kept ^ (a.length + 1) * kept := by
            rw [pow_succ]
            ring
        _ ≤ (|z| * kept + mass a b) * kept := by
            gcongr
            exact kept_pos.le
        _ ≤ _ := hstep
    · rw [List.zip_cons_cons] at hpairs
      obtain ⟨hxy, hpairs⟩ := List.forall_mem_cons.1 hpairs
      have hz' := hge hr hxy
      have hnonneg : 0 ≤ z := (mul_nonneg (add_nonneg hr (mul_nonneg hxy kept_pos.le)) kept_pos.le).trans hz'
      rw [abs_of_nonneg hxy]
      calc (r + (real x * real y + mass a b) * kept) * kept ^ (a.length + 1)
          = ((r + real x * real y * kept) * kept + mass a b * kept * kept) * kept ^ a.length := by
            rw [pow_succ]
            ring
        _ ≤ (z + mass a b * kept) * kept ^ a.length := by
            have hpow : 0 ≤ kept ^ a.length := pow_nonneg kept_pos.le _
            gcongr
            · exact kept_pos.le
            · exact mul_le_of_le_one_right hmass kept_le_one
        _ ≤ w := hge' hnonneg hpairs

theorem mass_le (ha : ∀ x ∈ a, Moderate x) (hb : ∀ y ∈ b, Moderate y) : mass a b ≤ a.length * 2 ^ (100 : ℤ) := by
  have hterm : ∀ r ∈ (a.zip b).map fun p => |real p.1 * real p.2|, r ≤ 2 ^ (100 : ℤ) := by
    refine List.forall_mem_map.2 fun p hp => ?_
    obtain ⟨hx, hy⟩ := List.of_mem_zip hp
    rcases (ha _ hx).between_mul (hb _ hy) with h | h
    · rw [h, abs_zero]
      positivity
    · exact h.2
  have hsum := List.sum_le_card_nsmul _ _ hterm
  rw [List.length_map, List.length_zip, nsmul_eq_mul] at hsum
  refine hsum.trans ?_
  gcongr
  exact min_le_left _ _

/-- The dot product of two embeddings of few and moderate components. -/
theorem dot_near (hlen : a.length = b.length) (hfew : a.length ≤ 2 ^ 20) (ha : ∀ x ∈ a, Moderate x)
    (hb : ∀ y ∈ b, Moderate y) :
    ∃ z, real? (dot a b) = some z ∧ |z| * kept ^ (a.length + 1) ≤ mass a b ∧
      ((∀ p ∈ a.zip b, 0 ≤ real p.1 * real p.2) → mass a b * kept ^ (a.length + 1) ≤ z) := by
  have hzero : real? .zero = some 0 := Rounding.same_zero_iff.1 (by decide)
  have hroom : |(0 : ℝ)| * kept + mass a b ≤ 2 ^ (126 : ℤ) * kept ^ a.length := by
    have hfew' : (a.length : ℝ) ≤ 2 ^ 20 := by exact_mod_cast hfew
    rw [abs_zero, zero_mul, zero_add]
    calc mass a b ≤ a.length * 2 ^ (100 : ℤ) := mass_le ha hb
      _ ≤ 2 ^ 20 * 2 ^ (100 : ℤ) := by gcongr
      _ ≤ 2 ^ (126 : ℤ) * (1 / 2) := by norm_num
      _ ≤ 2 ^ (126 : ℤ) * kept ^ a.length := by
          gcongr
          exact half_le_kept_pow (by omega)
  obtain ⟨z, hz, hle, hge⟩ := dotFrom_near hlen hzero ha hb hroom
  rw [abs_zero, zero_mul, zero_add] at hle
  refine ⟨z, hz, hle, fun hpairs => ?_⟩
  have hz' := hge le_rfl hpairs
  rwa [zero_add, mul_assoc, ← pow_succ'] at hz'

/-! ## Norms -/

theorem mass_self_cons (x : Binary32) (a : Embedding) : mass (x :: a) (x :: a) = real x ^ 2 + mass a a := by
  rw [mass_cons, abs_mul_self, pow_two]

/-- The Cauchy–Schwarz inequality. -/
theorem mass_sq_le (a b : Embedding) : mass a b ^ 2 ≤ mass a a * mass b b := by
  induction a generalizing b with
  | nil => simp [mass]
  | cons x a ih =>
    cases b with
    | nil => simp [mass]
    | cons y b =>
      have hcross : 2 * (|real x| * |real y| * mass a b) ≤ real x ^ 2 * mass b b + real y ^ 2 * mass a a := by
        refine le_of_sq_le_sq ?_ ?_
        · have hmul := mul_le_mul_of_nonneg_left (ih b) (mul_nonneg (sq_nonneg (real x)) (sq_nonneg (real y)))
          have hsq := sq_nonneg (real x ^ 2 * mass b b - real y ^ 2 * mass a a)
          rw [mul_pow, mul_pow, mul_pow, sq_abs, sq_abs]
          linarith
        · have hA := mass_nonneg a a
          have hB := mass_nonneg b b
          positivity
      have hrest := ih b
      rw [mass_cons, mass_self_cons, mass_self_cons, abs_mul, ← sq_abs (real x), ← sq_abs (real y)] at *
      linarith

theorem le_mass_self (ha : ∀ x ∈ a, Moderate x) (hne : mass a a ≠ 0) : 2 ^ (-120 : ℤ) ≤ mass a a := by
  induction a with
  | nil => exact absurd rfl hne
  | cons x a ih =>
    obtain ⟨hx, ha⟩ := List.forall_mem_cons.1 ha
    rw [mass_cons] at hne ⊢
    rcases hx.between_mul hx with h | h
    · rw [h, abs_zero, zero_add] at hne ⊢
      exact ih ha hne
    · exact h.1.trans (le_add_of_nonneg_right (mass_nonneg a a))

theorem zip_self_nonneg (a : Embedding) : ∀ p ∈ a.zip a, 0 ≤ real p.1 * real p.2 := by
  induction a with
  | nil => exact nofun
  | cons x a ih =>
    rw [List.zip_cons_cons]
    exact List.forall_mem_cons.2 ⟨mul_self_nonneg (real x), ih⟩

theorem square_near (hfew : a.length ≤ 2 ^ 20) (ha : ∀ x ∈ a, Moderate x) (hne : (dot a a).same .zero = false) :
    ∃ q, real? (dot a a) = some q ∧ 2 ^ (-121 : ℤ) ≤ q ∧ q ≤ 2 ^ (121 : ℤ) ∧
      mass a a * kept ^ (a.length + 1) ≤ q := by
  obtain ⟨q, hq, hle, hge⟩ := dot_near rfl hfew ha ha
  have hge := hge (zip_self_nonneg a)
  have hkept := kept_pos
  have hhalf : 1 / 2 ≤ kept ^ (a.length + 1) := half_le_kept_pow (by omega)
  have hpos : 0 ≤ q := (mul_nonneg (mass_nonneg a a) (by positivity)).trans hge
  have hmass : 2 ^ (-120 : ℤ) ≤ mass a a := by
    refine le_mass_self ha fun hzero => ?_
    have hq0 : q = 0 := by
      rw [hzero] at hle
      exact abs_eq_zero.1 (le_antisymm (nonpos_of_mul_nonpos_left hle (by positivity)) (abs_nonneg q))
    rw [hq0] at hq
    cases hne.symm.trans (Rounding.same_zero_iff.2 hq)
  have hmass' : mass a a ≤ 2 ^ (120 : ℤ) := by
    have hfew' : (a.length : ℝ) ≤ 2 ^ 20 := by exact_mod_cast hfew
    calc mass a a ≤ a.length * 2 ^ (100 : ℤ) := mass_le ha ha
      _ ≤ 2 ^ 20 * 2 ^ (100 : ℤ) := by gcongr
      _ = 2 ^ (120 : ℤ) := by norm_num
  rw [abs_of_nonneg hpos] at hle
  refine ⟨q, hq, ?_, ?_, hge⟩
  · calc (2 : ℝ) ^ (-121 : ℤ) = 2 ^ (-120 : ℤ) * (1 / 2) := by norm_num
      _ ≤ mass a a * kept ^ (a.length + 1) := by gcongr
      _ ≤ q := hge
  · calc q = q * (1 / 2) * 2 := by ring
      _ ≤ q * kept ^ (a.length + 1) * 2 := by gcongr
      _ ≤ 2 ^ (120 : ℤ) * 2 := by
          gcongr
          exact hle.trans hmass'
      _ = 2 ^ (121 : ℤ) := by norm_num

theorem norm_near (hfew : a.length ≤ 2 ^ 20) (ha : ∀ x ∈ a, Moderate x) (hne : (dot a a).same .zero = false) :
    ∃ r, real? (dot a a).sqrt = some r ∧ 2 ^ (-61 : ℤ) ≤ r ∧ r ≤ 2 ^ (61 : ℤ) ∧
      mass a a * kept ^ (a.length + 3) ≤ r ^ 2 := by
  obtain ⟨q, hq, hlow, hhigh, hge⟩ := square_near hfew ha hne
  have hpos : 0 ≤ q := le_trans (by positivity) hlow
  obtain ⟨r, hr, hnear⟩ := real?_sqrt hq hpos
  have hroot := Real.sqrt_nonneg q
  have hnear' : |r - √q| ≤ roundoff * |√q| := by rwa [abs_of_nonneg hroot]
  have hkept := kept_pos
  have hlower := le_of_near hnear' hroot
  have hupper := mul_kept_le_of_near hnear'
  rw [abs_of_nonneg hroot] at hupper
  have hr0 : 0 ≤ r := (mul_nonneg (Real.sqrt_nonneg q) hkept.le).trans hlower
  rw [abs_of_nonneg hr0] at hupper
  have hsq : q * kept ^ 2 ≤ r ^ 2 := by
    calc q * kept ^ 2 = (√q * kept) ^ 2 := by rw [mul_pow, Real.sq_sqrt hpos]
      _ ≤ r ^ 2 := by gcongr
  have hsq' : r ^ 2 * kept ^ 2 ≤ q := by
    calc r ^ 2 * kept ^ 2 = (r * kept) ^ 2 := (mul_pow ..).symm
      _ ≤ √q ^ 2 := by gcongr
      _ = q := Real.sq_sqrt hpos
  have hhalf : 1 / 2 ≤ kept ^ 2 := half_le_kept_pow (by norm_num)
  refine ⟨r, hr, le_of_sq_le_sq ?_ hr0, le_of_sq_le_sq ?_ (by positivity), ?_⟩
  · calc ((2 : ℝ) ^ (-61 : ℤ)) ^ 2 = 2 ^ (-121 : ℤ) * (1 / 2) := by norm_num
      _ ≤ q * kept ^ 2 := by gcongr
      _ ≤ r ^ 2 := hsq
  · calc r ^ 2 = r ^ 2 * (1 / 2) * 2 := by ring
      _ ≤ r ^ 2 * kept ^ 2 * 2 := by gcongr
      _ ≤ 2 ^ (121 : ℤ) * 2 := by
          gcongr
          exact hsq'.trans hhigh
      _ = (2 ^ (61 : ℤ)) ^ 2 := by norm_num
  · calc mass a a * kept ^ (a.length + 3) = mass a a * kept ^ (a.length + 1) * kept ^ 2 := by
          rw [mul_assoc, ← pow_add]
      _ ≤ q * kept ^ 2 := by gcongr
      _ ≤ r ^ 2 := hsq

/-! ## The range of the similarity -/

/-- A quotient of which the numerator stays within the denominator up to some roundings does so by one rounding more. -/
theorem div_near {x y : Binary32} {p q : ℝ} {n : ℕ} (hn : n + 1 ≤ 2 ^ 23) (hx : real? x = some p)
    (hy : real? y = some q) (hq : 0 < q) (hle : |p| * kept ^ n ≤ q) : ∃ s, real? (x / y) = some s ∧ |s| * kept ^ (n + 1) ≤ 1 := by
  have hkept := kept_pos
  have hratio : |p / q| * kept ^ n ≤ 1 := by
    rw [abs_div, abs_of_pos hq, div_mul_eq_mul_div]
    exact (div_le_one hq).2 hle
  have hhalf : 1 / 2 ≤ kept ^ n := half_le_kept_pow (by omega)
  have hbound : |p / q| < 2 ^ (127 : ℤ) := by
    calc |p / q| = |p / q| * (1 / 2) * 2 := by ring
      _ ≤ |p / q| * kept ^ n * 2 := by gcongr
      _ ≤ 1 * 2 := by gcongr
      _ < 2 ^ (127 : ℤ) := by norm_num
  obtain ⟨s, hs, hnear⟩ := real?_div hx hy hq.ne' hbound
  refine ⟨s, hs, ?_⟩
  rcases le_or_gt (2 ^ (-126 : ℤ)) |p / q| with hlow | hlow
  · have hsmall : 2 ^ (-150 : ℤ) ≤ roundoff * |p / q| := by
      calc (2 : ℝ) ^ (-150 : ℤ) = roundoff * 2 ^ (-126 : ℤ) := by
            rw [Rounding.roundoff_mul_two_zpow]
            norm_num
        _ ≤ roundoff * |p / q| := by
            gcongr
            exact Rounding.roundoff_nonneg
    calc |s| * kept ^ (n + 1) = |s| * kept * kept ^ n := by
          rw [pow_succ]
          ring
      _ ≤ |p / q| * kept ^ n := by
          gcongr
          exact mul_kept_le_of_near (hnear.trans (max_le le_rfl hsmall))
      _ ≤ 1 := hratio
  · -- the quotient is among the subnormal numbers, and far below one
    have herror : |s - p / q| ≤ 2 ^ (-126 : ℤ) := by
      refine hnear.trans (max_le ?_ (zpow_le_zpow_right₀ one_le_two (by norm_num)))
      refine (mul_le_of_le_one_left (abs_nonneg _) ?_).trans hlow.le
      rw [roundoff]
      norm_num
    have hs' : |s| ≤ 1 := by
      calc |s| = |p / q + (s - p / q)| := by rw [add_sub_cancel]
        _ ≤ |p / q| + |s - p / q| := abs_add_le ..
        _ ≤ 2 ^ (-126 : ℤ) + 2 ^ (-126 : ℤ) := by gcongr
        _ ≤ 1 := by norm_num
    exact mul_le_one₀ hs' (by positivity) (kept_pow_le_one _)

theorem le_of_mul_kept_pow_le {s : ℝ} {n : ℕ} (hn : n ≤ 2 ^ 20) (h : |s| * kept ^ (2 * n + 6) ≤ 1) :
    |s| ≤ 1 + (n + 3) / 2 ^ 22 := by
  have hbernoulli := one_add_mul_le_pow (a := -roundoff) (by rw [roundoff]; norm_num) (2 * n + 6)
  have hn' : (n : ℝ) ≤ 2 ^ 20 := by exact_mod_cast hn
  rw [← sub_eq_add_neg, ← kept, roundoff] at hbernoulli
  have hle : |s| * (1 - (n + 3) / 2 ^ 23) ≤ 1 := by
    refine (mul_le_mul_of_nonneg_left ?_ (abs_nonneg s)).trans h
    refine le_trans (le_of_eq ?_) hbernoulli
    push_cast
    ring
  obtain ⟨y, hy⟩ : ∃ y, ((n : ℝ) + 3) / 2 ^ 23 = y := ⟨_, rfl⟩
  have hy0 : 0 ≤ y := by
    rw [← hy]
    positivity
  have hy1 : y ≤ 1 / 4 := by
    rw [← hy]
    linarith
  rw [show ((n : ℝ) + 3) / 2 ^ 22 = 2 * y by rw [← hy]; ring]
  rw [hy] at hle
  refine le_of_mul_le_mul_right (hle.trans ?_) (by linarith : 0 < 1 - y)
  calc 1 ≤ 1 + y * (1 - 2 * y) := le_add_of_nonneg_right (mul_nonneg hy0 (by linarith))
    _ = (1 + 2 * y) * (1 - y) := by ring

/-- What the roundings leave of the similarity is within its range. -/
theorem cosine_near (hlen : a.length = b.length) (hfew : a.length ≤ 2 ^ 20) (ha : ∀ x ∈ a, Moderate x)
    (hb : ∀ y ∈ b, Moderate y) (hne : (dot a a).same .zero = false) (hne' : (dot b b).same .zero = false) :
    ∃ s, real? (cosine a b) = some s ∧ |s| * kept ^ (2 * a.length + 6) ≤ 1 := by
  obtain ⟨r, hr, hrlow, hrhigh, hrmass⟩ := norm_near hfew ha hne
  obtain ⟨t, ht, htlow, hthigh, htmass⟩ := norm_near (hlen ▸ hfew) hb hne'
  obtain ⟨d, hd, hdle, -⟩ := dot_near hlen hfew ha hb
  have hkept := kept_pos
  rw [← hlen] at htmass
  have hr0 : 0 < r := lt_of_lt_of_le (by positivity) hrlow
  have ht0 : 0 < t := lt_of_lt_of_le (by positivity) htlow
  have hlow : 2 ^ (-126 : ℤ) ≤ |r * t| := by
    calc (2 : ℝ) ^ (-126 : ℤ) ≤ 2 ^ (-61 : ℤ) * 2 ^ (-61 : ℤ) := by norm_num
      _ ≤ r * t := by gcongr
      _ ≤ |r * t| := le_abs_self _
  have hhigh : |r * t| < 2 ^ (127 : ℤ) := by
    calc |r * t| = r * t := abs_of_pos (mul_pos hr0 ht0)
      _ ≤ 2 ^ (61 : ℤ) * 2 ^ (61 : ℤ) := by gcongr
      _ < 2 ^ (127 : ℤ) := by norm_num
  obtain ⟨p, hp, hnear⟩ := real?_mul hr ht (.inr hlow) hhigh
  have hple := le_of_near hnear (mul_pos hr0 ht0).le
  have hmass : mass a b * kept ^ (a.length + 3) ≤ r * t := by
    refine le_of_sq_le_sq ?_ (mul_pos hr0 ht0).le
    calc (mass a b * kept ^ (a.length + 3)) ^ 2 = mass a b ^ 2 * (kept ^ (a.length + 3)) ^ 2 := mul_pow ..
      _ ≤ mass a a * mass b b * (kept ^ (a.length + 3)) ^ 2 := by
          gcongr
          exact mass_sq_le a b
      _ = mass a a * kept ^ (a.length + 3) * (mass b b * kept ^ (a.length + 3)) := by ring
      _ ≤ r ^ 2 * t ^ 2 := by
          have hmassb := mass_nonneg b b
          gcongr
      _ = (r * t) ^ 2 := (mul_pow ..).symm
  have hle : |d| * kept ^ (2 * a.length + 5) ≤ p := by
    calc |d| * kept ^ (2 * a.length + 5) = |d| * kept ^ (a.length + 1) * kept ^ (a.length + 3) * kept := by
          rw [mul_assoc, mul_assoc, ← pow_succ, ← pow_add]
          congr 2
          omega
      _ ≤ mass a b * kept ^ (a.length + 3) * kept := by gcongr
      _ ≤ r * t * kept := by gcongr
      _ ≤ p := hple
  have hcosine : cosine a b = dot a b / ((dot a a).sqrt * (dot b b).sqrt) := by
    simp [cosine, hne, hne']
  rw [hcosine]
  exact div_near (by omega) hd hp (lt_of_lt_of_le (mul_pos (mul_pos hr0 ht0) hkept) hple) hle

theorem add_mul_self_of_zero (hx : x.same .zero = true) : Binary32.zero + x * x = .zero := by
  obtain ⟨s, hs⟩ := Rounding.same_zero_iff_unpacked.1 hx
  have hnumber : x.unpacked ≠ .notANumber := hs ▸ nofun
  cases s with
  | negative =>
    obtain rfl : x = ⟨0x80000000⟩ := Binary32.eq_of_unpacked_eq hnumber hs
    decide
  | positive =>
    obtain rfl : x = .zero := Binary32.eq_of_unpacked_eq hnumber hs
    decide

theorem dot_self_of_zero (ha : ∀ x ∈ a, x.same .zero = true) : dot a a = .zero := by
  rw [dot]
  induction a with
  | nil => rfl
  | cons x a ih =>
    obtain ⟨hx, ha⟩ := List.forall_mem_cons.1 ha
    rw [dotFrom, add_mul_self_of_zero hx, ih ha]

theorem cosine_of_zero (h : (dot a a).same .zero = true ∨ (dot b b).same .zero = true) : cosine a b = .zero := by
  rw [← Bool.or_eq_true] at h
  exact if_pos h

/-- The similarity is zero if one of the embeddings is. Otherwise it is within the rounding errors of its range, for
embeddings of one dimension that is moderate, as are the components. -/
theorem cosine_range (a b : Embedding) :
    ((∀ x ∈ a, x.same .zero = true) ∨ (∀ y ∈ b, y.same .zero = true) → cosine a b = .zero) ∧
      (a.length = b.length → a.length ≤ 2 ^ 20 → (∀ x ∈ a, Moderate x) → (∀ y ∈ b, Moderate y) →
        ∃ s, real? (cosine a b) = some s ∧ |s| ≤ 1 + (a.length + 3) / 2 ^ 22) := by
  have hzero : Binary32.same .zero .zero = true := by decide
  refine ⟨fun h => cosine_of_zero ?_, fun hlen hfew ha hb => ?_⟩
  · rcases h with ha | hb
    · exact .inl (by rw [dot_self_of_zero ha, hzero])
    · exact .inr (by rw [dot_self_of_zero hb, hzero])
  · by_cases hne : (dot a a).same .zero = true ∨ (dot b b).same .zero = true
    · refine ⟨0, ?_, ?_⟩
      · rw [cosine_of_zero hne]
        exact Rounding.same_zero_iff.1 hzero
      · rw [abs_zero]
        positivity
    · rw [not_or, Bool.not_eq_true, Bool.not_eq_true] at hne
      obtain ⟨s, hs, hle⟩ := cosine_near hlen hfew ha hb hne.1 hne.2
      exact ⟨s, hs, le_of_mul_kept_pow_le hfew hle⟩

theorem moderate_of_unpacked {m : ℕ} {e : ℤ} {hm : 0 < m} (hx : x.unpacked = .finite .positive m e hm)
    (hrange : 2 ^ (-60 : ℤ) ≤ (m : ℝ) * 2 ^ e ∧ (m : ℝ) * 2 ^ e ≤ 2 ^ (50 : ℤ)) : Moderate x := by
  refine ⟨m * 2 ^ e, ?_, .inr ?_⟩
  · rw [Rounding.real?, hx, Rounding.realOf, Rounding.signOf, one_mul]
  · rwa [abs_of_nonneg (by positivity)]

theorem cosine_range_of_ones : cosine [.zero, .zero] [.one, .half] = .zero ∧
    ∃ s, real? (cosine [.one, .half] [.half, .one]) = some s ∧
      |s| ≤ 1 + (([.one, .half] : Embedding).length + 3) / 2 ^ 22 := by
  have hone : Moderate .one :=
    moderate_of_unpacked (show Binary32.one.unpacked = .finite .positive 8388608 (-23) (by decide) from rfl)
      (by norm_num)
  have hhalf : Moderate .half :=
    moderate_of_unpacked (show Binary32.half.unpacked = .finite .positive 8388608 (-24) (by decide) from rfl)
      (by norm_num)
  refine ⟨(cosine_range _ _).1 (.inl (by decide)), (cosine_range _ _).2 rfl (by decide) ?_ ?_⟩
  · simp [hone, hhalf]
  · simp [hone, hhalf]

/-- Of finite components, the roundings take the similarity of an embedding with itself above one, and products that
leave the range of binary32 take it to what is no number. -/
theorem cosine_out_of_range :
    (∀ x ∈ ([⟨0x40000000⟩, ⟨0x7F61B1E6⟩, ⟨0xFF61B1E6⟩] : Embedding), (real? x).isSome = true) ∧
      Binary32.lt .one (cosine [⟨0x40000000⟩, ⟨0x40000000⟩] [⟨0x40000000⟩, ⟨0x40000000⟩]) = true ∧
      (cosine [⟨0x7F61B1E6⟩, ⟨0xFF61B1E6⟩] [⟨0x40000000⟩, ⟨0x40000000⟩]).isNaN = true := by
  refine ⟨?_, by decide +kernel, by decide +kernel⟩
  simp only [List.forall_mem_cons, List.not_mem_nil, false_imp_iff, implies_true, and_true]
  exact ⟨rfl, rfl, rfl⟩

end DeviceNaming.Embedding
