import DeviceNaming.Proofs.Number.Operations

/-!
# Arithmetic of binary32 numbers

The sum, the product, the quotient and the square root of finite numbers, against those of the real numbers for which
they stand (`real?`). Each is off by at most one part in 2²⁴ (`real?_add`, `real?_mul`, `real?_sqrt`), as long as it
stays below 2¹²⁷ and a product does not fall among the subnormal numbers; a quotient that does so is off by at most
2⁻¹⁵⁰ (`real?_div`).
-/

namespace DeviceNaming.Rounding

open Float.Model (Format UnpackedFloat)
open Float.Model.UnpackedFloat (Sign packComponents unpackSign)
open Binary32 (exponentBias_eq pack_subnormal pack_normal toNat_one_append isNaN_iff_unpacked)

variable {u : UnpackedFloat} {x y : ℝ}

/-! ## Canonical numbers and patterns -/

theorem ofBitVec_toBitVec (s : Sign) : Sign.ofBitVec s.toBitVec = s := by
  cases s <;> rfl

theorem unpackSign_packComponents {spec : Format} (s : Sign) (x : BitVec spec.exponentBits)
    (m : BitVec spec.mantissaBitsWithoutImplicit) : unpackSign (packComponents spec s x m) = s.toBitVec := by
  refine BitVec.eq_of_getLsbD_eq fun i hi => ?_
  simp only [unpackSign, packComponents, BitVec.getLsbD_cast, BitVec.getLsbD_extractLsb]
  rw [decide_eq_true (by omega), Bool.true_and, BitVec.getLsbD_append, if_neg (by omega), BitVec.getLsbD_append,
    if_neg (by omega)]
  congr 1
  omega

theorem unpack_packComponents_normal (s : Sign) {x : BitVec 8} (m : BitVec 23) (hx : x ≠ 0#8) (hx' : x ≠ -1#8) :
    ∃ h, UnpackedFloat.unpack Format.binary32 (packComponents Format.binary32 s x m) =
      .finite s (1#1 ++ m).toNat (x.toNat - 150) h := by
  refine ⟨by rw [toNat_one_append]; omega, ?_⟩
  rw [UnpackedFloat.unpack]
  dsimp only
  rw [UnpackedFloat.unpackExponent_packComponents, if_neg hx', if_neg hx]
  simp only [UnpackedFloat.unpackMantissa_packComponents, unpackSign_packComponents, ofBitVec_toBitVec, exponentBias_eq]
  rfl

theorem unpack_packComponents_subnormal (s : Sign) {m : BitVec 23} (hm : m ≠ 0#23) :
    ∃ h, UnpackedFloat.unpack Format.binary32 (packComponents Format.binary32 s 0#8 m) =
      .finite s m.toNat (-149) h := by
  refine ⟨by simpa [BitVec.toNat_pos, BitVec.pos_iff_ne_zero], ?_⟩
  rw [UnpackedFloat.unpack]
  dsimp only
  simp only [UnpackedFloat.unpackExponent_packComponents, UnpackedFloat.unpackMantissa_packComponents,
    unpackSign_packComponents, ofBitVec_toBitVec, exponentBias_eq]
  rw [if_neg (by decide), if_pos trivial, dif_neg hm]
  rfl

/-- A canonical number is read off the pattern into which it is packed. -/
theorem unpack_pack (hu : Canonical u) :
    UnpackedFloat.unpack Format.binary32 (UnpackedFloat.pack Format.binary32 u) = u := by
  cases u with
  | zero s => cases s <;> rfl
  | infinity s => exact hu.elim
  | notANumber => exact hu.elim
  | finite s m e hm =>
    obtain ⟨hlt, hle, hle', hnormal⟩ := hu
    by_cases hbig : 2 ^ 23 ≤ m
    · obtain ⟨v, rfl⟩ : ∃ v : BitVec 23, m = (1#1 ++ v).toNat := by
        refine ⟨BitVec.ofNat 23 (m - 2 ^ 23), ?_⟩
        rw [toNat_one_append, BitVec.toNat_ofNat]
        omega
      obtain ⟨x, hx⟩ : ∃ x : BitVec 8, e = x.toNat - 150 := by
        refine ⟨BitVec.ofNat 8 (e + 150).toNat, ?_⟩
        rw [BitVec.toNat_ofNat]
        omega
      have hne : x ≠ 0#8 := by
        rintro rfl
        simp at hx
        omega
      have hne' : x ≠ -1#8 := by
        rintro rfl
        simp at hx
        omega
      obtain ⟨_, hunpack⟩ := unpack_packComponents_normal s v hne hne'
      rw [pack_normal s x v hx hne', hunpack, hx]
    · obtain rfl : e = -149 := by omega
      obtain ⟨v, rfl⟩ : ∃ v : BitVec 23, m = v.toNat := by
        refine ⟨BitVec.ofNat 23 m, ?_⟩
        rw [BitVec.toNat_ofNat]
        omega
      have hne : v ≠ 0#23 := by
        rintro rfl
        exact hm.ne rfl
      obtain ⟨_, hunpack⟩ := unpack_packComponents_subnormal s hne
      rw [pack_subnormal s v rfl hm, hunpack]

/-- What is read off a pattern is canonical as soon as it is finite. -/
theorem canonical_unpack {b : BitVec Format.binary32.numBits}
    (hb : realOf (UnpackedFloat.unpack Format.binary32 b) = some x) :
    Canonical (UnpackedFloat.unpack Format.binary32 b) := by
  revert hb
  fun_cases UnpackedFloat.unpack Format.binary32 b with
  | case1 => exact nofun
  | case2 => exact nofun
  | case3 => exact fun _ => trivial
  | case4 m e x v s _ he hm =>
    intro _
    have hx : x + 1 = -149 := by
      simp only [x, he, exponentBias_eq]
      rfl
    have hlt : m.toNat < 2 ^ 23 := m.isLt
    exact ⟨by omega, by omega, by omega, .inr hx⟩
  | case5 m e x v s hinf he =>
    intro _
    have hx : x = e.toNat - 150 := by
      simp only [x, exponentBias_eq]
      rfl
    have hlt : m.toNat < 2 ^ 23 := m.isLt
    have hlt' : e.toNat < 2 ^ 8 := e.isLt
    have he' : e.toNat ≠ 255 := fun h => hinf (BitVec.eq_of_toNat_eq h)
    have he0 : e.toNat ≠ 0 := fun h => he (BitVec.eq_of_toNat_eq h)
    have hm := toNat_one_append m
    exact ⟨by omega, by omega, by omega, .inl (by omega)⟩

/-! ## Binary32 numbers -/

/-- The real number for which a finite number stands. -/
noncomputable def real? (a : Binary32) : Option ℝ := realOf a.unpacked

variable {a b : Binary32}

theorem not_isNaN_of_real? (hx : real? a = some x) : a.isNaN = false := by
  rw [← Bool.not_eq_true, isNaN_iff_unpacked]
  intro hnan
  rw [real?, hnan] at hx
  cases hx

theorem canonical_of_real? (hx : real? a = some x) : Canonical a.unpacked :=
  canonical_unpack hx

theorem real?_of_unpacked (h : a.unpacked = UnpackedFloat.unpack Format.binary32 (UnpackedFloat.pack Format.binary32 u))
    (hu : Canonical u) : real? a = realOf u := by
  rw [real?, h, unpack_pack hu]

/-- An operation on numbers is the one on what their patterns stand for. -/
theorem unpacked_lift {op : Float32 → Float32 → Float32} {f : UnpackedFloat → UnpackedFloat → UnpackedFloat}
    (hop : ∀ x y : Float32, (op x y).toModel.unpack = UnpackedFloat.unpack Format.binary32
      (UnpackedFloat.pack Format.binary32 (f x.toModel.unpack y.toModel.unpack)))
    (ha : a.isNaN = false) (hb : b.isNaN = false) :
    (Binary32.lift op a b).unpacked = UnpackedFloat.unpack Format.binary32
      (UnpackedFloat.pack Format.binary32 (f a.unpacked b.unpacked)) := by
  rw [Binary32.lift, ha, hb, if_neg Bool.false_ne_true, if_neg Bool.false_ne_true, Binary32.unpacked_ofValue, hop,
    Binary32.unpack_value, Binary32.unpack_value]

theorem unpacked_add (ha : a.isNaN = false) (hb : b.isNaN = false) :
    (a + b).unpacked = UnpackedFloat.unpack Format.binary32
      (UnpackedFloat.pack Format.binary32 (UnpackedFloat.add Format.binary32 a.unpacked b.unpacked)) :=
  unpacked_lift (fun _ _ => rfl) ha hb

theorem unpacked_mul (ha : a.isNaN = false) (hb : b.isNaN = false) :
    (a * b).unpacked = UnpackedFloat.unpack Format.binary32
      (UnpackedFloat.pack Format.binary32 (UnpackedFloat.mul Format.binary32 a.unpacked b.unpacked)) :=
  unpacked_lift (fun _ _ => rfl) ha hb

theorem unpacked_sqrt (ha : a.isNaN = false) :
    a.sqrt.unpacked = UnpackedFloat.unpack Format.binary32
      (UnpackedFloat.pack Format.binary32 (UnpackedFloat.sqrt Format.binary32 a.unpacked)) := by
  rw [Binary32.sqrt, ha, if_neg Bool.false_ne_true, Binary32.unpacked_ofValue, ← Binary32.unpack_value]
  rfl

theorem real?_add (hx : real? a = some x) (hy : real? b = some y) (hbound : |x + y| < 2 ^ (127 : ℤ)) :
    ∃ z, real? (a + b) = some z ∧ |z - (x + y)| ≤ roundoff * |x + y| := by
  obtain ⟨z, hcanonical, hz, herror⟩ :=
    add_near (canonical_of_real? hx) (canonical_of_real? hy) hx hy hbound
  have hunpacked := unpacked_add (not_isNaN_of_real? hx) (not_isNaN_of_real? hy)
  exact ⟨z, (real?_of_unpacked hunpacked hcanonical).trans hz, herror⟩

theorem real?_mul (hx : real? a = some x) (hy : real? b = some y) (hlow : x * y = 0 ∨ 2 ^ (-126 : ℤ) ≤ |x * y|)
    (hbound : |x * y| < 2 ^ (127 : ℤ)) : ∃ z, real? (a * b) = some z ∧ |z - x * y| ≤ roundoff * |x * y| := by
  obtain ⟨z, hcanonical, hz, herror⟩ :=
    mul_near (canonical_of_real? hx) (canonical_of_real? hy) hx hy hlow hbound
  have hunpacked := unpacked_mul (not_isNaN_of_real? hx) (not_isNaN_of_real? hy)
  exact ⟨z, (real?_of_unpacked hunpacked hcanonical).trans hz, herror⟩

theorem real?_div (hx : real? a = some x) (hy : real? b = some y) (hne : y ≠ 0) (hbound : |x / y| < 2 ^ (127 : ℤ)) :
    ∃ z, real? (a / b) = some z ∧ |z - x / y| ≤ max (roundoff * |x / y|) (2 ^ (-150 : ℤ)) := by
  obtain ⟨z, hcanonical, hz, herror⟩ :=
    div_near (canonical_of_real? hx) (canonical_of_real? hy) hx hy hne hbound
  have hunpacked := Binary32.unpacked_div (not_isNaN_of_real? hx) (not_isNaN_of_real? hy)
  exact ⟨z, (real?_of_unpacked hunpacked hcanonical).trans hz, herror⟩

theorem real?_sqrt (hx : real? a = some x) (hnonneg : 0 ≤ x) :
    ∃ z, real? a.sqrt = some z ∧ |z - √x| ≤ roundoff * √x := by
  obtain ⟨z, hcanonical, hz, herror⟩ := sqrt_near (canonical_of_real? hx) hx hnonneg
  exact ⟨z, (real?_of_unpacked (unpacked_sqrt (not_isNaN_of_real? hx)) hcanonical).trans hz, herror⟩

theorem same_zero_iff_unpacked : a.same .zero = true ↔ ∃ s, a.unpacked = .zero s := by
  have hcompare : a.same .zero = true ↔ a.unpacked.compare (.zero .positive) = some .eq := by
    change (a.value.toModel.unpack.compare _ == some .eq) = true ↔ _
    rw [Binary32.unpack_value, beq_iff_eq]
    rfl
  rw [hcompare, Binary32.compare_eq_eq_iff]
  rcases a.unpacked with (_ | _) | _ | _ | ⟨_ | _, m, e, hm⟩ <;> simp [Binary32.placeOf]

/-- Equality with zero is that of the real numbers. -/
theorem same_zero_iff : a.same .zero = true ↔ real? a = some 0 := by
  rw [same_zero_iff_unpacked, real?]
  cases a.unpacked with
  | zero => simp [realOf]
  | infinity => simp [realOf]
  | notANumber => simp [realOf]
  | finite s m e hm =>
    have hne : signOf s * ((m : ℝ) * 2 ^ e) ≠ 0 := by
      rw [← abs_pos, abs_mul, abs_signOf, one_mul]
      positivity
    simpa [realOf] using hne

end DeviceNaming.Rounding
