import DeviceNaming.Number.Binary32
import Mathlib

/-!
# The order of binary32 numbers

A number has a place in a linear order, in which `0.0` and `-0.0` share one, and what is no number has none
(`Binary32.place?`). Comparisons compare places: `Binary32.lt_iff`, `Binary32.le_iff`. So `<` is transitive, and of
two numbers one is below the other or they share a place; with what is no number every comparison fails.

To get there, a pattern of bits is taken apart and put together again (`Binary32.pack_unpack`).
-/

namespace DeviceNaming.Binary32

open Float.Model (Format UnpackedFloat)
open Float.Model.UnpackedFloat (Sign packComponents unpackMantissa unpackExponent unpackSign)

/-! ## Bit patterns -/

theorem toBitVec_ofBitVec (v : BitVec 1) : (Sign.ofBitVec v).toBitVec = v := by
  revert v
  decide

/-- The sign, the exponent and the mantissa are the whole pattern. -/
theorem packComponents_unpack {format : Format} (b : BitVec format.numBits) :
    packComponents format (Sign.ofBitVec (unpackSign b)) (unpackExponent b) (unpackMantissa b) = b := by
  have hm := format.hm
  have he := format.he
  have hbits : format.numBits = 1 + format.exponentBits + format.mantissaBitsWithoutImplicit := rfl
  refine BitVec.eq_of_getLsbD_eq fun i hi => ?_
  rw [packComponents, toBitVec_ofBitVec, BitVec.getLsbD_append, BitVec.getLsbD_append]
  simp only [unpackSign, unpackExponent, unpackMantissa, BitVec.getLsbD_cast, BitVec.getLsbD_extractLsb]
  split
  · rw [decide_eq_true (by omega), Bool.true_and, Nat.zero_add]
  · split
    · rw [decide_eq_true (by omega), Bool.true_and, Nat.add_sub_cancel' (by omega)]
    · rw [decide_eq_true (by omega), Bool.true_and]
      congr 1
      omega

theorem exponentBias_eq : Format.binary32.exponentBias = 127 := by decide

theorem mantissaBits_eq : Format.binary32.mantissaBits = 24 := by decide

theorem toNat_one_append (m : BitVec 23) : (1#1 ++ m).toNat = 2 ^ 23 + m.toNat := by
  have hor := Nat.two_pow_add_eq_or_of_lt m.isLt 1
  rw [Nat.mul_one] at hor
  rw [BitVec.toNat_append, Nat.shiftLeft_eq, hor]
  rfl

theorem pack_subnormal (s : Sign) (m : BitVec 23) {x : Int} (hx : x = -149) (h : 0 < m.toNat) :
    UnpackedFloat.pack Format.binary32 (.finite s m.toNat x h) = packComponents Format.binary32 s 0#8 m := by
  have hlog : m.toNat.log2 < 23 := (Nat.log2_lt (Nat.ne_of_gt h)).2 m.isLt
  have hexp : (x + Format.binary32.exponentBias + (23 : Nat)).toNat = 1 := by
    rw [hx, exponentBias_eq]
    rfl
  rw [UnpackedFloat.pack]
  dsimp only
  rw [hexp, mantissaBits_eq, if_neg (by decide), if_neg (by omega), BitVec.ofNat_toNat, BitVec.setWidth_eq]

theorem pack_normal (s : Sign) (e : BitVec 8) (m : BitVec 23) {x : Int} (hx : x = e.toNat - 150)
    (he : e ≠ -1#8) (h : 0 < (1#1 ++ m).toNat) :
    UnpackedFloat.pack Format.binary32 (.finite s (1#1 ++ m).toNat x h) = packComponents Format.binary32 s e m := by
  have he' : e.toNat ≠ 255 := fun h => he (BitVec.eq_of_toNat_eq h)
  have hlt : e.toNat < 2 ^ 8 := e.isLt
  have hm : m.toNat < 2 ^ 23 := m.isLt
  have hlog : (2 ^ 23 + m.toNat).log2 = 23 := by
    refine (Nat.log2_eq_iff (by omega)).2 ?_
    omega
  have hexp : (x + Format.binary32.exponentBias + (23 : Nat)).toNat = e.toNat := by
    rw [hx, exponentBias_eq]
    omega
  -- the leading one is not kept
  have hlow : BitVec.ofNat 23 (2 ^ 23 + m.toNat) = m := by
    refine BitVec.eq_of_toNat_eq ?_
    rw [BitVec.toNat_ofNat]
    omega
  rw [UnpackedFloat.pack]
  dsimp only
  rw [hexp, toNat_one_append m, hlog, hlow, mantissaBits_eq, if_neg (by omega), if_pos rfl, BitVec.ofNat_toNat,
    BitVec.setWidth_eq]

/-- The pattern of a number is made of what it was taken apart into. -/
theorem pack_unpack (b : BitVec Format.binary32.numBits)
    (hb : UnpackedFloat.unpack Format.binary32 b ≠ .notANumber) :
    UnpackedFloat.pack Format.binary32 (UnpackedFloat.unpack Format.binary32 b) = b := by
  have hparts := packComponents_unpack b
  revert hb
  fun_cases UnpackedFloat.unpack Format.binary32 b with
  | case1 m e v s he hm =>
    intro _
    rw [← hparts, show unpackExponent b = _ from he, show unpackMantissa b = _ from hm]
    rfl
  | case2 => exact fun h => absurd rfl h
  | case3 m e v s _ he hm =>
    intro _
    rw [← hparts, show unpackExponent b = _ from he, show unpackMantissa b = _ from hm]
    rfl
  | case4 m e x v s _ he hm =>
    intro _
    have hx : x + 1 = -149 := by
      simp only [x, he, exponentBias_eq]
      rfl
    rw [show unpackExponent b = _ from he] at hparts
    exact (pack_subnormal s m hx _).trans hparts
  | case5 m e x v s hinf he =>
    intro _
    have hx : x = e.toNat - 150 := by
      simp only [x, exponentBias_eq]
      rfl
    exact (pack_normal s e m hx hinf _).trans hparts

theorem toNat_unpackMantissa (b : BitVec Format.binary32.numBits) :
    (unpackMantissa b).toNat = b.toNat % 2 ^ 23 := by
  rw [unpackMantissa, BitVec.toNat_cast, BitVec.extractLsb_toNat, Nat.shiftRight_zero]
  rfl

theorem toNat_unpackExponent (b : BitVec Format.binary32.numBits) :
    (unpackExponent b).toNat = b.toNat / 2 ^ 23 % 2 ^ 8 := by
  rw [unpackExponent, BitVec.toNat_cast, BitVec.extractLsb_toNat, Nat.shiftRight_eq_div_pow]
  rfl

theorem unpack_eq_notANumber_iff {b : BitVec Format.binary32.numBits} :
    UnpackedFloat.unpack Format.binary32 b = .notANumber ↔ unpackExponent b = -1#8 ∧ unpackMantissa b ≠ 0#23 := by
  fun_cases UnpackedFloat.unpack Format.binary32 b with
  | case1 m e v s h h' => exact ⟨UnpackedFloat.noConfusion, fun hb => absurd h' hb.2⟩
  | case2 m e h h' => exact ⟨fun _ => ⟨h, h'⟩, fun _ => rfl⟩
  | case3 m e v s h => exact ⟨UnpackedFloat.noConfusion, fun hb => absurd hb.1 h⟩
  | case4 m e x v s h => exact ⟨UnpackedFloat.noConfusion, fun hb => absurd hb.1 h⟩
  | case5 m e x v s h => exact ⟨UnpackedFloat.noConfusion, fun hb => absurd hb.1 h⟩

theorem unpack_eq_notANumber_iff_lt {b : BitVec Format.binary32.numBits} :
    UnpackedFloat.unpack Format.binary32 b = .notANumber ↔ 0x7F800000 < b.toNat % 2 ^ 31 := by
  have hm := toNat_unpackMantissa b
  have he := toNat_unpackExponent b
  rw [unpack_eq_notANumber_iff, ← BitVec.toNat_inj, Ne, ← BitVec.toNat_inj, he, hm,
    show (-1#8 : BitVec Format.binary32.exponentBits).toNat = 255 from rfl,
    show (0#23 : BitVec Format.binary32.mantissaBitsWithoutImplicit).toNat = 0 from rfl]
  omega

/-! ## Places -/

/-- The places of numbers. -/
abbrev Place := Int ×ₗ Int ×ₗ Int

/-- Where a number stands: by its sign, with the infinities outside, then by the exponent and by the mantissa. -/
def placeOf : UnpackedFloat → Option Place
  | .notANumber => none
  | .infinity .negative => some (toLex (-2, toLex (0, 0)))
  | .finite .negative m e _ => some (toLex (-1, toLex (-e, -m)))
  | .zero _ => some (toLex (0, toLex (0, 0)))
  | .finite .positive m e _ => some (toLex (1, toLex (e, m)))
  | .infinity .positive => some (toLex (2, toLex (0, 0)))

theorem compare_eq_lt_iff (a b : UnpackedFloat) :
    a.compare b = some .lt ↔ ∃ p q, placeOf a = some p ∧ placeOf b = some q ∧ p < q := by
  rcases a with (_ | _) | _ | _ | ⟨_ | _, m, e, hm⟩ <;> rcases b with (_ | _) | _ | _ | ⟨_ | _, n, f, hn⟩ <;>
    simp [UnpackedFloat.compare, placeOf, Prod.Lex.toLex_lt_toLex, Ordering.then_eq_lt, Ordering.then_eq_gt,
      compare_lt_iff_lt, compare_gt_iff_gt]
  case infinity.negative.infinity.positive => rfl

theorem compare_eq_eq_iff (a b : UnpackedFloat) :
    a.compare b = some .eq ↔ ∃ p, placeOf a = some p ∧ placeOf b = some p := by
  rcases a with (_ | _) | _ | _ | ⟨_ | _, m, e, hm⟩ <;> rcases b with (_ | _) | _ | _ | ⟨_ | _, n, f, hn⟩ <;>
    simp [UnpackedFloat.compare, placeOf, Ordering.then_eq_eq]
  case infinity.negative.infinity.negative => rfl
  case infinity.positive.infinity.positive => rfl
  case finite.negative.finite.negative => exact and_congr eq_comm (by omega)
  case finite.positive.finite.positive => exact and_congr eq_comm (by omega)

/-- What the pattern stands for. -/
def unpacked (x : Binary32) : UnpackedFloat := UnpackedFloat.unpack Format.binary32 x.bits.toBitVec

theorem unpack_value (x : Binary32) : x.value.toModel.unpack = x.unpacked := by
  change UnpackedFloat.unpack Format.binary32 (UnpackedFloat.pack Format.binary32 x.unpacked) = x.unpacked
  by_cases hx : x.unpacked = .notANumber
  · rw [hx]
    rfl
  · exact congrArg _ (pack_unpack _ hx)

def place? (x : Binary32) : Option Place := placeOf x.unpacked

variable {a b c : Binary32}

theorem isNaN_iff_unpacked : a.isNaN = true ↔ a.unpacked = .notANumber := by
  rw [unpacked, unpack_eq_notANumber_iff_lt, isNaN, decide_eq_true_eq, UInt32.lt_iff_toNat_lt, UInt32.toNat_and,
    show (0x7FFFFFFF : UInt32).toNat = 2 ^ 31 - 1 from rfl, Nat.and_two_pow_sub_one_eq_mod]
  rfl

theorem isNaN_iff : a.isNaN = true ↔ a.place? = none := by
  rw [isNaN_iff_unpacked, place?]
  rcases a.unpacked with (_ | _) | _ | _ | ⟨_ | _, m, e, hm⟩ <;> simp [placeOf]

theorem lt_iff : lt a b = true ↔ ∃ p q, a.place? = some p ∧ b.place? = some q ∧ p < q := by
  have hcompare : lt a b = true ↔ a.unpacked.lt b.unpacked = true := by
    rw [lt, decide_eq_true_iff, ← unpack_value, ← unpack_value]
    exact decide_eq_true_iff
  rw [hcompare, UnpackedFloat.lt, beq_iff_eq]
  exact compare_eq_lt_iff _ _

theorem le_iff : le a b = true ↔ ∃ p q, a.place? = some p ∧ b.place? = some q ∧ p ≤ q := by
  have hcompare : le a b = true ↔ a.unpacked.le b.unpacked = true := by
    rw [le, decide_eq_true_iff, ← unpack_value, ← unpack_value]
    exact decide_eq_true_iff
  have hle : a.unpacked.le b.unpacked = true ↔
      a.unpacked.compare b.unpacked = some .lt ∨ a.unpacked.compare b.unpacked = some .eq := by
    rw [UnpackedFloat.le]
    rcases UnpackedFloat.compare a.unpacked b.unpacked with _ | _ | _ | _ <;> simp
  rw [hcompare, hle, compare_eq_lt_iff, compare_eq_eq_iff]
  constructor
  · rintro (⟨p, q, hp, hq, hpq⟩ | ⟨p, hp, hq⟩)
    · exact ⟨p, q, hp, hq, hpq.le⟩
    · exact ⟨p, p, hp, hq, le_rfl⟩
  · rintro ⟨p, q, hp, hq, hpq⟩
    rcases hpq.lt_or_eq with hlt | rfl
    · exact .inl ⟨p, q, hp, hq, hlt⟩
    · exact .inr ⟨p, hp, hq⟩

theorem not_isNaN_iff : a.isNaN = false ↔ ∃ p, a.place? = some p := by
  rw [← Bool.not_eq_true, isNaN_iff, ← Ne, Option.ne_none_iff_exists']

theorem isNaN_of_lt_left (h : lt a b = true) : a.isNaN = false :=
  let ⟨p, _, hp, _⟩ := lt_iff.1 h
  not_isNaN_iff.2 ⟨p, hp⟩

theorem isNaN_of_lt_right (h : lt a b = true) : b.isNaN = false :=
  let ⟨_, q, _, hq, _⟩ := lt_iff.1 h
  not_isNaN_iff.2 ⟨q, hq⟩

/-- Of two numbers one is below the other or they share a place. -/
theorem le_of_not_lt (ha : a.isNaN = false) (hb : b.isNaN = false) (h : lt b a = false) : le a b = true := by
  obtain ⟨p, hp⟩ := not_isNaN_iff.1 ha
  obtain ⟨q, hq⟩ := not_isNaN_iff.1 hb
  refine le_iff.2 ⟨p, q, hp, hq, not_lt.1 fun hqp => ?_⟩
  cases h.symm.trans (lt_iff.2 ⟨q, p, hq, hp, hqp⟩)

theorem lt_of_not_le (ha : a.isNaN = false) (hb : b.isNaN = false) (h : le b a = false) : lt a b = true := by
  obtain ⟨p, hp⟩ := not_isNaN_iff.1 ha
  obtain ⟨q, hq⟩ := not_isNaN_iff.1 hb
  refine lt_iff.2 ⟨p, q, hp, hq, not_le.1 fun hqp => ?_⟩
  cases h.symm.trans (le_iff.2 ⟨q, p, hq, hp, hqp⟩)

theorem lt_of_lt_of_le (hab : lt a b = true) (hbc : le b c = true) : lt a c = true := by
  obtain ⟨p, q, hp, hq, hpq⟩ := lt_iff.1 hab
  obtain ⟨q', t, hq', ht, hqt⟩ := le_iff.1 hbc
  cases hq.symm.trans hq'
  exact lt_iff.2 ⟨p, t, hp, ht, hpq.trans_le hqt⟩

theorem lt_of_le_of_lt (hab : le a b = true) (hbc : lt b c = true) : lt a c = true := by
  obtain ⟨p, q, hp, hq, hpq⟩ := le_iff.1 hab
  obtain ⟨q', t, hq', ht, hqt⟩ := lt_iff.1 hbc
  cases hq.symm.trans hq'
  exact lt_iff.2 ⟨p, t, hp, ht, hpq.trans_lt hqt⟩

theorem le_of_lt (h : lt a b = true) : le a b = true := by
  obtain ⟨p, q, hp, hq, hpq⟩ := lt_iff.1 h
  exact le_iff.2 ⟨p, q, hp, hq, hpq.le⟩

theorem not_lt_self (a : Binary32) : lt a a = false := by
  refine Bool.eq_false_iff.2 fun h => ?_
  obtain ⟨p, q, hp, hq, hpq⟩ := lt_iff.1 h
  cases hp.symm.trans hq
  exact lt_irrefl p hpq

/-- A positive number that is finite is the only one in its place. -/
theorem unpacked_of_place? {exponent mantissa : Int}
    (h : a.place? = some (toLex (1, toLex (exponent, mantissa)))) :
    ∃ m hm, mantissa = (m : Nat) ∧ a.unpacked = .finite .positive m exponent hm := by
  rw [place?] at h
  generalize a.unpacked = u at h ⊢
  rcases u with (_ | _) | _ | _ | ⟨_ | _, m, e, hm⟩ <;> simp [placeOf] at h
  case finite.positive =>
    obtain ⟨rfl, rfl⟩ := h
    exact ⟨m, hm, rfl, rfl⟩

theorem eq_of_unpacked_eq (hnumber : a.unpacked ≠ .notANumber) (h : a.unpacked = b.unpacked) : a = b := by
  have ha := pack_unpack a.bits.toBitVec hnumber
  have hb := pack_unpack b.bits.toBitVec fun hnan => hnumber (h.trans hnan)
  have hbits : a.bits.toBitVec = b.bits.toBitVec := ha.symm.trans ((congrArg _ h).trans hb)
  obtain ⟨a⟩ := a
  obtain ⟨b⟩ := b
  exact congrArg _ (UInt32.toBitVec_inj.1 hbits)

/-- Where one stands there is no other number. -/
theorem eq_one_of_le (ha : le a .one = true) (ha' : le .one a = true) : a = .one := by
  have hone : place? .one = some (toLex (1, toLex (-23, 8388608))) := by decide
  obtain ⟨p, q, hp, hq, hpq⟩ := le_iff.1 ha
  obtain ⟨q', p', hq', hp', hqp⟩ := le_iff.1 ha'
  cases hp.symm.trans hp'
  cases hq.symm.trans hq'
  cases hone.symm.trans hq
  rw [hpq.antisymm hqp] at hp
  obtain ⟨m, hm, heq, ha⟩ := unpacked_of_place? hp
  obtain ⟨n, hn, heq', hb⟩ := unpacked_of_place? hone
  cases Int.natCast_inj.1 (heq.symm.trans heq')
  exact eq_of_unpacked_eq (ha ▸ nofun) (ha.trans hb.symm)

/-! ## The larger of two -/

theorem max_cases (a b : Binary32) : max a b = a ∨ max a b = b := by
  unfold max
  split
  · exact .inr rfl
  · split
    · exact .inr rfl
    · exact .inl rfl

/-- What is not below the larger one is below none. -/
theorem not_lt_of_not_lt_max (h : lt c (max a b) = false) : lt c a = false ∧ lt c b = false := by
  unfold max at h
  cases ha : a.isNaN with
  | true =>
    rw [if_pos ha] at h
    refine ⟨Bool.eq_false_iff.2 fun hlt => ?_, h⟩
    cases ha.symm.trans (isNaN_of_lt_right hlt)
  | false =>
    rw [if_neg (ha ▸ Bool.false_ne_true)] at h
    cases hab : le a b with
    | true =>
      rw [if_pos hab] at h
      refine ⟨Bool.eq_false_iff.2 fun hlt => ?_, h⟩
      cases h.symm.trans (lt_of_lt_of_le hlt hab)
    | false =>
      rw [if_neg (hab ▸ Bool.false_ne_true)] at h
      refine ⟨h, Bool.eq_false_iff.2 fun hlt => ?_⟩
      have hba := lt_of_not_le (isNaN_of_lt_right hlt) ha hab
      cases h.symm.trans (lt_of_lt_of_le hlt (le_of_lt hba))

theorem max_one (ha : a.isNaN = false) (h : lt a .one = false) : max a .one = a := by
  unfold max
  rw [if_neg (ha ▸ Bool.false_ne_true)]
  split
  · rename_i hle
    exact (eq_one_of_le hle (le_of_not_lt (by decide) ha h)).symm
  · rfl

theorem foldl_max_mem (a : Binary32) (xs : List Binary32) : xs.foldl max a ∈ a :: xs := by
  induction xs generalizing a with
  | nil => exact List.mem_singleton_self a
  | cons x xs ih =>
    rcases List.mem_cons.1 (ih (max a x)) with h | h
    · rw [List.foldl_cons, h]
      rcases max_cases a x with hmax | hmax
      · exact hmax.symm ▸ List.mem_cons_self
      · exact hmax.symm ▸ List.mem_cons_of_mem _ List.mem_cons_self
    · exact List.mem_cons_of_mem _ (List.mem_cons_of_mem _ h)

/-- None of the numbers is above the largest one. -/
theorem not_lt_foldl_max (a : Binary32) (xs : List Binary32) : ∀ x ∈ a :: xs, lt (xs.foldl max a) x = false := by
  induction xs generalizing a with
  | nil => exact List.forall_mem_singleton.2 (not_lt_self a)
  | cons y ys ih =>
    obtain ⟨hmax, hys⟩ := List.forall_mem_cons.1 (ih (max a y))
    obtain ⟨ha, hy⟩ := not_lt_of_not_lt_max hmax
    exact List.forall_mem_cons.2 ⟨ha, List.forall_mem_cons.2 ⟨hy, hys⟩⟩

end DeviceNaming.Binary32
