import DeviceNaming.Proofs.Number.Order

/-!
# Quotients of binary32 numbers

A number that divided by itself is one is finite and not zero (`Binary32.exists_finite_of_div_self`). Such a number
divided by any number is a number (`Binary32.isNaN_div`), and a count is always a number (`Binary32.isNaN_ofNat`).
-/

namespace DeviceNaming.Binary32

open Float.Model (Format UnpackedFloat)
open Float.Model.UnpackedFloat (Sign packComponents roundWithAccuracy)

variable {a b : Binary32} {u v : UnpackedFloat}

/-! ## Rounding -/

theorem unpack_packComponents_ne (s : Sign) {x : BitVec 8} (m : BitVec 23) (hx : x ≠ -1#8) :
    UnpackedFloat.unpack Format.binary32 (packComponents Format.binary32 s x m) ≠ .notANumber := by
  rw [Ne, unpack_eq_notANumber_iff, UnpackedFloat.unpackExponent_packComponents]
  exact fun h => hx h.1

/-- What is packed as a number is read as a number. -/
theorem unpack_pack_ne (hu : u ≠ .notANumber) :
    UnpackedFloat.unpack Format.binary32 (UnpackedFloat.pack Format.binary32 u) ≠ .notANumber := by
  have hinfinity (s : Sign) :
      UnpackedFloat.unpack Format.binary32 (UnpackedFloat.packedInfinity Format.binary32 s) ≠ .notANumber := by
    rw [Ne, unpack_eq_notANumber_iff, UnpackedFloat.packedInfinity, UnpackedFloat.unpackMantissa_packComponents]
    exact fun h => h.2 rfl
  fun_cases UnpackedFloat.pack Format.binary32 u with
  | case1 => exact absurd rfl hu
  | case2 s => exact hinfinity s
  | case3 s => exact unpack_packComponents_ne s _ (by decide)
  | case4 s m e hm biased h => exact hinfinity s
  | case5 s m e hm bits biased h h' =>
    refine unpack_packComponents_ne s _ fun hx => ?_
    have hbiased : biased % 256 = 255 := (BitVec.toNat_ofNat biased 8).symm.trans (congrArg BitVec.toNat hx)
    have hlt : ¬256 ≤ biased + 1 := h
    omega
  | case6 s m e hm bits biased h h' => exact unpack_packComponents_ne s _ (by decide)

theorem roundWithAccuracy_ne (s : Sign) (m : Nat) (e : Int) (accuracy : UnpackedFloat.Accuracy) :
    roundWithAccuracy Format.binary32 s m e accuracy ≠ .notANumber := by
  unfold roundWithAccuracy
  dsimp only
  split <;> nofun

/-! ## Counts -/

theorem ofNat_model_ne (n : Nat) : UnpackedFloat.ofNat Format.binary32 n ≠ .notANumber := by
  unfold UnpackedFloat.ofNat UnpackedFloat.ofInt UnpackedFloat.normalize
  split
  · exact roundWithAccuracy_ne _ _ _ _
  · nofun
  · exact roundWithAccuracy_ne _ _ _ _

/-- A number times a finite one that is not zero. -/
theorem mul_finite_ne (hu : u ≠ .notANumber) (s : Sign) (m : Nat) (e : Int) (hm : 0 < m) :
    UnpackedFloat.mul Format.binary32 u (.finite s m e hm) ≠ .notANumber := by
  cases u with
  | notANumber => exact absurd rfl hu
  | finite => exact roundWithAccuracy_ne _ _ _ _
  | infinity => nofun
  | zero => nofun

theorem unpacked_ofValue (r : Float32) : (ofValue r).unpacked = r.toModel.unpack := by
  unfold ofValue
  cases h : r.isNaN with
  | false => rfl
  | true =>
    have hunpack : r.toModel.unpack.isNaN = true := h
    have hinvalid : invalid.unpacked = .notANumber := isNaN_iff_unpacked.1 (by decide)
    rw [if_pos rfl, hinvalid]
    generalize r.toModel.unpack = u at hunpack
    cases u <;> first | rfl | cases hunpack

theorem ofScientific_ne (m : Nat) (e : Int) : UnpackedFloat.ofScientific Format.binary32 m e ≠ .notANumber := by
  unfold UnpackedFloat.ofScientific
  split
  · nofun
  · split
    · nofun
    · split
      · nofun
      · split
        · exact mul_finite_ne UnpackedFloat.noConfusion _ _ _ _
        · exact roundWithAccuracy_ne _ _ _ _

theorem isNaN_ofNat (n : Nat) : (ofNat n).isNaN = false := by
  -- a small count is converted as a word and multiplied by one
  have hsmall (m : UInt64) : (m.toFloat32 * Float32.ofBits 0x3F800000).toModel.unpack ≠ .notANumber := by
    have hone : (Float32.ofBits 0x3F800000).toModel.unpack = .finite .positive 8388608 (-23) (by decide) := rfl
    refine unpack_pack_ne (?_ : UnpackedFloat.mul _ m.toFloat32.toModel.unpack (Float32.ofBits _).toModel.unpack ≠ _)
    rw [hone]
    exact mul_finite_ne (unpack_pack_ne (ofNat_model_ne _)) _ _ _ _
  rw [← Bool.not_eq_true, isNaN_iff_unpacked, ofNat, unpacked_ofValue]
  change (Float32.ofScientific n false 0).toModel.unpack ≠ _
  unfold Float32.ofScientific
  split
  · exact hsmall _
  · exact unpack_pack_ne (ofScientific_ne _ _)

/-! ## Quotients -/

theorem unpacked_div (ha : a.isNaN = false) (hb : b.isNaN = false) :
    (a / b).unpacked = UnpackedFloat.unpack Format.binary32
      (UnpackedFloat.pack Format.binary32 (UnpackedFloat.div Format.binary32 a.unpacked b.unpacked)) := by
  change (lift (· / ·) a b).unpacked = _
  rw [lift, ha, hb, if_neg Bool.false_ne_true, if_neg Bool.false_ne_true, unpacked_ofValue, ← unpack_value,
    ← unpack_value b]
  rfl

/-- Only a finite number that is not zero goes into itself once. -/
theorem exists_finite_of_div_self (h : a / a = .one) : ∃ s m e hm, a.unpacked = .finite s m e hm := by
  have ha : a.isNaN = false := by
    refine Bool.eq_false_iff.2 fun hnan => ?_
    change lift (· / ·) a a = .one at h
    rw [lift, if_pos hnan] at h
    have hbit := congrArg (fun z : Binary32 => z.bits.toBitVec.getLsbD 22) h
    rw [quiet, UInt32.toBitVec_or, BitVec.getLsbD_or] at hbit
    cases (Bool.or_true _).symm.trans hbit
  have hdiv : UnpackedFloat.div Format.binary32 a.unpacked a.unpacked ≠ .notANumber := fun hdiv => by
    have hnan : (a / a).isNaN = true := by
      rw [isNaN_iff_unpacked, unpacked_div ha ha, hdiv]
      exact unpack_eq_notANumber_iff.2 (by decide)
    rw [h] at hnan
    cases hnan
  cases hu : a.unpacked with
  | finite s m e hm => exact ⟨s, m, e, hm, rfl⟩
  | notANumber => cases ha.symm.trans (isNaN_iff_unpacked.2 hu)
  | infinity s => exact absurd (by rw [hu]; rfl) hdiv
  | zero s => exact absurd (by rw [hu]; rfl) hdiv

theorem isNaN_div {s : Sign} {m : Nat} {e : Int} {hm : 0 < m} (ha : a.unpacked = .finite s m e hm)
    (hb : b.isNaN = false) : (a / b).isNaN = false := by
  have ha' : a.isNaN = false := by
    rw [← Bool.not_eq_true, isNaN_iff_unpacked, ha]
    nofun
  have hne : UnpackedFloat.div Format.binary32 a.unpacked b.unpacked ≠ .notANumber := by
    rw [ha]
    cases hu : b.unpacked with
    | notANumber => cases hb.symm.trans (isNaN_iff_unpacked.2 hu)
    | finite => exact roundWithAccuracy_ne _ _ _ _
    | infinity => nofun
    | zero => nofun
  rw [← Bool.not_eq_true, isNaN_iff_unpacked, unpacked_div ha' hb]
  exact unpack_pack_ne hne

end DeviceNaming.Binary32
