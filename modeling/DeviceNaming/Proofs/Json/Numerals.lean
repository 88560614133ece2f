import DeviceNaming.Json.Token
import Mathlib.Data.List.Basic

/-!
# Numbers of a document

A numeral is written with a sign or without, with a whole part that does not begin with a needless zero, and with or
without a fraction and an exponent. Before anything that cannot go on a number (`Source.Apart`) it is cut into the one
token of the numeral (`tokenAt_of_numeralText`).
-/

namespace DeviceNaming.Json

/-- A run of decimal digits. -/
def IsDigits (w : List Char) : Prop := w ≠ [] ∧ ∀ c ∈ w, c.isDigit = true

def digitsOf (w : List Char) : List Nat := w.map fun c => c.toNat - '0'.toNat

/-- A fraction as it is written, and its digits. -/
inductive FractionText : List Char → Option (List Nat) → Prop
  | absent : FractionText [] none
  | present {w : List Char} (hw : IsDigits w) : FractionText ('.' :: w) (some (digitsOf w))

/-- An exponent as it is written, and its sign and digits. -/
inductive ExponentText : List Char → Option (Bool × List Nat) → Prop
  | absent : ExponentText [] none
  | plain {e : Char} {w : List Char} (he : e = 'e' ∨ e = 'E') (hw : IsDigits w) :
      ExponentText (e :: w) (some (false, digitsOf w))
  | plus {e : Char} {w : List Char} (he : e = 'e' ∨ e = 'E') (hw : IsDigits w) :
      ExponentText (e :: '+' :: w) (some (false, digitsOf w))
  | minus {e : Char} {w : List Char} (he : e = 'e' ∨ e = 'E') (hw : IsDigits w) :
      ExponentText (e :: '-' :: w) (some (true, digitsOf w))

/-- The text of a numeral after its sign. A zero in front stands alone. -/
inductive MagnitudeText (negative : Bool) : List Char → Numeral → Prop
  | mk {w f x : List Char} {fraction : Option (List Nat)} {exponent : Option (Bool × List Nat)} (hw : IsDigits w)
      (hzero : w.head? = some '0' → w = ['0']) (hf : FractionText f fraction) (hx : ExponentText x exponent) :
      MagnitudeText negative (w ++ (f ++ x)) ⟨negative, digitsOf w, fraction, exponent⟩

/-- A numeral as it is written. -/
inductive NumeralText : List Char → Numeral → Prop
  | plain {w : List Char} {n : Numeral} (H : MagnitudeText false w n) : NumeralText w n
  | minus {w : List Char} {n : Numeral} (H : MagnitudeText true w n) : NumeralText ('-' :: w) n

/-! ## Digits -/

theorem ne_of_isDigit {c d : Char} (hc : c.isDigit = true) (hd : d.isDigit = false) : c ≠ d := by
  rintro rfl
  exact absurd hc (Bool.eq_false_iff.1 hd)

/-- No digit stands at the start of the source. -/
def Source.NoDigit (s : Source) : Prop := ∀ c rest, s = some c :: rest → c.isDigit = false

/-- What stands at the start of the source does not go on a number. -/
def Source.Apart (s : Source) : Prop :=
  ∀ c rest, s = some c :: rest → c.isDigit = false ∧ c ≠ '.' ∧ c ≠ 'e' ∧ c ≠ 'E'

theorem Source.Apart.noDigit {s : Source} (H : s.Apart) : s.NoDigit := fun c rest h => (H c rest h).1

theorem digits_append {w : List Char} (hw : ∀ c ∈ w, c.isDigit = true) {s : Source} (hs : s.NoDigit) :
    digits (w.map some ++ s) = (digitsOf w, s) := by
  induction w with
  | nil =>
    rcases s with _ | ⟨_ | c, rest⟩
    · rfl
    · rfl
    · change digits (some c :: rest) = _
      rw [digits, if_neg (Bool.eq_false_iff.1 (hs c rest rfl))]
      rfl
  | cons c w ih =>
    obtain ⟨hc, hw⟩ := List.forall_mem_cons.1 hw
    change digits (some c :: (w.map some ++ s)) = _
    rw [digits, if_pos hc, ih hw]
    rfl

theorem IsDigits.digits_append {w : List Char} (hw : IsDigits w) {s : Source} (hs : s.NoDigit) :
    ∃ d ds, digitsOf w = d :: ds ∧ digits (w.map some ++ s) = (d :: ds, s) := by
  obtain ⟨hne, hw⟩ := hw
  obtain ⟨c, w, rfl⟩ := List.exists_cons_of_ne_nil hne
  exact ⟨_, _, rfl, Json.digits_append hw hs⟩

theorem IsDigits.append_ne {w : List Char} (hw : IsDigits w) {c : Char} (hc : c.isDigit = false) (s rest : Source) :
    w.map some ++ s ≠ some c :: rest := by
  intro heq
  obtain ⟨hne, hall⟩ := hw
  obtain ⟨d, w, rfl⟩ := List.exists_cons_of_ne_nil hne
  exact ne_of_isDigit (hall d List.mem_cons_self) hc (Option.some.inj (List.cons.inj heq).1)

/-! ## Parts of a number -/

variable {s : Source}

variable (negative : Bool) (whole : List Nat) (fraction : Option (List Nat))

theorem exponentToken_of_exponentText {x : List Char} {exponent : Option (Bool × List Nat)}
    (H : ExponentText x exponent) (hs : s.Apart) :
    exponentToken negative whole fraction (x.map some ++ s) = (.number ⟨negative, whole, fraction, exponent⟩, s) := by
  cases H with
  | absent =>
    rcases s with _ | ⟨_ | c, rest⟩
    · rfl
    · rfl
    · obtain ⟨-, -, he, hE⟩ := hs c rest rfl
      unfold exponentToken
      exact if_neg (not_or.2 ⟨he, hE⟩)
  | @plain e w he hw =>
    obtain ⟨d, ds, hvalue, hdigits⟩ := hw.digits_append hs.noDigit
    change exponentToken _ _ _ (some e :: (w.map some ++ s)) = _
    rw [exponentToken, if_pos he, hdigits, hvalue]
    · exact hw.append_ne rfl s
    · exact hw.append_ne rfl s
  | @plus e w he hw =>
    obtain ⟨d, ds, hvalue, hdigits⟩ := hw.digits_append hs.noDigit
    change exponentToken _ _ _ (some e :: some '+' :: (w.map some ++ s)) = _
    rw [exponentToken, if_pos he, hdigits, hvalue]
  | @minus e w he hw =>
    obtain ⟨d, ds, hvalue, hdigits⟩ := hw.digits_append hs.noDigit
    change exponentToken _ _ _ (some e :: some '-' :: (w.map some ++ s)) = _
    rw [exponentToken, if_pos he, hdigits, hvalue]

theorem ExponentText.noDigit_append {x : List Char} {exponent : Option (Bool × List Nat)} (H : ExponentText x exponent)
    (hs : s.Apart) : Source.NoDigit (x.map some ++ s) := by
  have hmark : ∀ e, e = 'e' ∨ e = 'E' → ∀ rest' : Source, Source.NoDigit (some e :: rest') := by
    rintro e he _ c rest ⟨⟩
    rcases he with rfl | rfl <;> rfl
  cases H with
  | absent => exact hs.noDigit
  | plain he _ => exact hmark _ he _
  | plus he _ => exact hmark _ he _
  | minus he _ => exact hmark _ he _

theorem FractionText.noDigit_append {f : List Char} {fraction : Option (List Nat)} (H : FractionText f fraction)
    {s : Source} (hs : s.NoDigit) : Source.NoDigit (f.map some ++ s) := by
  cases H with
  | absent => exact hs
  | present _ =>
    rintro c rest ⟨⟩
    rfl

theorem fractionToken_of_fractionText {f x : List Char} {exponent : Option (Bool × List Nat)}
    (H : FractionText f fraction) (hx : ExponentText x exponent) (hs : s.Apart) :
    fractionToken negative whole (f.map some ++ (x.map some ++ s)) =
      (.number ⟨negative, whole, fraction, exponent⟩, s) := by
  cases H with
  | absent =>
    have hpoint : ∀ rest, x.map some ++ s ≠ some '.' :: rest := by
      intro rest heq
      cases hx with
      | absent => exact (hs _ _ heq).2.1 rfl
      | plain he _ | plus he _ | minus he _ =>
        have h := Option.some.inj (List.cons.inj heq).1
        rcases he with rfl | rfl <;> exact absurd h (by decide)
    change fractionToken negative whole (x.map some ++ s) = _
    rw [fractionToken, exponentToken_of_exponentText negative whole none hx hs]
    exact hpoint
  | @present w hw =>
    obtain ⟨d, ds, hvalue, hdigits⟩ := hw.digits_append (hx.noDigit_append hs)
    change fractionToken negative whole (some '.' :: (w.map some ++ (x.map some ++ s))) = _
    rw [fractionToken, hdigits, hvalue]
    exact exponentToken_of_exponentText negative whole (some _) hx hs

/-- The whole part of a numeral begins with a digit that is no zero, or is a zero. -/
theorem digitsOf_cases {w : List Char} (hw : IsDigits w) (hzero : w.head? = some '0' → w = ['0']) :
    digitsOf w = [0] ∨ ∃ d ds, digitsOf w = d :: ds ∧ d ≠ 0 := by
  obtain ⟨hne, hall⟩ := hw
  obtain ⟨c, w, rfl⟩ := List.exists_cons_of_ne_nil hne
  by_cases hc : c = '0'
  · rw [hzero (congrArg some hc)]
    exact .inl rfl
  · refine .inr ⟨_, _, rfl, fun hvalue => hc ?_⟩
    have hdigit := hall c List.mem_cons_self
    have hbound : '0'.toNat ≤ c.toNat := by
      simp only [Char.isDigit, Bool.and_eq_true, decide_eq_true_eq] at hdigit
      exact hdigit.1
    have hle : c.toNat ≤ '0'.toNat := Nat.le_of_sub_eq_zero hvalue
    exact Char.toNat_inj.1 (Nat.le_antisymm hle hbound)

theorem numberToken_of_magnitudeText {w : List Char} {n : Numeral} (H : MagnitudeText negative w n) (hs : s.Apart) :
    numberToken negative (w.map some ++ s) = (.number n, s) := by
  cases H with
  | @mk w f x fraction exponent hw hzero hf hx =>
    have hdigits := digits_append hw.2 (hf.noDigit_append (hx.noDigit_append hs))
    rw [List.map_append, List.map_append, List.append_assoc, List.append_assoc]
    unfold numberToken
    rw [hdigits]
    have hrest := fractionToken_of_fractionText negative (digitsOf w) _ hf hx hs
    rcases digitsOf_cases hw hzero with h | ⟨d, ds, h, hd⟩
    · rw [h] at hrest ⊢
      exact hrest
    · obtain ⟨d, rfl⟩ := Nat.exists_eq_succ_of_ne_zero hd
      rw [h] at hrest ⊢
      exact hrest

/-! ## Numerals -/

theorem isGap_eq_false {c : Char} (hc : c.isDigit = true) : isGap c = false := by
  simp [isGap, ne_of_isDigit hc]

theorem tokenAt_of_isDigit {c : Char} (hc : c.isDigit = true) (fuel : Nat) (rest : Source) :
    tokenAt fuel c rest = numberToken false (some c :: rest) := by
  unfold tokenAt
  split
  -- the last case is that of all characters without a token of their own
  case h_12 => exact if_pos hc
  all_goals exact absurd hc (by decide)

/-- A numeral is one token, which begins with its first character. -/
theorem tokenAt_of_numeralText {w : List Char} {n : Numeral} (H : NumeralText w n) (hs : s.Apart) :
    ∃ c v, w = c :: v ∧ isGap c = false ∧ ∀ fuel, tokenAt fuel c (v.map some ++ s) = (.number n, s) := by
  cases H with
  | minus H => exact ⟨_, _, rfl, rfl, fun _ => numberToken_of_magnitudeText true H hs⟩
  | plain H =>
    have htoken := numberToken_of_magnitudeText false H hs
    cases H with
    | @mk w f x fraction exponent hw hzero hf hx =>
      obtain ⟨c, v, rfl⟩ := List.exists_cons_of_ne_nil hw.1
      have hc := hw.2 c List.mem_cons_self
      exact ⟨c, v ++ (f ++ x), rfl, isGap_eq_false hc, fun fuel => (tokenAt_of_isDigit hc fuel _).trans htoken⟩

end DeviceNaming.Json
