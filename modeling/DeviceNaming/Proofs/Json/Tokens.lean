import DeviceNaming.Proofs.Json.Numerals
import DeviceNaming.Proofs.Json.Strings

/-!
# Tokens of a source

`Source.Lexes s ts` says that a source is cut into tokens. White space in front is passed over, and a string, a number,
a word or a mark in front is one token more; only a number asks that what follows does not go on it.
-/

namespace DeviceNaming.Json.Source

/-- The source is cut into the tokens. -/
def Lexes (s : Source) (ts : List Token) : Prop := ∀ fuel, s.length ≤ fuel → tokensWithin fuel s = ts

namespace Lexes

variable {s : Source} {ts : List Token}

theorem tokens_eq (H : s.Lexes ts) : tokens s = ts := H s.length (Nat.le_refl _)

theorem nil : Lexes [] [] := by
  intro fuel _
  cases fuel <;> rfl

theorem gap {c : Char} (hc : isGap c = true) (H : s.Lexes ts) : Lexes (some c :: s) ts := by
  intro fuel hfuel
  obtain ⟨fuel, rfl⟩ := Nat.exists_eq_add_one.2 (Nat.lt_of_lt_of_le (Nat.succ_pos _) hfuel)
  rw [tokensWithin, if_pos hc, H fuel (Nat.le_of_succ_le_succ hfuel)]

/-- A token at the front of a source, if what it leaves is no longer than what followed its first character. -/
theorem cons {c : Char} {rest : Source} {t : Token} (hgap : isGap c = false)
    (htoken : ∀ fuel, rest.length < fuel → tokenAt fuel c rest = (t, s)) (hs : s.length ≤ rest.length)
    (H : s.Lexes ts) : Lexes (some c :: rest) (t :: ts) := by
  intro fuel hfuel
  obtain ⟨fuel, rfl⟩ := Nat.exists_eq_add_one.2 (Nat.lt_of_lt_of_le (Nat.succ_pos _) hfuel)
  have hrest : rest.length ≤ fuel := Nat.le_of_succ_le_succ hfuel
  rw [tokensWithin, if_neg (Bool.eq_false_iff.1 hgap), htoken _ (Nat.lt_succ_of_le hrest)]
  dsimp only
  rw [H fuel (Nat.le_trans hs hrest)]

theorem comma (H : s.Lexes ts) : Lexes (some ',' :: s) (.comma :: ts) :=
  H.cons rfl (fun _ _ => rfl) (Nat.le_refl _)

theorem colon (H : s.Lexes ts) : Lexes (some ':' :: s) (.colon :: ts) :=
  H.cons rfl (fun _ _ => rfl) (Nat.le_refl _)

theorem openArray (H : s.Lexes ts) : Lexes (some '[' :: s) (.openArray :: ts) :=
  H.cons rfl (fun _ _ => rfl) (Nat.le_refl _)

theorem closeArray (H : s.Lexes ts) : Lexes (some ']' :: s) (.closeArray :: ts) :=
  H.cons rfl (fun _ _ => rfl) (Nat.le_refl _)

theorem openObject (H : s.Lexes ts) : Lexes (some '\x7b' :: s) (.openObject :: ts) :=
  H.cons rfl (fun _ _ => rfl) (Nat.le_refl _)

theorem closeObject (H : s.Lexes ts) : Lexes (some '\x7d' :: s) (.closeObject :: ts) :=
  H.cons rfl (fun _ _ => rfl) (Nat.le_refl _)

theorem nullWord (H : s.Lexes ts) : Lexes (['n', 'u', 'l', 'l'].map some ++ s) (.null :: ts) :=
  H.cons rfl (fun _ _ => rfl) (Nat.le_add_right _ 3)

theorem trueWord (H : s.Lexes ts) : Lexes (['t', 'r', 'u', 'e'].map some ++ s) (.bool true :: ts) :=
  H.cons rfl (fun _ _ => rfl) (Nat.le_add_right _ 3)

theorem falseWord (H : s.Lexes ts) : Lexes (['f', 'a', 'l', 's', 'e'].map some ++ s) (.bool false :: ts) :=
  H.cons rfl (fun _ _ => rfl) (Nat.le_add_right _ 4)

/-- A number is one token if what follows does not go on it. -/
theorem number {w : List Char} {n : Numeral} (Hn : NumeralText w n) (hs : s.Apart) (H : s.Lexes ts) :
    Lexes (w.map some ++ s) (.number n :: ts) := by
  obtain ⟨c, v, rfl, hgap, htoken⟩ := tokenAt_of_numeralText Hn hs
  exact H.cons hgap (fun fuel _ => htoken fuel) (List.suffix_append (v.map some) s).length_le

/-- A string is one token. -/
theorem quoted (ps : List Piece) (H : s.Lexes ts) :
    Lexes ((quoted ps).map some ++ s) (.text (content ps) :: ts) := by
  have hlength := length_closedBy ps s
  have hwritten : (Json.quoted ps).map some ++ s = some '"' :: closedBy ps s := by
    rw [Json.quoted, List.map_cons, List.map_append, List.cons_append, List.append_assoc]
    rfl
  rw [hwritten]
  refine H.cons rfl (fun fuel hfuel => ?_) (by omega)
  exact textToken_closedBy ps s (by omega)

/-- A written text is one token. -/
theorem text (text : String) (H : s.Lexes ts) :
    Lexes ((writeText text).map some ++ s) (.text (.ok text) :: ts) := by
  obtain ⟨ps, hwritten, hcontent⟩ := exists_pieces text
  rw [hwritten, ← hcontent]
  exact H.quoted ps

end Lexes

end DeviceNaming.Json.Source
