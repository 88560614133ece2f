import DeviceNaming.Json.Decoder
import DeviceNaming.Proofs.Json.Source
import DeviceNaming.Proofs.Json.Tokens
import Mathlib.Data.List.Forall2
import Mathlib.Data.Option.Basic

/-!
# Drafts of written values

`Spells w d` says that the text `w`, wherever it stands, is read as the value `d`. Texts, arrays and objects are written
so that they spell what they hold (`spells_writeText`, `spells_writeArray`, `spells_writeObject`), and a document that
spells a value is decoded as this value (`Spells.decode_toUTF8`).

Between the text and the value stand the tokens: `Draft.Makes ts d` says that the tokens `ts` make up the value `d`,
whatever follows them.
-/

namespace DeviceNaming.Json

/-! ## Values from tokens -/

namespace Draft

/-- The tokens make up a value, whatever follows them. -/
structure Makes (ts : List Token) (d : Draft) : Prop where
  value : ∀ fuel rest, 3 * ts.length ≤ fuel → Draft.value fuel (ts ++ rest) = (d, rest)
  -- a bracket in front would close an array instead of beginning its next item
  starts : ∃ t us, ts = t :: us ∧ t ≠ .closeArray

/-- The tokens end an array that has the given items to come. -/
def EndsItems (ts : List Token) (ds : List Draft) : Prop :=
  ∀ fuel rest, 3 * ts.length ≤ fuel → moreItems fuel (ts ++ rest) = (ds, .closed, rest)

/-- Members whose names could be read. -/
def named (ms : List (String × Draft)) : List (Except Fault String × Draft) := ms.map fun m => (.ok m.1, m.2)

/-- The tokens end an object that has the given members to come. -/
def EndsMembers (ts : List Token) (ms : List (Except Fault String × Draft)) : Prop :=
  ∀ fuel rest, 3 * ts.length ≤ fuel → moreMembers fuel (ts ++ rest) = (ms, .closed, rest)

variable {ts us : List Token} {d : Draft} {ds : List Draft} {ms : List (Except Fault String × Draft)}

/-- A token that is a value by itself. -/
theorem makes_single {t : Token} (h : ∀ fuel rest, Draft.value (fuel + 1) (t :: rest) = (d, rest))
    (ht : t ≠ .closeArray) : Makes [t] d where
  value fuel rest hfuel := by
    obtain ⟨fuel, rfl⟩ := Nat.exists_eq_add_of_le' hfuel
    exact h (fuel + 2) rest
  starts := ⟨t, [], rfl, ht⟩

theorem makes_null : Makes [.null] .null := makes_single (fun _ _ => rfl) nofun

theorem makes_bool (b : Bool) : Makes [.bool b] (.bool b) := makes_single (fun _ _ => rfl) nofun

theorem makes_number (n : Numeral) : Makes [.number n] (.number n) := makes_single (fun _ _ => rfl) nofun

theorem makes_text (c : Except Fault String) : Makes [.text c] (.text c) := makes_single (fun _ _ => rfl) nofun

theorem endsItems_close : EndsItems [.closeArray] [] := by
  intro fuel rest hfuel
  obtain ⟨fuel, rfl⟩ := Nat.exists_eq_add_of_le' hfuel
  rfl

theorem EndsItems.cons (Hs : EndsItems us ds) (H : Makes ts d) :
    EndsItems (.comma :: (ts ++ us)) (d :: ds) := by
  intro fuel rest hfuel
  rw [List.length_cons, List.length_append] at hfuel
  obtain ⟨fuel, rfl⟩ := Nat.exists_eq_add_of_le' (show 1 ≤ fuel by omega)
  rw [List.cons_append, List.append_assoc, moreItems, H.value _ _ (by omega)]
  dsimp only
  rw [Hs _ _ (by omega)]

theorem makes_array_nil : Makes [.openArray, .closeArray] (.array [] .closed) where
  value fuel rest hfuel := by
    obtain ⟨fuel, rfl⟩ := Nat.exists_eq_add_of_le' hfuel
    rfl
  starts := ⟨_, _, rfl, nofun⟩

theorem Makes.array (H : Makes ts d) (Hs : EndsItems us ds) :
    Makes (.openArray :: (ts ++ us)) (.array (d :: ds) .closed) where
  value fuel rest hfuel := by
    rw [List.length_cons, List.length_append] at hfuel
    obtain ⟨fuel, rfl⟩ := Nat.exists_eq_add_of_le' (show 2 ≤ fuel by omega)
    obtain ⟨t, ts', hts, ht⟩ := H.starts
    have hfirst : firstItem (fuel + 1) (ts ++ (us ++ rest)) = (d :: ds, .closed, rest) := by
      rw [firstItem, H.value _ _ (by omega)]
      · dsimp only
        rw [Hs _ _ (by omega)]
      · rw [hts]
        exact List.cons_ne_nil _ _
      · rw [hts]
        exact fun _ h => ht (List.cons.inj h).1
    rw [List.cons_append, List.append_assoc, Draft.value, hfirst]
  starts := ⟨_, _, rfl, nofun⟩

theorem endsMembers_close : EndsMembers [.closeObject] [] := by
  intro fuel rest hfuel
  obtain ⟨fuel, rfl⟩ := Nat.exists_eq_add_of_le' hfuel
  rfl

/-- A member and the rest of its object. -/
theorem Makes.member (H : Makes ts d) (Hs : EndsMembers us ms) (key : Except Fault String) {fuel : Nat}
    (rest : List Token) (hfuel : 3 * (ts.length + us.length) < fuel) :
    Draft.member fuel (.text key :: .colon :: (ts ++ (us ++ rest))) = ((key, d) :: ms, .closed, rest) := by
  obtain ⟨fuel, rfl⟩ := Nat.exists_eq_add_of_le' (show 1 ≤ fuel by omega)
  rw [Draft.member, H.value _ _ (by omega)]
  dsimp only
  rw [Hs _ _ (by omega)]

theorem EndsMembers.cons (Hs : EndsMembers us ms) (H : Makes ts d) (key : Except Fault String) :
    EndsMembers (.comma :: .text key :: .colon :: (ts ++ us)) ((key, d) :: ms) := by
  intro fuel rest hfuel
  simp only [List.length_cons, List.length_append] at hfuel
  obtain ⟨fuel, rfl⟩ := Nat.exists_eq_add_of_le' (show 1 ≤ fuel by omega)
  simp only [List.cons_append, List.append_assoc]
  rw [moreMembers, H.member Hs _ _ (by omega)]

theorem makes_object_nil : Makes [.openObject, .closeObject] (.object [] .closed) where
  value fuel rest hfuel := by
    obtain ⟨fuel, rfl⟩ := Nat.exists_eq_add_of_le' hfuel
    rfl
  starts := ⟨_, _, rfl, nofun⟩

theorem Makes.object (H : Makes ts d) (Hs : EndsMembers us ms) (key : Except Fault String) :
    Makes (.openObject :: .text key :: .colon :: (ts ++ us)) (.object ((key, d) :: ms) .closed) where
  value fuel rest hfuel := by
    simp only [List.length_cons, List.length_append] at hfuel
    obtain ⟨fuel, rfl⟩ := Nat.exists_eq_add_of_le' (show 2 ≤ fuel by omega)
    simp only [List.cons_append, List.append_assoc]
    rw [Draft.value, firstMember, H.member Hs _ _ (by omega)]
    exact nofun
  starts := ⟨_, _, rfl, nofun⟩

end Draft

/-! ## Values from texts -/

/-- The text is cut into the tokens, whatever follows it that does not go on a number. -/
def Reads (w : List Char) (ts : List Token) : Prop :=
  ∀ (s : Source) us, s.Apart → s.Lexes us → Source.Lexes (w.map some ++ s) (ts ++ us)

/-- The text does not go on a number and is cut into the tokens, whatever follows it. -/
structure Closes (w : List Char) (ts : List Token) : Prop where
  apart : ∀ s : Source, Source.Apart (w.map some ++ s)
  lexes : ∀ (s : Source) us, s.Lexes us → Source.Lexes (w.map some ++ s) (ts ++ us)

/-- The text is read as the value, whatever follows it that does not go on a number. -/
def Spells (w : List Char) (d : Draft) : Prop := ∃ ts, Reads w ts ∧ Draft.Makes ts d

/-- The text is read as a member of an object. -/
def SpellsMember (w : List Char) (m : Except Fault String × Draft) : Prop :=
  ∃ ts, Reads w (.text m.1 :: .colon :: ts) ∧ Draft.Makes ts m.2

/-- The members of an object that are not left out. -/
def present {α : Type} (members : List (String × Option α)) : List (String × α) :=
  members.filterMap fun m => m.2.map fun v => (m.1, v)

variable {v w : List Char} {ws : List (List Char)} {ts us : List Token} {d : Draft} {ds : List Draft}
  {ms : List (Except Fault String × Draft)}

theorem Source.apart_nil : Source.Apart [] := fun _ _ h => nomatch h

theorem Source.apart_cons {c : Char} (hdigit : c.isDigit = false) (hpoint : c ≠ '.') (he : c ≠ 'e') (hE : c ≠ 'E')
    (s : Source) : Source.Apart (some c :: s) := by
  rintro _ _ ⟨⟩
  exact ⟨hdigit, hpoint, he, hE⟩

theorem Reads.lexes_append (H : Reads v ts) (H' : Closes w us) {s : Source} {vs : List Token} (hs : s.Lexes vs) :
    Source.Lexes ((v ++ w).map some ++ s) (ts ++ us ++ vs) := by
  rw [List.map_append, List.append_assoc, List.append_assoc]
  exact H _ _ (H'.apart s) (H'.lexes s vs hs)

theorem Reads.tokens_eq (H : Reads w ts) : tokens (w.map some) = ts := by
  have h := (H [] [] Source.apart_nil .nil).tokens_eq
  rwa [List.append_nil, List.append_nil] at h

namespace Closes

theorem closeArray : Closes [']'] [.closeArray] where
  apart s := Source.apart_cons rfl (by decide) (by decide) (by decide) s
  lexes _ _ H := H.closeArray

theorem closeObject : Closes ['\x7d'] [.closeObject] where
  apart s := Source.apart_cons rfl (by decide) (by decide) (by decide) s
  lexes _ _ H := H.closeObject

/-- A further part after a comma. -/
theorem comma (H' : Closes w us) (H : Reads v ts) : Closes (',' :: (v ++ w)) (.comma :: (ts ++ us)) where
  apart s := Source.apart_cons rfl (by decide) (by decide) (by decide) _
  lexes _ _ hs := (H.lexes_append H' hs).comma

end Closes

theorem commaSeparated_cons (w : List Char) (ws : List (List Char)) :
    commaSeparated (w :: ws) = w ++ ws.flatMap (',' :: ·) := by
  induction ws generalizing w with
  | nil => exact (List.append_nil w).symm
  | cons v ws ih =>
    change w ++ ',' :: commaSeparated (v :: ws) = _
    rw [ih, List.flatMap_cons, List.cons_append]

/-- The items after one of an array, and the bracket. -/
theorem exists_endsItems (H : List.Forall₂ Spells ws ds) :
    ∃ ts, Draft.EndsItems ts ds ∧ Closes (ws.flatMap (',' :: ·) ++ [']']) ts := by
  induction H with
  | nil => exact ⟨_, Draft.endsItems_close, .closeArray⟩
  | cons hw _ ih =>
    obtain ⟨us, hus, hmakes⟩ := hw
    obtain ⟨ts, hends, hts⟩ := ih
    refine ⟨_, hends.cons hmakes, ?_⟩
    rw [List.flatMap_cons, List.cons_append, List.cons_append, List.append_assoc]
    exact hts.comma hus

/-- The members after one of an object, and the bracket. -/
theorem exists_endsMembers (H : List.Forall₂ SpellsMember ws ms) :
    ∃ ts, Draft.EndsMembers ts ms ∧ Closes (ws.flatMap (',' :: ·) ++ ['\x7d']) ts := by
  induction H with
  | nil => exact ⟨_, Draft.endsMembers_close, .closeObject⟩
  | cons hw _ ih =>
    obtain ⟨us, hus, hmakes⟩ := hw
    obtain ⟨ts, hends, hts⟩ := ih
    refine ⟨_, hends.cons hmakes _, ?_⟩
    rw [List.flatMap_cons, List.cons_append, List.cons_append, List.append_assoc]
    exact hts.comma hus

/-- A value whose text does not need what follows to be apart. -/
theorem Draft.Makes.spells (hmakes : Draft.Makes ts d)
    (H : ∀ (s : Source) us, s.Lexes us → Source.Lexes (w.map some ++ s) (ts ++ us)) : Spells w d :=
  ⟨ts, fun s us _ hs => H s us hs, hmakes⟩

/-- Items with commas between them make up an array of what they spell. -/
theorem spells_writeArray (H : List.Forall₂ Spells ws ds) : Spells (writeArray ws) (.array ds .closed) := by
  cases H with
  | nil => exact Draft.makes_array_nil.spells fun _ _ hs => hs.closeArray.openArray
  | cons hw H =>
    obtain ⟨us, hus, hmakes⟩ := hw
    obtain ⟨ts, hends, hts⟩ := exists_endsItems H
    refine (hmakes.array hends).spells fun s vs hs => ?_
    rw [writeArray, commaSeparated_cons, List.cons_append, List.append_assoc]
    exact (hus.lexes_append hts hs).openArray

/-- Members with commas between them make up an object of what they spell. -/
theorem spells_object (H : List.Forall₂ SpellsMember ws ms) :
    Spells ('\x7b' :: commaSeparated ws ++ ['\x7d']) (.object ms .closed) := by
  cases H with
  | nil => exact Draft.makes_object_nil.spells fun _ _ hs => hs.closeObject.openObject
  | cons hw H =>
    obtain ⟨us, hus, hmakes⟩ := hw
    obtain ⟨ts, hends, hts⟩ := exists_endsMembers H
    refine (hmakes.object hends _).spells fun s vs hs => ?_
    rw [commaSeparated_cons, List.cons_append, List.append_assoc]
    exact (hus.lexes_append hts hs).openObject

/-! ## Written values -/

theorem spells_writeText (text : String) : Spells (writeText text) (.text (.ok text)) :=
  (Draft.makes_text _).spells fun _ _ hs => hs.text text

/-- Items that are written and read in the same way. -/
theorem forall₂_map {α β γ : Type} {R : β → γ → Prop} {f : α → β} {g : α → γ} (h : ∀ a, R (f a) (g a))
    (as : List α) : List.Forall₂ R (as.map f) (as.map g) := by
  rw [List.forall₂_map_left_iff, List.forall₂_map_right_iff]
  exact List.forall₂_same.2 fun a _ => h a

theorem Spells.member (H : Spells w d) (name : String) : SpellsMember (writeText name ++ ':' :: w) (.ok name, d) := by
  obtain ⟨ts, hts, hmakes⟩ := H
  refine ⟨ts, fun s us hs hlexes => ?_, hmakes⟩
  rw [List.map_append, List.append_assoc]
  exact (hts s us hs hlexes).colon.text name

theorem forall₂_present {members : List (String × Option (List Char))} {fields : List (String × Option Draft)}
    (H : List.Forall₂ (fun m f => m.1 = f.1 ∧ Option.Rel Spells m.2 f.2) members fields) :
    List.Forall₂ (fun m n => m.1 = n.1 ∧ Spells m.2 n.2) (present members) (present fields) := by
  refine List.rel_filterMap ?_ H
  rintro ⟨name, v⟩ ⟨_, d⟩ ⟨rfl, hrel⟩
  cases hrel with
  | none => exact .none
  | some h => exact .some ⟨rfl, h⟩

/-- Written members make up an object of what they spell; what is left out is not there. -/
theorem spells_writeObject {members : List (String × Option (List Char))} {fields : List (String × Option Draft)}
    (H : List.Forall₂ (fun m f => m.1 = f.1 ∧ Option.Rel Spells m.2 f.2) members fields) :
    Spells (writeObject members) (.object (Draft.named (present fields)) .closed) := by
  have hwritten : writeObject members =
      '\x7b' :: commaSeparated ((present members).map fun m => writeText m.1 ++ ':' :: m.2) ++ ['\x7d'] := by
    rw [present, List.map_filterMap]
    simp only [Option.map_map, Function.comp_def]
    rfl
  rw [hwritten]
  refine spells_object ?_
  rw [Draft.named, List.forall₂_map_left_iff, List.forall₂_map_right_iff]
  refine (forall₂_present H).imp ?_
  rintro ⟨name, w⟩ ⟨_, d⟩ ⟨rfl, h⟩
  exact h.member name

/-! ## Documents -/

/-- A document that spells a value is decoded as this value. -/
theorem Spells.decode_eq {α : Type} (H : Spells w d) (dec : Decoder α) : decode dec (w.map some) = dec d := by
  obtain ⟨ts, hts, hmakes⟩ := H
  have hdraft : Draft.ofTokens ts = (d, []) := by
    have h := hmakes.value (3 * ts.length + 3) [] (Nat.le_add_right ..)
    rwa [List.append_nil] at h
  rw [decode, hts.tokens_eq, hdraft]
  cases hd : dec d with
  | error e => simp [hd, bind, Except.bind]
  | ok v => simp [hd, bind, Except.bind]

theorem Spells.decode_toUTF8 {α : Type} (H : Spells w d) (dec : Decoder α) :
    decode dec (Source.ofBytes (String.ofList w).toUTF8) = dec d := by
  rw [Source.ofBytes_toUTF8, Source.ofText, String.toList_ofList, H.decode_eq]

end DeviceNaming.Json
