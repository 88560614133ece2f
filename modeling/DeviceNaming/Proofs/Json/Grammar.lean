import DeviceNaming.Proofs.Json.Drafts

/-!
# The grammar of documents

`Writes w d` says that the text `w` is a well-formed document of the value `d`: white space may stand around every
token, strings may be escaped in any way, and numbers may be of any size. Texts that differ in such things only write
the same value.

A written document is decoded as its value, whatever is decoded (`Writes.decode_toUTF8`), and passing over it meets no
fault (`Writes.skipFault?_eq_none`), even where a string in it spells no characters.
-/

namespace DeviceNaming.Json

/-- White space between tokens, or none. -/
abbrev Gap := { g : List Char // ∀ c ∈ g, isGap c = true }

/-- A member of an object as it is written, with the white space around its name. -/
structure MemberText where
  before : Gap
  name : List Piece
  after : Gap
  text : List Char
  value : Draft

namespace MemberText

def write (m : MemberText) : List Char := m.before.1 ++ (quoted m.name ++ (m.after.1 ++ ':' :: m.text))

/-- The member as it is read. -/
def read (m : MemberText) : Except Fault String × Draft := (content m.name, m.value)

end MemberText

/-- The text is a well-formed document of the value. -/
inductive Writes : List Char → Draft → Prop
  | nullWord : Writes ['n', 'u', 'l', 'l'] .null
  | trueWord : Writes ['t', 'r', 'u', 'e'] (.bool true)
  | falseWord : Writes ['f', 'a', 'l', 's', 'e'] (.bool false)
  | number {w : List Char} {n : Numeral} (H : NumeralText w n) : Writes w (.number n)
  | text (ps : List Piece) : Writes (quoted ps) (.text (content ps))
  | emptyArray (g : Gap) : Writes ('[' :: (g.1 ++ [']'])) (.array [] .closed)
  | array (items : List (List Char × Draft)) (H : ∀ i ∈ items, Writes i.1 i.2) :
      Writes (writeArray (items.map (·.1))) (.array (items.map (·.2)) .closed)
  | emptyObject (g : Gap) : Writes ('\x7b' :: (g.1 ++ ['\x7d'])) (.object [] .closed)
  | object (members : List MemberText) (H : ∀ m ∈ members, Writes m.text m.value) :
      Writes ('\x7b' :: commaSeparated (members.map MemberText.write) ++ ['\x7d'])
        (.object (members.map MemberText.read) .closed)
  | spaced (g g' : Gap) {w : List Char} {d : Draft} (H : Writes w d) : Writes (g.1 ++ (w ++ g'.1)) d

/-! ## White space -/

namespace Source

variable {s : Source} {ts : List Token}

theorem Lexes.gaps (g : Gap) (H : s.Lexes ts) : Lexes (g.1.map some ++ s) ts := by
  obtain ⟨g, hg⟩ := g
  induction g with
  | nil => exact H
  | cons c g ih =>
    obtain ⟨hc, hg⟩ := List.forall_mem_cons.1 hg
    exact (ih hg).gap hc

theorem Apart.gaps (g : Gap) (H : s.Apart) : Apart (g.1.map some ++ s) := by
  obtain ⟨_ | ⟨c, g⟩, hg⟩ := g
  · exact H
  · have hc : c = ' ' ∨ c = '\n' ∨ c = '\t' ∨ c = '\r' := by simpa [isGap, or_assoc] using hg c List.mem_cons_self
    rcases hc with rfl | rfl | rfl | rfl <;> exact apart_cons rfl (by decide) (by decide) (by decide) _

end Source

/-! ## Reading -/

variable {w : List Char} {d : Draft}

theorem Spells.spaced (H : Spells w d) (g g' : Gap) : Spells (g.1 ++ (w ++ g'.1)) d := by
  obtain ⟨ts, hts, hmakes⟩ := H
  refine ⟨ts, fun s us hs hlexes => ?_, hmakes⟩
  rw [List.map_append, List.append_assoc, List.map_append, List.append_assoc]
  exact (hts _ us (hs.gaps g') (hlexes.gaps g')).gaps g

theorem MemberText.spellsMember {m : MemberText} (H : Spells m.text m.value) : SpellsMember m.write m.read := by
  obtain ⟨ts, hts, hmakes⟩ := H
  refine ⟨ts, fun s us hs hlexes => ?_, hmakes⟩
  simp only [write, List.map_append, List.append_assoc, List.map_cons, List.cons_append]
  exact (((hts s us hs hlexes).colon.gaps m.after).quoted m.name).gaps m.before

/-- A written document is read as its value. -/
theorem Writes.spells (H : Writes w d) : Spells w d := by
  induction H with
  | nullWord => exact Draft.makes_null.spells fun _ _ hs => hs.nullWord
  | trueWord => exact (Draft.makes_bool true).spells fun _ _ hs => hs.trueWord
  | falseWord => exact (Draft.makes_bool false).spells fun _ _ hs => hs.falseWord
  | number H => exact ⟨_, fun _ _ hs hlexes => hlexes.number H hs, Draft.makes_number _⟩
  | text ps => exact (Draft.makes_text _).spells fun _ _ hs => hs.quoted ps
  | emptyArray g =>
    refine Draft.makes_array_nil.spells fun s us hs => ?_
    rw [List.map_cons, List.map_append, List.cons_append, List.append_assoc]
    exact (hs.closeArray.gaps g).openArray
  | array items _ ih =>
    refine spells_writeArray ?_
    rw [List.forall₂_map_left_iff, List.forall₂_map_right_iff]
    exact List.forall₂_same.2 ih
  | emptyObject g =>
    refine Draft.makes_object_nil.spells fun s us hs => ?_
    rw [List.map_cons, List.map_append, List.cons_append, List.append_assoc]
    exact (hs.closeObject.gaps g).openObject
  | object members _ ih =>
    refine spells_object ?_
    rw [List.forall₂_map_left_iff, List.forall₂_map_right_iff]
    exact List.forall₂_same.2 fun m hm => MemberText.spellsMember (ih m hm)
  | spaced g g' _ ih => exact ih.spaced g g'

theorem Writes.decode_toUTF8 {α : Type} {text : String} (H : Writes text.toList d) (dec : Decoder α) :
    decode dec (Source.ofBytes text.toUTF8) = dec d := by
  have h := H.spells.decode_toUTF8 dec
  rwa [String.ofList_toList] at h

/-! ## Passing over -/

namespace Draft

theorem skipItems_eq_none {ds : List Draft} (h : ∀ d ∈ ds, d.skipFault? = none) : skipItems ds .closed = none := by
  induction ds with
  | nil => rfl
  | cons d ds ih =>
    obtain ⟨hd, hds⟩ := List.forall_mem_cons.1 h
    rw [skipItems, hd]
    exact ih hds

theorem skipMembers_eq_none {ms : List (Except Fault String × Draft)} (h : ∀ m ∈ ms, m.2.skipFault? = none) :
    skipMembers ms .closed = none := by
  induction ms with
  | nil => rfl
  | cons m ms ih =>
    obtain ⟨hm, hms⟩ := List.forall_mem_cons.1 h
    rw [skipMembers, hm]
    exact ih hms

end Draft

/-- Passing over a written document meets no fault. -/
theorem Writes.skipFault?_eq_none (H : Writes w d) : d.skipFault? = none := by
  induction H with
  | nullWord | trueWord | falseWord | number | text | emptyArray | emptyObject => rfl
  | array items _ ih =>
    rw [Draft.skipFault?]
    exact Draft.skipItems_eq_none (List.forall_mem_map.2 ih)
  | object members _ ih =>
    rw [Draft.skipFault?]
    exact Draft.skipMembers_eq_none (List.forall_mem_map.2 ih)
  | spaced _ _ _ ih => exact ih

end DeviceNaming.Json
