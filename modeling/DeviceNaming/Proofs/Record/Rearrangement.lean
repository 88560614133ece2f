import DeviceNaming.Proofs.Json.Rearrangement
import DeviceNaming.Record.Area
import DeviceNaming.Record.Entity

/-!
# Records among other members

Whatever text a record is decoded from, the same record is decoded from every text that has its members in another
order, with members added or left out that are no fields of the record, and with other white space
(`records_rearranged`). So records with members of a later kind can still be read.
-/

namespace DeviceNaming

open Json

theorem EntityRecord.byName_ofFields : Fields.ByName ofFields := by
  intro rs rs' h
  simp only [ofFields, Fields.required_named, Fields.optional_named, h]

theorem AreaRecord.byName_ofFields : Fields.ByName ofFields := by
  intro rs rs' h
  simp only [ofFields, Fields.required_named, Fields.optional_named, h]

/-- If one text writes an object and another writes it with its members rearranged, each with white space where it
likes, then an entity record or an area record that is decoded from the one is decoded from the other. -/
theorem records_rearranged {text text' : String} {ms ms' : List (Except Fault String × Draft)}
    (H : Writes text.toList (.object ms .closed)) (H' : Writes text'.toList (.object ms' .closed)) :
    (EntityRecord.layout.Rearranged ms ms' →
        ∀ r, EntityRecord.ofBytes? text.toUTF8 = .ok r → EntityRecord.ofBytes? text'.toUTF8 = .ok r) ∧
      (AreaRecord.layout.Rearranged ms ms' →
        ∀ r, AreaRecord.ofBytes? text.toUTF8 = .ok r → AreaRecord.ofBytes? text'.toUTF8 = .ok r) := by
  constructor
  · intro hms r hr
    exact hms.decode_eq_ok H H' EntityRecord.byName_ofFields hr
  · intro hms r hr
    exact hms.decode_eq_ok H H' AreaRecord.byName_ofFields hr

/-! ## A lamp that is told of twice -/

namespace HallLamp

/-- A text in which nothing has to be escaped, as it stands in a string. -/
def asItIs (s : String) (h : s.toList.all (fun c => 0x20 ≤ c.toNat ∧ c ≠ '"' ∧ c ≠ '\\') = true) : List Piece :=
  s.toList.pmap .plain fun c hc => of_decide_eq_true (List.all_eq_true.1 h c hc)

def noGap : Gap := ⟨[], nofun⟩

def gap : Gap := ⟨['\n', ' '], List.all_eq_true.1 rfl⟩

def holding (name value : List Piece) : MemberText := ⟨noGap, name, noGap, quoted value, .text (content value)⟩

def entityId : List Piece := asItIs "entity_id" rfl

def lamp : MemberText := holding entityId (asItIs "light.hall" rfl)

def domain : MemberText := holding (asItIs "domain" rfl) (asItIs "light" rfl)

def note : MemberText := ⟨noGap, asItIs "note" rfl, noGap, ['n', 'u', 'l', 'l'], .null⟩

def area : MemberText := holding (asItIs "area_id" rfl) (asItIs "hall" rfl)

def name : MemberText := holding (asItIs "name" rfl) (asItIs "Hall" rfl)

/-- What is told at first, of the lamp and of its area. -/
def first : List MemberText := [lamp, domain, note, area, name]

/-- Two members named as a field is. One is no text, and the text of the other spells no characters. -/
def nested : List MemberText := [
  ⟨noGap, entityId, noGap, ['1', 'E', '+', '5'], .number ⟨false, [1], none, some (false, [5])⟩⟩,
  holding entityId [.unit ⟨⟨'d', rfl⟩, ⟨'8', rfl⟩, ⟨'0', rfl⟩, ⟨'0', rfl⟩⟩]]

def nestedText : List Char := '\x7b' :: commaSeparated (nested.map MemberText.write) ++ ['\x7d']

/-- A member named as a field is but for a space. -/
def other : MemberText :=
  ⟨noGap, asItIs "domain " rfl, noGap, writeArray [nestedText],
    .array [.object (nested.map MemberText.read) .closed] .closed⟩

/-- The domain, with white space and with a letter of its name escaped. -/
def spacedDomain : MemberText :=
  ⟨gap, .unit ⟨⟨'0', rfl⟩, ⟨'0', rfl⟩, ⟨'6', rfl⟩, ⟨'4', rfl⟩⟩ :: asItIs "omain" rfl, gap,
    domain.text ++ gap.1, domain.value⟩

/-- What is told later. -/
def later : List MemberText := [name, area, other, spacedDomain, lamp]

def firstText : String :=
  "\x7b\"entity_id\":\"light.hall\",\"domain\":\"light\",\"note\":null,\"area_id\":\"hall\",\"name\":\"Hall\"\x7d"

def laterText : String :=
  "\x7b\"name\":\"Hall\",\"area_id\":\"hall\",\"domain \":[\x7b\"entity_id\":1E+5,\"entity_id\":\"\\ud800\"\x7d]," ++
    "\n \"\\u0064omain\"\n :\"light\"\n ,\"entity_id\":\"light.hall\"\x7d\n "

theorem writes_first : Writes firstText.toList (.object (first.map MemberText.read) .closed) := by
  have htext : firstText = String.ofList ('\x7b' :: commaSeparated (first.map MemberText.write) ++ ['\x7d']) := by rfl
  rw [htext, String.toList_ofList]
  refine .object first ?_
  simp only [first, List.forall_mem_cons]
  exact ⟨.text _, .text _, .nullWord, .text _, .text _, nofun⟩

theorem writes_nested : ∀ m ∈ nested, Writes m.text m.value := by
  have hdigit : IsDigits ['1'] := ⟨List.cons_ne_nil _ _, List.all_eq_true.1 rfl⟩
  have hexponent : ExponentText ['E', '+', '5'] (some (false, digitsOf ['5'])) :=
    .plus (.inr rfl) ⟨List.cons_ne_nil _ _, List.all_eq_true.1 rfl⟩
  simp only [nested, List.forall_mem_cons]
  exact ⟨.number (.plain (.mk hdigit (by decide) .absent hexponent)), .text _, nofun⟩

theorem writes_other : Writes other.text other.value :=
  .array [(nestedText, _)] (List.forall_mem_singleton.2 (.object nested writes_nested))

theorem writes_later : Writes laterText.toList (.object (later.map MemberText.read) .closed) := by
  have htext : laterText = String.ofList ('\x7b' :: commaSeparated (later.map MemberText.write) ++ ['\x7d'] ++ gap.1) := by
    decide +kernel
  rw [htext, String.toList_ofList]
  refine .spaced noGap gap (.object later ?_)
  simp only [later, List.forall_mem_cons]
  exact ⟨.text _, .text _, writes_other, .spaced noGap gap (.text _), .text _, nofun⟩

/-- The note is left out, the members are reversed and the other one is added. -/
theorem rearranged {l : Layout} (hnote : "note" ∉ l.fields.map (·.name)) (hother : "domain " ∉ l.fields.map (·.name)) :
    l.Rearranged (first.map MemberText.read) (later.map MemberText.read) := by
  have hnoted : first.Perm (note :: [lamp, domain, area, name]) :=
    show ([lamp, domain] ++ note :: [area, name]).Perm _ from List.perm_middle
  have hleft : l.Rearranged (first.map MemberText.read) ([lamp, domain, area, name].map MemberText.read) :=
    .trans (.perm (hnoted.map _)) (.leaveOut hnote .null _)
  have hreversed : [lamp, domain, area, name].Perm [name, area, domain, lamp] := (List.reverse_perm _).symm
  have hdomain : domain.read = spacedDomain.read := rfl
  have hadded : l.Rearranged ([name, area, domain, lamp].map MemberText.read)
      ((other :: [name, area, spacedDomain, lamp]).map MemberText.read) := by
    simp only [List.map_cons, hdomain]
    exact .add hother writes_other _
  have hlater : later.Perm (other :: [name, area, spacedDomain, lamp]) :=
    show ([name, area] ++ other :: [spacedDomain, lamp]).Perm _ from List.perm_middle
  exact hleft.trans <| .trans (.perm (hreversed.map _)) <| .trans hadded <| .perm (hlater.symm.map _)

/-- What both texts tell of the lamp. -/
def entityRecord : EntityRecord := ⟨"light.hall", "light", none, some "hall", none, []⟩

/-- What both texts tell of the area. -/
def areaRecord : AreaRecord := ⟨"hall", "Hall", [], none, none⟩

end HallLamp

open HallLamp in
theorem records_rearranged_hall_lamp :
    Writes firstText.toList (.object (first.map MemberText.read) .closed) ∧
      Writes laterText.toList (.object (later.map MemberText.read) .closed) ∧
      EntityRecord.layout.Rearranged (first.map MemberText.read) (later.map MemberText.read) ∧
      EntityRecord.ofBytes? firstText.toUTF8 = .ok entityRecord ∧
      EntityRecord.ofBytes? laterText.toUTF8 = .ok entityRecord ∧
      AreaRecord.layout.Rearranged (first.map MemberText.read) (later.map MemberText.read) ∧
      AreaRecord.ofBytes? firstText.toUTF8 = .ok areaRecord ∧
      AreaRecord.ofBytes? laterText.toUTF8 = .ok areaRecord := by
  obtain ⟨hentities, hareas⟩ := records_rearranged writes_first writes_later
  have hentity : EntityRecord.ofBytes? firstText.toUTF8 = .ok entityRecord := by
    rw [EntityRecord.ofBytes?, writes_first.decode_toUTF8]
    rfl
  have harea : AreaRecord.ofBytes? firstText.toUTF8 = .ok areaRecord := by
    rw [AreaRecord.ofBytes?, writes_first.decode_toUTF8]
    rfl
  have hlayout : EntityRecord.layout.Rearranged (first.map MemberText.read) (later.map MemberText.read) :=
    rearranged (by decide) (by decide)
  have hlayout' : AreaRecord.layout.Rearranged (first.map MemberText.read) (later.map MemberText.read) :=
    rearranged (by decide) (by decide)
  exact ⟨writes_first, writes_later, hlayout, hentity, hentities hlayout _ hentity, hlayout', harea,
    hareas hlayout' _ harea⟩

end DeviceNaming
