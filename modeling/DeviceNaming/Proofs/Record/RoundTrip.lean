import DeviceNaming.Proofs.Json.Records
import DeviceNaming.Record.Area
import DeviceNaming.Record.Entity

/-!
# Records are read back

An area record that was written is read back as it was, and so is an entity record unless the kind of one of its names
is kept by the tag of another, known kind. Such a kind is read back as the known one, and written again the record is
the same document (`records_read_back`).

A written record spells an object of its fields (`AreaRecord.spells_write`, `EntityRecord.spells_write`), and each
field is decoded to the value that it was written for.
-/

namespace DeviceNaming

/-! ## Kinds of names -/

namespace VariantTag

/-- The tags of the known kinds. -/
def knownTags : List String := ["primary_name", "user_renamed", "alias", "friendly_name"]

/-- The tag of the kind does not name another kind. -/
def Proper (k : VariantTag) : Prop := ∀ t, k = other t → t ∉ knownTags

/-- The kind, or the known kind that its tag names. -/
def settled : VariantTag → VariantTag
  | other "primary_name" => primaryName
  | other "user_renamed" => userRenamed
  | other "alias" => aliasName
  | other "friendly_name" => friendlyName
  | k => k

theorem proper_iff {k : VariantTag} : k.Proper ↔ k.settled = k := by
  constructor
  · intro H
    unfold settled
    split
    · exact absurd (by decide) (H _ rfl)
    · exact absurd (by decide) (H _ rfl)
    · exact absurd (by decide) (H _ rfl)
    · exact absurd (by decide) (H _ rfl)
    · rfl
  · rintro hsettled t rfl ht
    simp only [knownTags, List.mem_cons, List.not_mem_nil, or_false] at ht
    rcases ht with rfl | rfl | rfl | rfl <;> cases hsettled

instance (k : VariantTag) : Decidable k.Proper := decidable_of_iff _ proper_iff.symm

theorem ofTag_eq_other {t : String} (ht : t ∉ knownTags) : ofTag t = other t := by
  simp only [knownTags, List.mem_cons, List.not_mem_nil, or_false, not_or] at ht
  obtain ⟨hprimary, hrenamed, halias, hfriendly⟩ := ht
  rw [ofTag, if_neg hprimary, if_neg hrenamed, if_neg halias, if_neg hfriendly]

theorem ofTag_tag (k : VariantTag) : ofTag k.tag = k.settled := by
  cases k with
  | other t =>
    by_cases ht : t ∈ knownTags
    · simp only [knownTags, List.mem_cons, List.not_mem_nil, or_false] at ht
      rcases ht with rfl | rfl | rfl | rfl <;> rfl
    · have hproper : (other t).Proper := by
        rintro _ ⟨⟩
        exact ht
      exact (ofTag_eq_other ht).trans (proper_iff.1 hproper).symm
  | _ => rfl

theorem tag_settled (k : VariantTag) : k.settled.tag = k.tag := by
  rw [← ofTag_tag, tag_ofTag]

/-- A kind that was told by its tag is a proper one. -/
theorem proper_ofTag (t : String) : (ofTag t).Proper := by
  rw [proper_iff, ← ofTag_tag, tag_ofTag]

end VariantTag

open Json

/-! ## Fields of texts -/

theorem rel_map_writeText (v : Option String) :
    Option.Rel Spells (v.map writeText) (v.map fun s => .text (.ok s)) := by
  cases v with
  | none => exact .none
  | some s => exact .some (spells_writeText s)

theorem check_text (name s : String) :
    ∀ d ∈ some (Draft.text (.ok s)), (FieldCheck.of name Decoder.text).check d = .ok () :=
  FieldCheck.check_of_eq (show Decoder.text (.text (.ok s)) = .ok s from rfl) name

/-- What a field of a text that may be left out holds passes its check. -/
theorem check_nullable_text (name : String) (v : Option String) :
    ∀ d ∈ v.map (fun s => Draft.text (.ok s)),
      (FieldCheck.of name (Decoder.nullable Decoder.text)).check d = .ok () := by
  cases v with
  | none => exact fun _ hd => absurd hd (Option.not_mem_none _)
  | some s =>
    have hread : Decoder.nullable Decoder.text (.text (.ok s)) = .ok (some s) := rfl
    exact FieldCheck.check_of_eq hread name

/-- A text that may be left out is decoded to what it was written for. -/
theorem elim_nullable_text (v : Option String) :
    (v.map fun s => Draft.text (.ok s)).elim (.ok none) (Decoder.nullable Decoder.text) = .ok v := by
  cases v <;> rfl

/-! ## Area records -/

namespace AreaRecord

/-- The fields of a record as they are read. -/
def fields (r : AreaRecord) : List (String × Option Draft) := [
  ("area_id", some (.text (.ok r.areaId))),
  ("name", some (.text (.ok r.name))),
  ("aliases", some (.array (r.aliases.map fun s => .text (.ok s)) .closed)),
  ("parent_area_id", r.parentId.map fun s => .text (.ok s)),
  ("parent_area_name", r.parentName.map fun s => .text (.ok s))]

theorem spells_write (r : AreaRecord) : Spells r.write (.object (Draft.named (present r.fields)) .closed) :=
  spells_writeObject <|
    .cons ⟨rfl, .some (spells_writeText _)⟩ <| .cons ⟨rfl, .some (spells_writeText _)⟩ <|
    .cons ⟨rfl, .some (spells_writeArray (forall₂_map spells_writeText r.aliases))⟩ <|
    .cons ⟨rfl, rel_map_writeText _⟩ <| .cons ⟨rfl, rel_map_writeText _⟩ .nil

theorem decode_aliases (r : AreaRecord) :
    Decoder.list Decoder.text (.array (r.aliases.map fun s => .text (.ok s)) .closed) = .ok r.aliases := by
  refine Decoder.list_eq ?_
  rw [List.forall₂_map_left_iff]
  exact List.forall₂_same.2 fun _ _ => rfl

theorem nodup_names : (layout.fields.map (·.name)).Nodup := by decide

theorem admits_fields (r : AreaRecord) : layout.Admits r.fields :=
  .cons ⟨rfl, check_text _ _⟩ <| .cons ⟨rfl, check_text _ _⟩ <|
    .cons ⟨rfl, FieldCheck.check_of_eq r.decode_aliases _⟩ <| .cons ⟨rfl, check_nullable_text _ _⟩ <|
    .cons ⟨rfl, check_nullable_text _ _⟩ .nil

theorem ofFields_present (r : AreaRecord) : ofFields (.named (present r.fields)) = .ok r := by
  have hnames : (r.fields.map (·.1)).Nodup := r.admits_fields.map_name ▸ nodup_names
  rw [ofFields, Fields.required_present hnames rfl, Fields.required_present hnames rfl,
    Fields.optional_present hnames rfl, Fields.optional_present hnames rfl, Fields.optional_present hnames rfl,
    Option.elim_some, decode_aliases, elim_nullable_text, elim_nullable_text]
  rfl

/-- A written record is read back. -/
theorem ofBytes?_toBytes (r : AreaRecord) : ofBytes? r.toBytes = .ok r := by
  rw [ofBytes?, toBytes, encode, r.spells_write.decode_toUTF8, decoder,
    Decoder.record_present nodup_names r.admits_fields, r.ofFields_present]

end AreaRecord

/-! ## Entity records -/

namespace EntityRecord

/-- The record with the kind of each name settled. -/
def settled (r : EntityRecord) : EntityRecord := { r with names := r.names.map fun n => (n.1.settled, n.2) }

/-- A name as it is read. -/
def nameDraft (n : VariantTag × String) : Draft := .array [.text (.ok n.1.tag), .text (.ok n.2)] .closed

/-- The fields of a record as they are read. -/
def fields (r : EntityRecord) : List (String × Option Draft) := [
  ("entity_id", some (.text (.ok r.entityId))),
  ("domain", some (.text (.ok r.domain))),
  ("device_id", r.deviceId.map fun s => .text (.ok s)),
  ("area_id", r.areaId.map fun s => .text (.ok s)),
  ("area_name", r.areaName.map fun s => .text (.ok s)),
  ("name_variants", some (.array (r.names.map nameDraft) .closed))]

theorem spells_name (n : VariantTag × String) :
    Spells (writeArray [writeText n.1.tag, writeText n.2]) (nameDraft n) :=
  spells_writeArray (.cons (spells_writeText _) <| .cons (spells_writeText _) .nil)

theorem spells_write (r : EntityRecord) : Spells r.write (.object (Draft.named (present r.fields)) .closed) :=
  spells_writeObject <|
    .cons ⟨rfl, .some (spells_writeText _)⟩ <| .cons ⟨rfl, .some (spells_writeText _)⟩ <|
    .cons ⟨rfl, rel_map_writeText _⟩ <| .cons ⟨rfl, rel_map_writeText _⟩ <| .cons ⟨rfl, rel_map_writeText _⟩ <|
    .cons ⟨rfl, .some (spells_writeArray (forall₂_map spells_name r.names))⟩ .nil

theorem nameDecoder_nameDraft (n : VariantTag × String) :
    nameDecoder (nameDraft n) = .ok (n.1.settled, n.2) :=
  Decoder.pair_eq (congrArg Except.ok n.1.ofTag_tag) rfl

theorem decode_names (r : EntityRecord) :
    Decoder.list nameDecoder (.array (r.names.map nameDraft) .closed) = .ok r.settled.names :=
  Decoder.list_eq (forall₂_map (R := fun d n => nameDecoder d = .ok n) nameDecoder_nameDraft r.names)

theorem nodup_names : (layout.fields.map (·.name)).Nodup := by decide

theorem admits_fields (r : EntityRecord) : layout.Admits r.fields :=
  .cons ⟨rfl, check_text _ _⟩ <| .cons ⟨rfl, check_text _ _⟩ <|
    .cons ⟨rfl, check_nullable_text _ _⟩ <| .cons ⟨rfl, check_nullable_text _ _⟩ <|
    .cons ⟨rfl, check_nullable_text _ _⟩ <| .cons ⟨rfl, FieldCheck.check_of_eq r.decode_names _⟩ .nil

theorem ofFields_present (r : EntityRecord) : ofFields (.named (present r.fields)) = .ok r.settled := by
  have hnames : (r.fields.map (·.1)).Nodup := r.admits_fields.map_name ▸ nodup_names
  rw [ofFields, Fields.required_present hnames rfl, Fields.required_present hnames rfl,
    Fields.optional_present hnames rfl, Fields.optional_present hnames rfl, Fields.optional_present hnames rfl,
    Fields.optional_present hnames rfl, Option.elim_some, decode_names, elim_nullable_text, elim_nullable_text,
    elim_nullable_text]
  rfl

/-- A written record is read back, with the kind of each name settled. -/
theorem ofBytes?_toBytes (r : EntityRecord) : ofBytes? r.toBytes = .ok r.settled := by
  rw [ofBytes?, toBytes, encode, r.spells_write.decode_toUTF8, decoder,
    Decoder.record_present nodup_names r.admits_fields, r.ofFields_present]

theorem settled_eq {r : EntityRecord} (H : ∀ n ∈ r.names, n.1.Proper) : r.settled = r := by
  have hnames : r.names.map (fun n => (n.1.settled, n.2)) = r.names := by
    conv_rhs => rw [← List.map_id r.names]
    exact List.map_congr_left fun n hn => Prod.ext (VariantTag.proper_iff.1 (H n hn)) rfl
  rw [settled, hnames]

theorem toBytes_settled (r : EntityRecord) : r.settled.toBytes = r.toBytes := by
  have hnames : r.settled.names.map (fun n => writeArray [writeText n.1.tag, writeText n.2]) =
      r.names.map fun n => writeArray [writeText n.1.tag, writeText n.2] := by
    rw [settled, List.map_map]
    exact List.map_congr_left fun n _ => by rw [Function.comp_apply, n.1.tag_settled]
  rw [toBytes, toBytes, encode, encode, write, write, hnames]
  rfl

end EntityRecord

/-! ## Round trips -/

/-- Every area record is read back as it was written, and so is every entity record whose names are of proper kinds, as
all kinds are that were told by a tag. Any other entity record comes back with these kinds settled, and is written
as before. -/
theorem records_read_back :
    (∀ r : AreaRecord, AreaRecord.ofBytes? r.toBytes = .ok r) ∧
      (∀ r : EntityRecord, (∀ n ∈ r.names, n.1.Proper) → EntityRecord.ofBytes? r.toBytes = .ok r) ∧
      (∀ tag, (VariantTag.ofTag tag).Proper) ∧
      ∀ r : EntityRecord, EntityRecord.ofBytes? r.toBytes = .ok r.settled ∧ r.settled.toBytes = r.toBytes := by
  refine ⟨AreaRecord.ofBytes?_toBytes, fun r hr => ?_, VariantTag.proper_ofTag, fun r =>
    ⟨r.ofBytes?_toBytes, r.toBytes_settled⟩⟩
  rw [r.ofBytes?_toBytes, EntityRecord.settled_eq hr]

/-- A record with an empty text where one may be left out, with quotes, control characters and characters outside the
basic plane, and with a kind of its own. -/
def EntityRecord.awkward : EntityRecord :=
  ⟨"light.\"\\\x01", "", some "", none, some "Büro\t/ 💡", [(.other "nick", "\x1f\n"), (.aliasName, " ")]⟩

/-- A record with a name whose kind is kept by the tag of a known one. -/
def EntityRecord.misnamed : EntityRecord := ⟨"light.hall", "light", none, none, none, [(.other "alias", "Hall")]⟩

theorem records_read_back_awkward :
    EntityRecord.awkward.encode =
        "\x7b\"entity_id\":\"light.\\\"\\\\\\u0001\",\"domain\":\"\",\"device_id\":\"\"," ++
          "\"area_name\":\"Büro\\t/ 💡\"," ++
          "\"name_variants\":[[\"nick\",\"\\u001f\\n\"],[\"alias\",\" \"]]\x7d" ∧
      (∀ n ∈ EntityRecord.awkward.names, n.1.Proper) ∧
      EntityRecord.ofBytes? EntityRecord.awkward.toBytes = .ok .awkward ∧
      EntityRecord.ofBytes? EntityRecord.misnamed.toBytes =
        .ok ⟨"light.hall", "light", none, none, none, [(.aliasName, "Hall")]⟩ := by
  have hproper : ∀ n ∈ EntityRecord.awkward.names, n.1.Proper := by decide
  exact ⟨by decide +kernel, hproper, records_read_back.2.1 _ hproper, (records_read_back.2.2.2 .misnamed).1⟩

end DeviceNaming
