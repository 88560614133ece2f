import DeviceNaming.Json.Fields
import DeviceNaming.Order.Roster
import DeviceNaming.Proofs.Json.Drafts
import Mathlib.Data.List.Basic
import Mathlib.Data.List.Nodup

/-!
# Decoding what was written

Lists, pairs and records are decoded if their parts are. The members of an object are passed if each is well formed and
no field comes twice, and what is left of them are the fields (`Layout.checkMembers_eq_ok_iff`).

A record is written as an object of its fields in their order, some of which may be left out. Such an object passes as
long as each field that is there does (`Decoder.record_present`), and then a field is found under its name
(`Fields.required_present`, `Fields.optional_present`).
-/

namespace DeviceNaming.Json

variable {α β : Type}

/-! ## Members that may be left out -/

theorem mem_present {fields : List (String × Option α)} {m : String × α} :
    m ∈ present fields ↔ (m.1, some m.2) ∈ fields := by
  obtain ⟨name, v⟩ := m
  simp [present]

theorem map_fst_present_sublist (fields : List (String × Option α)) :
    ((present fields).map (·.1)).Sublist (fields.map (·.1)) := by
  induction fields with
  | nil => exact .slnil
  | cons f fields ih =>
    obtain ⟨name, _ | v⟩ := f
    · exact ih.cons _
    · exact ih.cons_cons _

/-- A member is found under its name, unless it is left out. -/
theorem lookup_present {fields : List (String × Option α)} (hnames : (fields.map (·.1)).Nodup) (name : String) :
    (present fields).lookup name = (fields.lookup name).join := by
  induction fields with
  | nil => rfl
  | cons f fields ih =>
    obtain ⟨key, v⟩ := f
    obtain ⟨hkey, hnames⟩ := List.nodup_cons.1 hnames
    have ih := ih hnames
    rw [Roster.lookup_cons_ite]
    cases v with
    | some v =>
      change ((key, v) :: present fields).lookup name = _
      rw [Roster.lookup_cons_ite]
      split
      · rfl
      · exact ih
    | none =>
      change (present fields).lookup name = _
      split
      · rename_i hname
        -- no other member has this name
        refine List.lookup_eq_none_iff.2 fun m hm => bne_iff_ne.2 fun h => hkey ?_
        exact (map_fst_present_sublist fields).subset (List.mem_map.2 ⟨m, hm, h.symm.trans hname⟩)
      · exact ih

/-! ## Lists and pairs -/

namespace Decoder

theorem list_eq {dec : Decoder α} {ds : List Draft} {vs : List α}
    (H : List.Forall₂ (fun d v => dec d = .ok v) ds vs) : list dec (.array ds .closed) = .ok vs := by
  rw [list]
  induction H with
  | nil => rfl
  | cons h _ ih =>
    rw [items, h, ih]
    rfl

theorem pair_eq {first : Decoder α} {second : Decoder β} {x y : Draft} {a : α} {b : β} (hx : first x = .ok a)
    (hy : second y = .ok b) : pair first second (.array [x, y] .closed) = .ok (a, b) := by
  simp only [pair, itemAt, List.getElem?_cons_zero, List.getElem?_cons_succ, bind, Except.bind, hx, hy]
  rfl

end Decoder

/-! ## Records -/

theorem FieldCheck.check_of_eq {dec : Decoder α} {x : Draft} {v : α} (h : dec x = .ok v) (name : String) :
    ∀ d ∈ some x, (FieldCheck.of name dec).check d = .ok () := by
  rintro d ⟨⟩
  exact congrArg (Except.map fun _ => ()) h

namespace Layout

variable {l : Layout}

theorem field?_name (hnames : (l.fields.map (·.name)).Nodup) {f : FieldCheck} (hf : f ∈ l.fields) :
    l.field? f.name = some f := by
  rw [field?]
  cases h : l.fields.find? fun g => g.name == f.name with
  | none => exact absurd (beq_self_eq_true f.name) (List.find?_eq_none.1 h f hf)
  | some g =>
    have hname : g.name = f.name := by simpa using List.find?_some h
    rw [List.inj_on_of_nodup_map hnames (List.mem_of_find?_eq_some h) hf hname]

/-- The member has a name, and its value passes the check of its field or, where it is no field, is well formed. -/
def Passes (l : Layout) (m : Except Fault String × Draft) : Prop :=
  ∃ name, m.1 = .ok name ∧ (l.field? name).elim (m.2.skipFault? = none) fun f => f.check m.2 = .ok ()

/-- The member, if it is a field of the record. -/
def known? (l : Layout) : Except Fault String × Draft → Option (String × Draft)
  | (.ok name, d) => if (l.field? name).isSome then some (name, d) else none
  | (.error _, _) => none

/-- The members that are fields of the record. -/
def known (l : Layout) (ms : List (Except Fault String × Draft)) : List (String × Draft) := ms.filterMap l.known?

theorem known_cons_of_eq_none {name : String} (h : l.field? name = none) (d : Draft)
    (ms : List (Except Fault String × Draft)) : l.known ((.ok name, d) :: ms) = l.known ms :=
  List.filterMap_cons_none (by rw [known?, h]; rfl)

theorem known_cons_of_eq_some {name : String} {f : FieldCheck} (h : l.field? name = some f) (d : Draft)
    (ms : List (Except Fault String × Draft)) : l.known ((.ok name, d) :: ms) = (name, d) :: l.known ms :=
  List.filterMap_cons_some (by rw [known?, h]; rfl)

theorem passes_of_eq_none {name : String} (h : l.field? name = none) (d : Draft) :
    l.Passes (.ok name, d) ↔ d.skipFault? = none := by
  constructor
  · rintro ⟨_, ⟨⟩, hd⟩
    rwa [h] at hd
  · exact fun hd => ⟨name, rfl, by rwa [h]⟩

theorem passes_of_eq_some {name : String} {f : FieldCheck} (h : l.field? name = some f) (d : Draft) :
    l.Passes (.ok name, d) ↔ f.check d = .ok () := by
  constructor
  · rintro ⟨_, ⟨⟩, hd⟩
    rwa [h] at hd
  · exact fun hd => ⟨name, rfl, by rwa [h]⟩

/-- The names of the members are distinct and none of those that were met. -/
structure Fresh (seen : List String) (rs : List (String × Draft)) : Prop where
  nodup : (rs.map (·.1)).Nodup
  unseen : ∀ r ∈ rs, r.1 ∉ seen

theorem fresh_cons_iff {seen : List String} {name : String} {d : Draft} {rs : List (String × Draft)} :
    Fresh seen ((name, d) :: rs) ↔ name ∉ seen ∧ Fresh (name :: seen) rs := by
  constructor
  · rintro ⟨hnodup, hunseen⟩
    obtain ⟨hname, hnodup⟩ := List.nodup_cons.1 hnodup
    obtain ⟨hnew, hunseen⟩ := List.forall_mem_cons.1 hunseen
    refine ⟨hnew, hnodup, fun r hr hmem => ?_⟩
    rcases List.mem_cons.1 hmem with heq | hmem
    · exact hname (heq ▸ List.mem_map.2 ⟨r, hr, rfl⟩)
    · exact hunseen r hr hmem
  · rintro ⟨hnew, hnodup, hunseen⟩
    have hname : name ∉ rs.map (·.1) := by
      intro hmem
      obtain ⟨r, hr, rfl⟩ := List.mem_map.1 hmem
      exact hunseen r hr List.mem_cons_self
    refine ⟨List.nodup_cons.2 ⟨hname, hnodup⟩, List.forall_mem_cons.2 ⟨hnew, fun r hr hmem => ?_⟩⟩
    exact hunseen r hr (List.mem_cons_of_mem _ hmem)

/-- Members are passed if each of them is and no field comes twice, and only then. -/
theorem checkMembers_eq_ok_iff {ms : List (Except Fault String × Draft)} {seen : List String}
    {rs : List (String × Draft)} :
    l.checkMembers seen ms .closed = .ok rs ↔
      (∀ m ∈ ms, l.Passes m) ∧ l.known ms = rs ∧ Fresh seen rs := by
  induction ms generalizing seen rs with
  | nil =>
    constructor
    · rintro ⟨⟩
      exact ⟨fun _ hm => absurd hm List.not_mem_nil, rfl, List.nodup_nil, fun _ hr => absurd hr List.not_mem_nil⟩
    · rintro ⟨-, rfl, -⟩
      rfl
  | cons m ms ih =>
    rw [List.forall_mem_cons]
    obtain ⟨f | name, d⟩ := m
    · exact iff_of_false nofun fun ⟨⟨⟨_, hname, _⟩, _⟩, _⟩ => nomatch hname
    cases hfield : l.field? name with
    | none =>
      rw [checkMembers, hfield, passes_of_eq_none hfield, known_cons_of_eq_none hfield]
      dsimp only
      cases hskip : d.skipFault? with
      | none => exact ih.trans (by simp)
      | some f => exact iff_of_false nofun fun ⟨⟨h, _⟩, _⟩ => nomatch h
    | some f =>
      rw [checkMembers, hfield, passes_of_eq_some hfield, known_cons_of_eq_some hfield]
      dsimp only
      split
      · rename_i hseen
        refine iff_of_false nofun fun ⟨_, hrs, hfresh⟩ => ?_
        exact hfresh.unseen (name, d) (hrs ▸ List.mem_cons_self) (List.contains_iff_mem.1 hseen)
      · rename_i hseen
        have hnew : name ∉ seen := fun hmem => hseen (List.contains_iff_mem.2 hmem)
        cases hcheck : f.check d with
        | error e => exact iff_of_false nofun fun ⟨⟨h, _⟩, _⟩ => nomatch h
        | ok _ =>
          change (l.checkMembers (name :: seen) ms .closed).bind (fun rest => .ok ((name, d) :: rest)) = _ ↔ _
          cases hrest : l.checkMembers (name :: seen) ms .closed with
          | error e =>
            refine iff_of_false nofun fun ⟨⟨_, hpasses⟩, hrs, hfresh⟩ => ?_
            have h := ih.2 ⟨hpasses, rfl, (fresh_cons_iff.1 (hrs ▸ hfresh)).2⟩
            rw [hrest] at h
            cases h
          | ok rest =>
            obtain ⟨hpasses, rfl, hfresh⟩ := ih.1 hrest
            constructor
            · rintro ⟨⟩
              exact ⟨⟨rfl, hpasses⟩, rfl, fresh_cons_iff.2 ⟨hnew, hfresh⟩⟩
            · rintro ⟨-, rfl, -⟩
              rfl

/-- Each member is a field of the record. -/
def Knows (l : Layout) (ms : List (String × Draft)) : Prop := ∀ m ∈ ms, (l.field? m.1).isSome = true

theorem Knows.known_named {ms : List (String × Draft)} (H : l.Knows ms) : l.known (Draft.named ms) = ms := by
  induction ms with
  | nil => rfl
  | cons m ms ih =>
    obtain ⟨hm, hms⟩ := List.forall_mem_cons.1 H
    obtain ⟨f, hf⟩ := Option.isSome_iff_exists.1 hm
    exact (known_cons_of_eq_some hf m.2 _).trans (congrArg _ (ih hms))

/-- Each field of the record has its name and, unless it is left out, a value that passes its check. -/
def Admits (l : Layout) (fields : List (String × Option Draft)) : Prop :=
  List.Forall₂ (fun f m => f.name = m.1 ∧ ∀ d ∈ m.2, f.check d = .ok ()) l.fields fields

variable {fields : List (String × Option Draft)}

theorem Admits.map_name (H : l.Admits fields) : l.fields.map (·.name) = fields.map (·.1) := by
  rw [← List.forall₂_eq_eq_eq, List.forall₂_map_left_iff, List.forall₂_map_right_iff]
  exact H.imp fun _ _ h => h.1

theorem Admits.exists_check (H : l.Admits fields) :
    ∀ m ∈ fields, ∃ f ∈ l.fields, f.name = m.1 ∧ ∀ d ∈ m.2, f.check d = .ok () := by
  unfold Admits at H
  generalize l.fields = fs at H ⊢
  induction H with
  | nil => exact fun _ hm => absurd hm List.not_mem_nil
  | @cons f m fs ms h _ ih =>
    refine List.forall_mem_cons.2 ⟨⟨f, List.mem_cons_self, h⟩, fun m hm => ?_⟩
    obtain ⟨f, hf, hcheck⟩ := ih m hm
    exact ⟨f, List.mem_cons_of_mem _ hf, hcheck⟩

theorem Admits.checkMembers_eq (H : l.Admits fields) (hnames : (l.fields.map (·.name)).Nodup) :
    l.checkMembers [] (Draft.named (present fields)) .closed = .ok (present fields) := by
  have hfields : ∀ m ∈ present fields, ∃ f, l.field? m.1 = some f ∧ f.check m.2 = .ok () := fun m hm => by
    obtain ⟨f, hf, hname, hcheck⟩ := H.exists_check _ (mem_present.1 hm)
    exact ⟨f, hname ▸ field?_name hnames hf, hcheck m.2 rfl⟩
  have hknows : l.Knows (present fields) := fun m hm => by
    obtain ⟨f, hf, -⟩ := hfields m hm
    exact Option.isSome_iff_exists.2 ⟨f, hf⟩
  refine checkMembers_eq_ok_iff.2 ⟨?_, hknows.known_named, ?_, fun _ _ => List.not_mem_nil⟩
  · refine List.forall_mem_map.2 fun m hm => ?_
    obtain ⟨f, hf, hcheck⟩ := hfields m hm
    exact ⟨m.1, rfl, by rw [hf]; exact hcheck⟩
  · exact (H.map_name ▸ hnames).sublist (map_fst_present_sublist fields)

end Layout

variable {fields : List (String × Option Draft)}

/-- An object of the fields of a record is read by the fields that are there. -/
theorem Decoder.record_present {l : Layout} (hnames : (l.fields.map (·.name)).Nodup) (H : l.Admits fields)
    (build : Fields → Except DecodeError α) :
    record l build (.object (Draft.named (present fields)) .closed) = build (.named (present fields)) := by
  rw [record, H.checkMembers_eq hnames]
  rfl

namespace Fields

variable {name : String} (hnames : (fields.map (·.1)).Nodup)
include hnames

theorem required_present {x : Draft} (h : fields.lookup name = some (some x)) (l : Layout) (i : Nat)
    (dec : Decoder α) : (named (present fields)).required l i name dec = dec x := by
  rw [required, find?, lookup_present hnames, h]
  rfl

theorem optional_present {v : Option Draft} (h : fields.lookup name = some v) (i : Nat) (dec : Decoder α)
    (default : α) : (named (present fields)).optional i name dec default = v.elim (.ok default) dec := by
  rw [optional, find?, lookup_present hnames, h]
  cases v with
  | none => rfl
  | some x => rfl

end Fields

end DeviceNaming.Json
