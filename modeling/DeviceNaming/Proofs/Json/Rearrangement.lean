import DeviceNaming.Proofs.Json.Grammar
import DeviceNaming.Proofs.Json.Members
import DeviceNaming.Proofs.Order.Roster

/-!
# Rearranged objects

The members of an object are rearranged by bringing them into another order, by adding members that are no fields of a
record and by leaving such members out. What is decoded of the fields stays what it was, in whatever order the members
come (`Layout.Rearranged.decode_eq_ok`).

The check of the members finds the same fields in another order (`Layout.Rearranged.checkMembers`), and since their
names are distinct each is found under its name as before.
-/

namespace DeviceNaming.Json

variable {α : Type}

/-- The fields of an object are only looked up by their names. -/
def Fields.ByName (build : Fields → Except DecodeError α) : Prop :=
  ∀ rs rs', (∀ name, rs.lookup name = rs'.lookup name) → build (.named rs) = build (.named rs')

namespace Layout

/-- One object has its members from another by bringing them into another order, by adding members of well-formed
values and by leaving out members, so long as these are no fields of the record. -/
inductive Rearranged (l : Layout) :
    List (Except Fault String × Draft) → List (Except Fault String × Draft) → Prop
  | perm {ms ms' : List (Except Fault String × Draft)} (H : ms.Perm ms') : Rearranged l ms ms'
  | add {name : String} {w : List Char} {d : Draft} (hname : name ∉ l.fields.map (·.name)) (H : Writes w d)
      (ms : List (Except Fault String × Draft)) : Rearranged l ms ((.ok name, d) :: ms)
  | leaveOut {name : String} (hname : name ∉ l.fields.map (·.name)) (d : Draft)
      (ms : List (Except Fault String × Draft)) : Rearranged l ((.ok name, d) :: ms) ms
  | trans {ms ms' ms'' : List (Except Fault String × Draft)} (H : Rearranged l ms ms') (H' : Rearranged l ms' ms'') :
      Rearranged l ms ms''

variable {l : Layout} {ms ms' : List (Except Fault String × Draft)} {rs : List (String × Draft)}

theorem field?_eq_none {name : String} (hname : name ∉ l.fields.map (·.name)) : l.field? name = none :=
  List.find?_eq_none.2 fun _ hf heq => hname (beq_iff_eq.1 heq ▸ List.mem_map_of_mem hf)

theorem checkMembers_perm (H : ms.Perm ms') (h : l.checkMembers [] ms .closed = .ok rs) :
    ∃ rs', l.checkMembers [] ms' .closed = .ok rs' ∧ rs.Perm rs' := by
  obtain ⟨hpasses, rfl, hfresh⟩ := checkMembers_eq_ok_iff.1 h
  have hknown : (l.known ms).Perm (l.known ms') := H.filterMap l.known?
  refine ⟨l.known ms', checkMembers_eq_ok_iff.2 ⟨fun m hm => hpasses m (H.mem_iff.2 hm), rfl, ?_⟩, hknown⟩
  exact ⟨(hknown.map (·.1)).nodup_iff.1 hfresh.nodup, fun _ _ => List.not_mem_nil⟩

/-- A member that is no field leaves no trace. -/
theorem checkMembers_cons_eq_ok_iff {name : String} (hname : name ∉ l.fields.map (·.name)) {d : Draft} :
    l.checkMembers [] ((.ok name, d) :: ms) .closed = .ok rs ↔
      d.skipFault? = none ∧ l.checkMembers [] ms .closed = .ok rs := by
  have hfield := field?_eq_none hname
  rw [checkMembers_eq_ok_iff, checkMembers_eq_ok_iff, List.forall_mem_cons, passes_of_eq_none hfield,
    known_cons_of_eq_none hfield, and_assoc]

/-- The fields of a rearranged object are those of the object, in any order. -/
theorem Rearranged.checkMembers (H : l.Rearranged ms ms') (h : l.checkMembers [] ms .closed = .ok rs) :
    ∃ rs', l.checkMembers [] ms' .closed = .ok rs' ∧ rs.Perm rs' := by
  induction H generalizing rs with
  | perm H => exact checkMembers_perm H h
  | add hname H _ => exact ⟨rs, (checkMembers_cons_eq_ok_iff hname).2 ⟨H.skipFault?_eq_none, h⟩, .refl _⟩
  | leaveOut hname _ _ => exact ⟨rs, ((checkMembers_cons_eq_ok_iff hname).1 h).2, .refl _⟩
  | trans _ _ ih ih' =>
    obtain ⟨rs', h', hperm⟩ := ih h
    obtain ⟨rs'', h'', hperm'⟩ := ih' h'
    exact ⟨rs'', h'', hperm.trans hperm'⟩

/-- Where the fields of a record are only looked up by their names, what is decoded from an object is decoded from the
rearranged object. -/
theorem Rearranged.record_eq_ok (H : l.Rearranged ms ms') {build : Fields → Except DecodeError α}
    (hbuild : Fields.ByName build) {v : α} (h : Decoder.record l build (.object ms .closed) = .ok v) :
    Decoder.record l build (.object ms' .closed) = .ok v := by
  rw [Decoder.record] at h ⊢
  cases hcheck : l.checkMembers [] ms .closed with
  | error f => rw [hcheck] at h; cases h
  | ok rs =>
    obtain ⟨-, -, hfresh⟩ := checkMembers_eq_ok_iff.1 hcheck
    obtain ⟨rs', hcheck', hperm⟩ := H.checkMembers hcheck
    have hlookup : ∀ name, Roster.find? ⟨rs⟩ name = Roster.find? ⟨rs'⟩ name :=
      Roster.find?_eq_of_perm hperm hfresh.nodup
    rw [hcheck] at h
    rw [hcheck']
    exact (hbuild rs rs' hlookup).symm.trans h

theorem Rearranged.decode_eq_ok (H : l.Rearranged ms ms') {text text' : String}
    (htext : Writes text.toList (.object ms .closed)) (htext' : Writes text'.toList (.object ms' .closed))
    {build : Fields → Except DecodeError α} (hbuild : Fields.ByName build) {v : α}
    (h : decode (Decoder.record l build) (Source.ofBytes text.toUTF8) = .ok v) :
    decode (Decoder.record l build) (Source.ofBytes text'.toUTF8) = .ok v := by
  rw [htext.decode_toUTF8] at h
  rw [htext'.decode_toUTF8]
  exact H.record_eq_ok hbuild h

end Layout

end DeviceNaming.Json
