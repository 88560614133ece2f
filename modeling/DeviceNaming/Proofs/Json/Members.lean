import DeviceNaming.Proofs.Json.Records

/-!
# Objects of known members

An object of which all members are known passes the check of its members only if their names are distinct
(`Layout.checkMembers_eq_ok`). So if a record is decoded from such an object, its fields are found under their names
(`Decoder.record_eq_ok`).
-/

namespace DeviceNaming.Json

variable {α : Type} {ms rs : List (String × Draft)}

namespace Layout

variable {l : Layout}

theorem checkMembers_eq_ok (hknows : l.Knows ms) {seen : List String}
    (h : l.checkMembers seen (Draft.named ms) .closed = .ok rs) :
    rs = ms ∧ (ms.map (·.1)).Nodup ∧ ∀ m ∈ ms, m.1 ∉ seen := by
  obtain ⟨-, rfl, hfresh⟩ := checkMembers_eq_ok_iff.1 h
  rw [hknows.known_named] at hfresh ⊢
  exact ⟨rfl, hfresh.nodup, hfresh.unseen⟩

end Layout

/-- A record of known members that is decoded has distinct members and is built of them. -/
theorem Decoder.record_eq_ok {l : Layout} (hknows : l.Knows ms) {build : Fields → Except DecodeError α} {v : α}
    (h : record l build (.object (Draft.named ms) .closed) = .ok v) :
    (ms.map (·.1)).Nodup ∧ build (.named ms) = .ok v := by
  rw [record] at h
  cases hcheck : l.checkMembers [] (Draft.named ms) .closed with
  | error f => rw [hcheck] at h; cases h
  | ok rs =>
    obtain ⟨rfl, hnodup, -⟩ := Layout.checkMembers_eq_ok hknows hcheck
    rw [hcheck] at h
    exact ⟨hnodup, h⟩

namespace Fields

theorem optional_named (ms : List (String × Draft)) (i : ℕ) (name : String) (dec : Decoder α) (default : α) :
    (named ms).optional i name dec default = (ms.lookup name).elim (.ok default) dec := by
  rw [optional, find?]
  cases ms.lookup name <;> rfl

theorem required_named (ms : List (String × Draft)) (l : Layout) (i : ℕ) (name : String) (dec : Decoder α) :
    (named ms).required l i name dec =
      (ms.lookup name).elim (.error (.mismatch (.missingField name))) dec := by
  rw [required, find?]
  cases ms.lookup name <;> rfl

end Fields

end DeviceNaming.Json
