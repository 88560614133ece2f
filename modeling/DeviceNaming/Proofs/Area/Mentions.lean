import DeviceNaming.Proofs.Area.Names

/-!
# The area that a query mentions

Of the areas that a query mentions, the first in the order of their registration is meant. Only its name is handed
on, and what the name leads to is the answer (`AreaRegistry.Narrows`): always a registered area; one that bears the name, as
long as it belongs to anybody; and the area that was mentioned, if no other area was ever registered with its
name. An area whose name is blank leads nowhere.
-/

namespace DeviceNaming

attribute [local irreducible] Text.normalize Text.trimmed

theorem Text.occursIn_self {text : String} : occursIn text text = true := by
  rw [occursIn]
  cases text.toList with
  | nil => rfl
  | cons c rest => simp [occursInChars]

namespace AreaRegistry

variable {e : Embedder} {g : AreaRegistry} {a : Area} {log : AreaLog} {s : Shared}

/-- The first registered area that a query mentions by one of its names. -/
def firstMentioned (g : AreaRegistry) (query : String) : Option Area :=
  match Text.normalize? query with
  | none => none
  | some text => g.ordered.find? (mentionedIn text)

theorem mentioned?_eq (g : AreaRegistry) (query : String) :
    g.mentioned? query = (g.firstMentioned query).map (·.name) := by
  unfold mentioned? firstMentioned
  cases Text.normalize? query <;> rfl

theorem mem_ordered_of_firstMentioned {query : String} (h : g.firstMentioned query = some a) :
    a ∈ g.ordered := by
  unfold firstMentioned at h
  split at h
  · cases h
  · exact List.mem_of_find?_eq_some h

/-! ## Where a text leads -/

theorem mostSimilar_mem {query : Embedding} {areas : List Area} {score : Binary32} :
    ∀ {best}, mostSimilar query best areas = .ok (some (a, score)) → best = some (a, score) ∨ a ∈ areas := by
  induction areas with
  | nil =>
    intro best h
    cases h
    exact .inl rfl
  | cons b areas ih =>
    intro best h
    rw [mostSimilar] at h
    split at h
    · exact (ih h).imp_right (List.mem_cons_of_mem _)
    · rename_i v _
      cases hscore : query.similarity? v with
      | error err =>
        rw [hscore] at h
        cases h
      | ok top =>
        rw [hscore] at h
        have hchosen : ∀ better : Bool, (if better then some (b, top) else best) = some (a, score) →
            best = some (a, score) ∨ a ∈ b :: areas := by
          intro better hbetter
          cases better with
          | true =>
            cases hbetter
            exact .inr List.mem_cons_self
          | false => exact .inl hbetter
        rcases ih h with hbest | hmem
        · exact hchosen _ hbest
        · exact .inr (List.mem_cons_of_mem _ hmem)

theorem mem_of_resolveBySimilarity {text id : String}
    (h : (g.resolveBySimilarity e text s).1 = .ok (some id)) : ∃ a ∈ g.ordered, a.areaId = id := by
  unfold resolveBySimilarity at h
  split at h
  · cases h
  · rename_i query t _
    cases hbest : mostSimilar query none g.ordered with
    | error err =>
      simp only [hbest] at h
      cases h
    | ok best =>
      simp only [hbest] at h
      cases best with
      | none => cases h
      | some p =>
        obtain ⟨a, score⟩ := p
        have hid : (if Binary32.lt g.threshold score then some a.areaId else none) = some id :=
          Except.ok.inj h
        split at hid
        · cases hid
          exact ⟨a, (mostSimilar_mem hbest).resolve_left nofun, rfl⟩
        · cases hid

theorem mem_of_resolveByOverlap {text id : String} (h : g.resolveByOverlap text = some id) :
    ∃ a ∈ g.ordered, a.areaId = id := by
  obtain ⟨a, ha, hid⟩ := Option.map_eq_some_iff.1 h
  exact ⟨a, List.mem_of_find?_eq_some ha, hid⟩

/-- A name of a registered area overlaps with a name of some area. -/
theorem resolveByOverlap_ne_none {label : String} (ha : a ∈ g.ordered) (hlabel : label ∈ a.normalLabels) :
    g.resolveByOverlap label ≠ none := by
  intro hnone
  have hfind := List.find?_eq_none.1 (Option.map_eq_none_iff.1 hnone) a ha
  refine hfind (List.any_eq_true.2 ⟨label, hlabel, ?_⟩)
  rw [Text.occursIn_self, Bool.true_or]

/-- How the three stages end. -/
theorem resolve_cases {text label : String} {semantic : Bool} {found : Option String}
    (htext : Text.normalize? text = some label) (h : (g.resolve e text semantic s).1 = .ok found) :
    (∃ id, g.names.find? label = some id ∧ found = some id) ∨
      (∃ id, (g.resolveBySimilarity e label s).1 = .ok (some id) ∧ found = some id) ∨
      found = g.resolveByOverlap label := by
  unfold resolve at h
  rw [htext] at h
  dsimp only at h
  split at h
  · rename_i id hid
    cases h
    exact .inl ⟨id, hid, rfl⟩
  · split at h
    · rcases hsimilar : g.resolveBySimilarity e label s with ⟨err | best, t⟩
      · rw [hsimilar] at h
        cases h
      · rw [hsimilar] at h
        cases best with
        | none =>
          cases h
          exact .inr (.inr rfl)
        | some id =>
          cases h
          exact .inr (.inl ⟨id, rfl, rfl⟩)
    · cases h
      exact .inr (.inr rfl)

/-- A text leads to a registered area or nowhere. -/
theorem Filed.exists_of_resolve (H : g.Filed) {text id : String} {semantic : Bool}
    (h : (g.resolve e text semantic s).1 = .ok (some id)) : ∃ a, g.areas.find? id = some a := by
  cases htext : Text.normalize? text with
  | none =>
    rw [resolve, htext] at h
    cases h
  | some label =>
    have hvalue : (∃ a ∈ g.ordered, a.areaId = id) → ∃ a, g.areas.find? id = some a := by
      rintro ⟨a, ha, rfl⟩
      exact ⟨a, H.find?_areaId (mem_values_of_mem_ordered ha)⟩
    rcases resolve_cases htext h with ⟨i, hi, hfound⟩ | ⟨i, hi, hfound⟩ | hfound
    · cases hfound
      obtain ⟨a, ha, -⟩ := H.borne hi
      exact ⟨a, ha⟩
    · cases hfound
      exact hvalue (mem_of_resolveBySimilarity hi)
    · exact hvalue (mem_of_resolveByOverlap hfound.symm)

/-- A name of a registered area leads somewhere. -/
theorem resolve_ne_none {text label : String} {semantic : Bool} (htext : Text.normalize? text = some label)
    (ha : a ∈ g.ordered) (hlabel : label ∈ a.normalLabels) :
    (g.resolve e text semantic s).1 ≠ .ok none := by
  intro h
  rcases resolve_cases htext h with ⟨i, -, hfound⟩ | ⟨i, -, hfound⟩ | hfound
  · cases hfound
  · cases hfound
  · exact resolveByOverlap_ne_none ha hlabel hfound.symm

/-! ## Where a query leads -/

/-- Where a query may lead, from the first area that it mentions and the registrations. -/
structure Narrows (g : AreaRegistry) (log : AreaLog) (query : String) (found : Option String) : Prop where
  unmentioned : g.firstMentioned query = none → found = none
  nameless : ∀ {a}, g.firstMentioned query = some a → Text.normalize? a.name = none → found = none
  named : ∀ {a label}, g.firstMentioned query = some a → Text.normalize? a.name = some label →
    ∃ id b, found = some id ∧ g.areas.find? id = some b
  kept : ∀ {a label}, g.firstMentioned query = some a → Text.normalize? a.name = some label →
    (∀ r, log.claimant label = some r → log.bears r.areaId label = true) →
    ∃ id b, found = some id ∧ g.areas.find? id = some b ∧ label ∈ b.normalLabels
  own : ∀ {a label}, g.firstMentioned query = some a → Text.normalize? a.name = some label →
    (∀ r ∈ log, label ∈ r.normalLabels → r.areaId = a.areaId) → found = some a.areaId

/-- Nothing is mentioned: there is nowhere to go. -/
theorem narrows_none {query : String} (h : g.firstMentioned query = none) : g.Narrows log query none := by
  have hno : ∀ {a}, g.firstMentioned query ≠ some a := fun ha => by cases h.symm.trans ha
  exact ⟨fun _ => rfl, fun ha => (hno ha).elim, fun ha => (hno ha).elim, fun ha => (hno ha).elim,
    fun ha => (hno ha).elim⟩

theorem Tells.narrows (T : g.Tells log) {query : String} {found : Option String}
    (hfirst : g.firstMentioned query = some a) {semantic : Bool}
    (h : (g.resolve e a.name semantic s).1 = .ok found) : g.Narrows log query found := by
  have hmem := mem_ordered_of_firstMentioned hfirst
  have hfind := T.find?_areaId (mem_values_of_mem_ordered hmem)
  have hborne : ∀ label, Text.normalize? a.name = some label → label ∈ a.normalLabels := fun label hlabel =>
    List.mem_filterMap.2 ⟨a.name, List.mem_cons_self, hlabel⟩
  have hname : ∀ {label id}, Text.normalize? a.name = some label → g.names.find? label = some id →
      found = some id := by
    intro label id hlabel hid
    rw [resolve_of_names e hlabel hid] at h
    exact (Except.ok.inj h).symm
  constructor
  · intro hnone
    cases hfirst.symm.trans hnone
  · intro b hb hblank
    cases hfirst.symm.trans hb
    rw [resolve, hblank] at h
    exact (Except.ok.inj h).symm
  · intro b label hb hlabel
    cases hfirst.symm.trans hb
    cases found with
    | none => exact (resolve_ne_none hlabel hmem (hborne label hlabel) h).elim
    | some id =>
      obtain ⟨c, hc⟩ := T.toFiled.exists_of_resolve h
      exact ⟨id, c, rfl, hc⟩
  · intro b label hb hlabel hkept
    cases hfirst.symm.trans hb
    obtain ⟨r, -, hid⟩ := T.find?_of_kept hfind (hborne label hlabel) hkept
    obtain ⟨c, hc, hcl⟩ := T.borne hid
    exact ⟨r.areaId, c, hname hlabel hid, hc, hcl⟩
  · intro b label hb hlabel hown
    cases hfirst.symm.trans hb
    have hbears := T.bears_of_find? hfind (hborne label hlabel)
    have hclaimant : ∀ r, log.claimant label = some r → r.areaId = a.areaId := fun r hr =>
      hown r (AreaLog.mem_of_claimant hr).1 (AreaLog.mem_of_claimant hr).2
    obtain ⟨r, hr, hid⟩ := T.find?_of_kept hfind (hborne label hlabel) fun r hr =>
      (hclaimant r hr).symm ▸ hbears
    exact hclaimant r hr ▸ hname hlabel hid

end AreaRegistry

end DeviceNaming
