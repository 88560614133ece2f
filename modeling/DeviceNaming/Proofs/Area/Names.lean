import DeviceNaming.Proofs.Area.Registry

/-!
# Whose name it is

A name that several areas claim belongs to the one that was registered with it last. When this area is registered
again without the name, the name belongs to nobody, even where another area still bears it. `AreaLog.holder` says so
from the registrations alone, and the index of names follows it (`AreaRegistry.Tells`).

So a name leads to a registered area that bears it as long as the area that was registered with it last has kept it:
`AreaRegistry.resolve_kept_name`. `AreaRegistry.resolve_lost_name` is what happens otherwise.
-/

namespace DeviceNaming

attribute [local irreducible] Text.normalize Text.trimmed

/-- The names of the area of a record in normal form, without empty ones. -/
def AreaRecord.normalLabels (r : AreaRecord) : List String := (Area.ofRecord r none).normalLabels

/-- Registrations of areas, the latest first. -/
abbrev AreaLog := List AreaRecord

namespace AreaLog

/-- Records without an id are passed over. -/
def enter (log : AreaLog) (r : AreaRecord) : AreaLog :=
  if Text.trimmed r.areaId = "" then log else r :: log

/-- The present registration of an area. -/
def latest (log : AreaLog) (areaId : String) : Option AreaRecord := log.find? fun r => r.areaId = areaId

/-- Does the area of an id bear a name at present? -/
def bears (log : AreaLog) (areaId label : String) : Bool :=
  (log.latest areaId).any fun r => label ∈ r.normalLabels

/-- The last registration with a name. -/
def claimant (log : AreaLog) (label : String) : Option AreaRecord :=
  log.find? fun r => label ∈ r.normalLabels

/-- The registration that a name belongs to. -/
def holder (log : AreaLog) (label : String) : Option AreaRecord :=
  (log.claimant label).filter fun r => log.bears r.areaId label

variable {log : AreaLog} {r : AreaRecord}

theorem latest_cons (r : AreaRecord) (log : AreaLog) (areaId : String) :
    latest (r :: log) areaId = if r.areaId = areaId then some r else log.latest areaId := by
  rw [latest, List.find?_cons]
  by_cases h : r.areaId = areaId <;> simp [h, latest]

theorem claimant_cons (r : AreaRecord) (log : AreaLog) (label : String) :
    claimant (r :: log) label = if label ∈ r.normalLabels then some r else log.claimant label := by
  rw [claimant, List.find?_cons]
  by_cases h : label ∈ r.normalLabels <;> simp [h, claimant]

theorem bears_cons (r : AreaRecord) (log : AreaLog) (areaId label : String) :
    bears (r :: log) areaId label =
      if r.areaId = areaId then decide (label ∈ r.normalLabels) else log.bears areaId label := by
  rw [bears, latest_cons]
  split <;> rfl

/-- A new registration takes the names that it has, and gives up those that its area held before. -/
theorem map_holder_cons (r : AreaRecord) (log : AreaLog) (label : String) :
    (holder (r :: log) label).map (·.areaId) =
      if label ∈ r.normalLabels then some r.areaId
      else ((log.holder label).map (·.areaId)).filter fun id => id ≠ r.areaId := by
  rw [holder, claimant_cons]
  split
  · rename_i hlabel
    simp [Option.filter_some, bears_cons, hlabel]
  · rename_i hlabel
    rw [holder]
    cases log.claimant label with
    | none => rfl
    | some c =>
      by_cases hid : r.areaId = c.areaId
      · cases hbears : log.bears c.areaId label <;> simp [Option.filter_some, bears_cons, hid, hlabel, hbears]
      · have hne : c.areaId ≠ r.areaId := fun h => hid h.symm
        cases hbears : log.bears c.areaId label <;> simp [Option.filter_some, bears_cons, hid, hne, hbears]

theorem mem_of_claimant {label : String} (h : log.claimant label = some r) :
    r ∈ log ∧ label ∈ r.normalLabels := by
  have hlabel := List.find?_some h
  exact ⟨List.mem_of_find?_eq_some h, of_decide_eq_true hlabel⟩

theorem exists_claimant {areaId label : String} (h : log.bears areaId label = true) :
    ∃ r, log.claimant label = some r := by
  obtain ⟨r, hr, hlabel⟩ := (Option.any_eq_true _ _).1 h
  exact Option.isSome_iff_exists.1 (List.find?_isSome.2 ⟨r, List.mem_of_find?_eq_some hr, hlabel⟩)

theorem bears_of_latest {areaId label : String} (hr : log.latest areaId = some r)
    (hlabel : label ∈ r.normalLabels) : log.bears areaId label = true := by
  rw [bears, hr]
  exact decide_eq_true hlabel

end AreaLog

namespace AreaRegistry

variable {g : AreaRegistry} {a : Area}

/-! ## The index of names -/

theorem find?_releaseName (names : Roster String) (label id k : String) :
    (releaseName names label id).find? k =
      if k = label then (names.find? k).filter fun i => i ≠ id else names.find? k := by
  unfold releaseName
  by_cases hk : k = label
  · subst hk
    cases h : names.find? k with
    | none => simp [h]
    | some i =>
      by_cases hi : i = id <;> simp [h, hi, Option.filter_some]
  · split <;> simp [hk]

theorem find?_foldl_releaseName (labels : List String) (id k : String) (names : Roster String) :
    (labels.foldl (fun ns label => releaseName ns (Text.normalize label) id) names).find? k =
      if k ∈ labels.map Text.normalize then (names.find? k).filter fun i => i ≠ id
      else names.find? k := by
  induction labels generalizing names with
  | nil => rfl
  | cons label labels ih =>
    rw [List.foldl_cons, ih, find?_releaseName, List.map_cons]
    by_cases hk : k = Text.normalize label <;> by_cases hrest : k ∈ labels.map Text.normalize <;>
      simp [hk, hrest, Option.filter_filter]

theorem find?_foldl_put (labels : List String) (id k : String) (names : Roster String) :
    (labels.foldl (fun ns label => ns.put label id) names).find? k =
      if k ∈ labels then some id else names.find? k := by
  induction labels generalizing names with
  | nil => rfl
  | cons label labels ih =>
    rw [List.foldl_cons, ih, Roster.find?_put]
    by_cases hk : k = label <;> by_cases hrest : k ∈ labels <;> simp [hk, hrest]

/-- The order lists the registered areas, and a name is only found as the name of one of them. -/
structure Filed (g : AreaRegistry) : Prop extends g.Listed where
  borne : ∀ {label id}, g.names.find? label = some id →
    ∃ a, g.areas.find? id = some a ∧ label ∈ a.normalLabels

theorem filed_empty (threshold : Binary32) : (empty threshold).Filed := ⟨listed_empty threshold, nofun⟩

/-- Before an area is registered anew, all names that it held are free. -/
theorem Filed.names_forget (H : g.Filed) (id label : String) :
    (g.forget id).names.find? label = (g.names.find? label).filter fun i => i ≠ id := by
  have hother : g.names.find? label ≠ some id →
      g.names.find? label = (g.names.find? label).filter fun i => i ≠ id := by
    intro hne
    cases hi : g.names.find? label with
    | none => rfl
    | some i =>
      have hi' : i ≠ id := fun h => hne (h ▸ hi)
      simp [hi', Option.filter_some]
  unfold forget
  split
  · rename_i old hold
    rw [unregister, find?_foldl_releaseName, H.own hold]
    split
    · rfl
    · rename_i hlabel
      -- a name that the area holds is among those that are released
      refine hother fun hid => hlabel ?_
      obtain ⟨b, hb, hmem⟩ := H.borne hid
      rw [hold] at hb
      cases hb
      obtain ⟨text, htext, hnormal⟩ := List.mem_filterMap.1 hmem
      exact List.mem_map.2 ⟨text, htext, (Text.normalize?_eq_some_iff.1 hnormal).1⟩
  · rename_i hnone
    refine hother fun hid => ?_
    obtain ⟨b, hb, -⟩ := H.borne hid
    rw [hnone] at hb
    cases hb

/-- Registering an area gives it its names, and takes all others from it. -/
theorem Filed.names_register (H : g.Filed) (a : Area) (label : String) :
    (g.register a).names.find? label =
      if label ∈ a.normalLabels then some a.areaId
      else (g.names.find? label).filter fun i => i ≠ a.areaId := by
  rw [register_eq]
  exact (find?_foldl_put ..).trans (by rw [H.names_forget])

theorem Filed.register (H : g.Filed) (a : Area) : (g.register a).Filed := by
  refine ⟨H.toListed.register a, fun {label id} hid => ?_⟩
  rw [H.names_register] at hid
  rw [find?_register]
  split at hid
  · rename_i hlabel
    cases hid
    exact ⟨a, if_pos rfl, hlabel⟩
  · obtain ⟨hid, hne⟩ := Option.filter_eq_some_iff.1 hid
    rw [if_neg (of_decide_eq_true hne)]
    exact H.borne hid

/-! ## The registry and its log -/

/-- The areas bear the names of their present registrations, and the index of names says whose name it is. -/
structure Tells (g : AreaRegistry) (log : AreaLog) : Prop extends g.Filed where
  labels : ∀ id, (g.areas.find? id).map Area.normalLabels = (log.latest id).map AreaRecord.normalLabels
  names : ∀ label, g.names.find? label = (log.holder label).map (·.areaId)

variable {log : AreaLog}

theorem tells_empty (threshold : Binary32) : (empty threshold).Tells [] :=
  ⟨filed_empty threshold, fun _ => rfl, fun _ => rfl⟩

theorem Tells.register (T : g.Tells log) (r : AreaRecord) (embedding : Option Embedding) :
    (g.register (.ofRecord r embedding)).Tells (r :: log) := by
  have hid : (Area.ofRecord r embedding).areaId = r.areaId := rfl
  refine ⟨T.toFiled.register _, fun id => ?_, fun label => ?_⟩
  · rw [find?_register, AreaLog.latest_cons, hid]
    by_cases h : r.areaId = id
    · rw [if_pos h.symm, if_pos h]
      rfl
    · rw [if_neg fun h' => h h'.symm, if_neg h]
      exact T.labels id
  · rw [T.names_register, AreaLog.map_holder_cons, T.names, hid]
    rfl

theorem Tells.add (T : g.Tells log) (e : Embedder) (r : AreaRecord) (s : Shared) :
    (g.add e r s).1.Tells (log.enter r) := by
  unfold AreaRegistry.add AreaLog.enter
  split
  · exact T
  · exact T.register r _

theorem Tells.bears_of_find? (T : g.Tells log) {id label : String} (ha : g.areas.find? id = some a)
    (hlabel : label ∈ a.normalLabels) : log.bears id label = true := by
  have hmap := T.labels id
  rw [ha] at hmap
  obtain ⟨r, hr, heq⟩ := Option.map_eq_some_iff.1 hmap.symm
  exact AreaLog.bears_of_latest hr (heq ▸ hlabel)

end AreaRegistry

/-! ## Changes -/

/-- A change to the areas of a registry. -/
inductive AreaChange where
  | add (r : AreaRecord)
  | clear

namespace AreaChange

def apply (e : Embedder) : AreaChange → AreaRegistry × Shared → AreaRegistry × Shared
  | add r, (g, s) => g.add e r s
  | clear, (g, s) => (g.clear, s)

def applyAll (e : Embedder) (changes : List AreaChange) (p : AreaRegistry × Shared) :
    AreaRegistry × Shared :=
  changes.foldl (fun p c => c.apply e p) p

def onLog : AreaChange → AreaLog → AreaLog
  | add r, log => log.enter r
  | clear, _ => []

/-- The registrations since the registry was last cleared. -/
def log (changes : List AreaChange) : AreaLog := changes.foldl (fun log c => c.onLog log) []

theorem tells_apply (e : Embedder) (c : AreaChange) {p : AreaRegistry × Shared} {log : AreaLog}
    (T : p.1.Tells log) : (c.apply e p).1.Tells (c.onLog log) := by
  cases c with
  | add r => exact T.add e r p.2
  | clear => exact AreaRegistry.tells_empty _

theorem tells_applyAll (e : Embedder) (changes : List AreaChange) (threshold : Binary32) (s : Shared) :
    (applyAll e changes (.empty threshold, s)).1.Tells (log changes) := by
  suffices hfold : ∀ (p : AreaRegistry × Shared) (done : AreaLog), p.1.Tells done →
      (applyAll e changes p).1.Tells (changes.foldl (fun log c => c.onLog log) done) from
    hfold _ _ (AreaRegistry.tells_empty threshold)
  induction changes with
  | nil => exact fun p done T => T
  | cons c changes ih => exact fun p done T => ih _ _ (tells_apply e c T)

end AreaChange

namespace AreaRegistry

open AreaChange (applyAll)

variable {g : AreaRegistry} {log : AreaLog}

theorem resolve_of_names (e : Embedder) {text label id : String} (htext : Text.normalize? text = some label)
    (hname : g.names.find? label = some id) (semantic : Bool) (s : Shared) :
    g.resolve e text semantic s = (.ok (some id), s) := by
  rw [resolve, htext]
  dsimp only
  rw [hname]

/-- A name of a registered area is indexed as long as the area that was registered with it last has kept it. -/
theorem Tells.find?_of_kept (T : g.Tells log) {b : Area} {id label : String}
    (hb : g.areas.find? id = some b) (hlabel : label ∈ b.normalLabels)
    (hkept : ∀ r, log.claimant label = some r → log.bears r.areaId label = true) :
    ∃ r, log.claimant label = some r ∧ g.names.find? label = some r.areaId := by
  obtain ⟨r, hr⟩ := AreaLog.exists_claimant (T.bears_of_find? hb hlabel)
  refine ⟨r, hr, ?_⟩
  rw [T.names, AreaLog.holder, hr, Option.filter_some, if_pos (hkept r hr)]
  rfl

/-- After any changes, a name of a registered area leads to a registered area that bears it, as long as the area
that was registered with it last has kept it. -/
theorem resolve_kept_name (e : Embedder) (threshold : Binary32) (changes : List AreaChange) (s : Shared)
    {b : Area} {id text label : String}
    (hb : (applyAll e changes (.empty threshold, s)).1.areas.find? id = some b)
    (hlabel : label ∈ b.normalLabels) (htext : Text.normalize? text = some label)
    (hkept : ∀ r, (AreaChange.log changes).claimant label = some r →
      (AreaChange.log changes).bears r.areaId label = true) :
    ∃ a, (applyAll e changes (.empty threshold, s)).1.areas.find? a.areaId = some a ∧
      label ∈ a.normalLabels ∧
      ∀ semantic t, (applyAll e changes (.empty threshold, s)).1.resolve e text semantic t =
        (.ok (some a.areaId), t) := by
  have T := AreaChange.tells_applyAll e changes threshold s
  obtain ⟨r, -, hname⟩ := T.find?_of_kept hb hlabel hkept
  obtain ⟨a, ha, hmem⟩ := T.borne hname
  have hid := T.own ha
  refine ⟨a, hid ▸ ha, hmem, fun semantic t => ?_⟩
  rw [hid]
  exact resolve_of_names e htext hname semantic t

/-- A den beside an annex, and a study that is registered as a den, too. -/
def twoDens : List AreaChange := [
  .add (.new "annex" "Den Annex"), .add (.new "den" "Den"), .add (.new "study" " DEN")]

/-- The den of `twoDens`. -/
def firstDen : Area := .ofRecord (.new "den" "Den") none

theorem resolve_kept_name_two_dens :
    (applyAll .disabled twoDens (.empty .zero, .start Settings.default.embeddingCache)).1.areas.find? "den" =
        some firstDen ∧
      ∃ a, (applyAll .disabled twoDens (.empty .zero, .start Settings.default.embeddingCache)).1.areas.find?
          a.areaId = some a ∧ "den" ∈ a.normalLabels ∧
        ∀ semantic t, (applyAll .disabled twoDens (.empty .zero,
            .start Settings.default.embeddingCache)).1.resolve .disabled "Den " semantic t =
          (.ok (some a.areaId), t) := by
  have hden : (applyAll .disabled twoDens (.empty .zero,
      .start Settings.default.embeddingCache)).1.areas.find? "den" = some firstDen := by decide +kernel
  refine ⟨hden, resolve_kept_name .disabled .zero twoDens _ hden (by decide +kernel) (by decide +kernel) ?_⟩
  decide +kernel

/-- Once the study is a study, the den has lost its name to nobody: the text leads to the annex. -/
theorem resolve_lost_name :
    let g := (applyAll .disabled (twoDens ++ [.add (.new "study" "Study")])
      (.empty .zero, .start Settings.default.embeddingCache)).1
    g.areas.find? "den" = some firstDen ∧ "den" ∈ firstDen.normalLabels ∧
      (g.resolve .disabled "den" false (.start Settings.default.embeddingCache)).1.toOption =
        some (some "annex") ∧
      (g.areas.find? "annex").map Area.normalLabels = some ["den annex"] := by
  decide +kernel

end AreaRegistry

end DeviceNaming
