import DeviceNaming.Proofs.Area.Mentions
import DeviceNaming.Proofs.Entity.InStep
import DeviceNaming.Proofs.Number.Quotient

/-!
# Searching by letters as a scan

`EntityIndex.searchExact` asks the index of names which devices bear a text and gives these at least 1.
`EntityIndex.scan` never asks it: it goes through the names of the devices that pass the filters and keeps the largest
ratio of the lengths of the text and of a name that overlaps it (`EntityEntry.overlapRatios`). In every copy of every
run both find the same: `EntityIndex.copies_scan`. For the index of names is in step with the entries, and a text that
is a name overlaps this name in the ratio 1.
-/

namespace DeviceNaming

attribute [local irreducible] Text.normalize Text.trimmed

/-- Are the text and the name the same, or does one contain the other? Both are in normal form. -/
def Text.overlaps (text name : String) : Bool := decide (name = text) || occursIn text name || occursIn name text

theorem Text.overlaps_eq (text name : String) : overlaps text name = (occursIn text name || occursIn name text) := by
  unfold overlaps
  by_cases h : name = text
  · rw [h, occursIn_self, Bool.or_true, Bool.or_true]
  · rw [decide_eq_false h, Bool.false_or]

/-- One of some numbers that none of them exceeds. -/
structure Binary32.Largest (xs : List Binary32) (x : Binary32) : Prop where
  mem : x ∈ xs
  number : x.isNaN = false
  highest : ∀ y ∈ xs, lt x y = false

namespace EntityEntry

variable {y : EntityEntry} {text : String}

/-- The names of a device, in normal form, that a text overlaps. -/
def overlapping (y : EntityEntry) (text : String) : List String := y.normalNames.filter (Text.overlaps text)

/-- The ratios of the length of a text to those of the names that it overlaps. -/
def overlapRatios (y : EntityEntry) (text : String) : List Binary32 :=
  (y.overlapping text).map fun name => .ofNat text.length / .ofNat name.length

theorem isNaN_of_mem_overlapRatios (hself : Binary32.ofNat text.length / Binary32.ofNat text.length = .one)
    {ratio : Binary32} (h : ratio ∈ y.overlapRatios text) : ratio.isNaN = false := by
  obtain ⟨name, -, rfl⟩ := List.mem_map.1 h
  obtain ⟨_, _, _, _, hfinite⟩ := Binary32.exists_finite_of_div_self hself
  exact Binary32.isNaN_div hfinite (Binary32.isNaN_ofNat _)

theorem one_mem_overlapRatios (hself : Binary32.ofNat text.length / Binary32.ofNat text.length = .one)
    (htext : text ∈ y.normalNames) : .one ∈ y.overlapRatios text := by
  have hoverlaps : Text.overlaps text text = true := by
    rw [Text.overlaps_eq, Text.occursIn_self, Bool.true_or]
  exact hself ▸ List.mem_map.2 ⟨text, List.mem_filter.2 ⟨htext, hoverlaps⟩, rfl⟩

end EntityEntry

namespace EntityIndex

/-- The devices that pass the filters and have a name that the text overlaps, each with its largest ratio. -/
def scan (x : EntityIndex) (q : Query) : List EntityMatch :=
  match Text.normalize? q.text with
  | none => []
  | some text =>
      ranked q.limit <| (x.candidates q.domain q.areaId).filterMap fun y =>
        (bestScore (y.overlapRatios text)).map fun score => ⟨y.entityId, score⟩

variable {x : EntityIndex} {y : EntityEntry} {q : Query} {text : String} {score : Binary32}

/-! ## The score of a device -/

theorem bestScore_eq_none_iff {xs : List Binary32} : bestScore xs = none ↔ xs = [] := by
  cases xs <;> simp [bestScore]

theorem largest_of_bestScore {xs : List Binary32} (hxs : ∀ x ∈ xs, x.isNaN = false)
    (h : bestScore xs = some score) : Binary32.Largest xs score := by
  cases xs with
  | nil => cases h
  | cons x xs =>
    cases h
    have hmem := Binary32.foldl_max_mem x xs
    exact ⟨hmem, hxs _ hmem, Binary32.not_lt_foldl_max x xs⟩

/-- The largest ratio of a device is at least 1 if the text is a name of it. -/
theorem largest_overlapRatio (hself : Binary32.ofNat text.length / Binary32.ofNat text.length = .one)
    (h : bestScore (y.overlapRatios text) = some score) :
    Binary32.Largest (y.overlapRatios text) score ∧
      (text ∈ y.normalNames → Binary32.lt score .one = false) := by
  have H := largest_of_bestScore (fun _ => EntityEntry.isNaN_of_mem_overlapRatios hself) h
  exact ⟨H, fun htext => H.highest _ (EntityEntry.one_mem_overlapRatios hself htext)⟩

namespace InStep

variable (H : x.InStep) (hy : y ∈ x.entries.values)

include H hy

theorem filterMap_overlapScore (text : String) :
    y.normalNames.filterMap (overlapScore text) = y.overlapRatios text := by
  have hscore : ∀ name ∈ y.normalNames, overlapScore text name =
      if Text.overlaps text name then some (Binary32.ofNat text.length / Binary32.ofNat name.length) else none := by
    intro name hname
    rw [H.overlapScore_eq hy hname, Text.overlaps_eq]
  rw [List.filterMap_congr hscore]
  unfold EntityEntry.overlapRatios EntityEntry.overlapping
  rw [← List.filterMap_eq_map, List.filterMap_filter]
  rfl

/-- A device that bears the text gains nothing by the index of names. -/
theorem letterScore_eq (hself : Binary32.ofNat text.length / Binary32.ofNat text.length = .one) :
    letterScore text (decide (text ∈ y.normalNames)) y = bestScore (y.overlapRatios text) := by
  unfold letterScore
  rw [H.filterMap_overlapScore hy]
  by_cases htext : text ∈ y.normalNames
  · rw [decide_eq_true htext]
    cases hbest : bestScore (y.overlapRatios text) with
    | none =>
      have hone := EntityEntry.one_mem_overlapRatios hself htext
      rw [bestScore_eq_none_iff.1 hbest] at hone
      cases hone
    | some score =>
      obtain ⟨L, hone⟩ := largest_overlapRatio hself hbest
      exact congrArg some (Binary32.max_one L.number (hone htext))
  · rw [decide_eq_false htext]
    rfl

omit hy

theorem searchExact_eq_scan
    (hself : ∀ text, Text.normalize? q.text = some text →
      Binary32.ofNat text.length / Binary32.ofNat text.length = .one) : x.searchExact q = x.scan q := by
  rw [searchExact_eq H.toMirrors q .noProvider, scan]
  cases htext : Text.normalize? q.text with
  | none => rfl
  | some text =>
    refine congrArg (ranked q.limit) (List.filterMap_congr fun y hy => ?_)
    have hy := mem_values_of_mem_ordered (List.mem_filter.1 hy).1
    rw [matchOf, scoreOf, H.letterScore_eq hy (hself text htext)]

end InStep

/-! ## Runs -/

/-- After any steps with any provider, a search by letters in any copy finds what a scan of the entries finds, if the
length of the text goes into itself once. What a device scores is the largest of the ratios, if there are any, and at
least 1 if the text is a name of it. -/
theorem copies_scan (e : Embedder) (maxSize : Nat) (ttl : Option Nat) (s : Shared) (steps : List CopyStep) (q : Query)
    (hself : ∀ text, Text.normalize? q.text = some text →
      Binary32.ofNat text.length / Binary32.ofNat text.length = .one) :
    ∀ c ∈ ((Copies.start maxSize ttl s).run e steps).all,
      c.index.searchExact q = c.index.scan q ∧
      ∀ text, Text.normalize? q.text = some text → ∀ y ∈ c.index.entries.values,
        (bestScore (y.overlapRatios text) = none ↔ y.overlapping text = []) ∧
        ∀ score, bestScore (y.overlapRatios text) = some score →
          Binary32.Largest (y.overlapRatios text) score ∧
            (text ∈ y.normalNames → Binary32.le .one score = true) := by
  intro c hc
  have H := (Copies.logged_run e maxSize ttl s steps).inStep c hc
  refine ⟨H.searchExact_eq_scan hself, fun text htext y hy => ⟨?_, fun score hbest => ?_⟩⟩
  · rw [bestScore_eq_none_iff, EntityEntry.overlapRatios, List.map_eq_nil_iff]
  · obtain ⟨L, hone⟩ := largest_overlapRatio (hself text htext) hbest
    exact ⟨L, fun hname => Binary32.le_of_not_lt (by decide) L.number (hone hname)⟩

/-- A lamp in the hall with a short name besides, which it loses in a copy. -/
def hallLamps : Copies :=
  (Copies.start 1 none (.start Settings.default.embeddingCache)).run ⟨some .failing, 200⟩ [
    .use 0 (.add Sample.officeLamp),
    .use 0 (.add (Sample.device "light.hall" [(.primaryName, "Hall Lamp"), (.aliasName, "LAMP")] "hall" "Hall")),
    .fork 0, .use 1 (.add (Sample.device "light.hall" [(.primaryName, "Hall Lamp")] "hall" "Hall"))]

theorem copies_scan_hall_lamps :
    hallLamps.all.map (fun c => c.index.scan ⟨" hall lamp", none, none, 5⟩) =
        [[⟨"light.hall", ⟨0x40100000⟩⟩], [⟨"light.hall", ⟨0x3F800000⟩⟩]] ∧
      ∀ c ∈ hallLamps.all,
        c.index.searchExact ⟨" hall lamp", none, none, 5⟩ = c.index.scan ⟨" hall lamp", none, none, 5⟩ ∧
        ∀ text, Text.normalize? " hall lamp" = some text → ∀ y ∈ c.index.entries.values,
          (bestScore (y.overlapRatios text) = none ↔ y.overlapping text = []) ∧
          ∀ score, bestScore (y.overlapRatios text) = some score →
            Binary32.Largest (y.overlapRatios text) score ∧
              (text ∈ y.normalNames → Binary32.le .one score = true) := by
  have htext : Text.normalize? " hall lamp" = some "hall lamp" := by decide +kernel
  refine ⟨by decide +kernel, copies_scan _ _ _ _ _ ⟨" hall lamp", none, none, 5⟩ fun text h => ?_⟩
  cases htext.symm.trans h
  decide +kernel

end EntityIndex

end DeviceNaming
