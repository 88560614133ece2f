import DeviceNaming.Proofs.Entity.Ranking

/-!
# Rankings without a limit

`Embedder.fullRanking` has all matches of a query; a ranking is the front of it (`Embedder.ranking_eq_take`). Keeping
the matches of some devices gives the full ranking of these devices (`Embedder.fullRanking_narrow`): to rank and then to
filter is the same as to filter and then to rank.
-/

namespace DeviceNaming

attribute [local irreducible] Text.normalize

open EntityIndex

/-- All matches of a query, best first. -/
def Embedder.fullRanking (e : Embedder) (entries : List EntityEntry) (text : String)
    (domain areaId : Option String) : List EntityMatch :=
  match Text.normalize? text with
  | none => []
  | some text =>
      stableSort ranksBefore <|
        (entries.filter fun y => y.passes domain areaId).filterMap (matchOf (e.answerFor text) text)

variable {e : Embedder} {entries : List EntityEntry} {text : String} {domain areaId : Option String}

namespace Embedder

theorem ranking_eq_take (e : Embedder) (entries : List EntityEntry) (q : Query) :
    e.ranking entries q = (e.fullRanking entries q.text q.domain q.areaId).take q.limit := by
  unfold ranking fullRanking
  cases Text.normalize? q.text with
  | none => exact List.take_nil.symm
  | some text => rfl

theorem length_fullRanking_le : (e.fullRanking entries text domain areaId).length ≤ entries.length := by
  unfold fullRanking
  cases Text.normalize? text with
  | none => exact Nat.zero_le _
  | some text =>
    dsimp only
    rw [length_stableSort]
    exact Nat.le_trans (List.length_filterMap_le ..) (List.length_filter_le ..)

/-- Nothing is cut off a ranking whose limit is the number of devices. -/
theorem ranking_eq_fullRanking {limit : Nat} (h : entries.length ≤ limit) :
    e.ranking entries ⟨text, domain, areaId, limit⟩ = e.fullRanking entries text domain areaId := by
  rw [ranking_eq_take]
  exact List.take_of_length_le (Nat.le_trans length_fullRanking_le h)

end Embedder

namespace EntityIndex

theorem ranksBefore_total (a b : EntityMatch) : ranksBefore a b ∨ ranksBefore b a := by
  simp only [ranksBefore, decide_eq_true_eq]
  omega

theorem ranksBefore_trans (a b c : EntityMatch) (hab : ranksBefore a b) (hbc : ranksBefore b c) :
    ranksBefore a c := by
  simp only [ranksBefore, decide_eq_true_eq] at *
  omega

/-- The match of a device is kept if the device is. -/
theorem filter_matchOf {keep : String → Bool} {y : EntityEntry} {p r : Bool} (h : r = (p && keep y.entityId))
    (found : Lookup) (text : String) :
    (if p then (matchOf found text y).filter fun m => keep m.entityId else none) =
      if r then matchOf found text y else none := by
  have hmatch : (matchOf found text y).filter (fun m => keep m.entityId) =
      if keep y.entityId then matchOf found text y else none := by
    rw [matchOf]
    cases scoreOf found text y with
    | none => exact (ite_self _).symm
    | some score => rfl
  rw [hmatch, h]
  cases p with
  | false => rfl
  | true => rfl

end EntityIndex

namespace Embedder

variable {keep : String → Bool}

/-- To rank devices and to keep some of them is to rank those that are kept. -/
theorem fullRanking_narrow {domain' areaId' : Option String}
    (h : ∀ y ∈ entries, y.passes domain' areaId' = (y.passes domain areaId && keep y.entityId)) :
    (e.fullRanking entries text domain areaId).filter (fun m => keep m.entityId) =
      e.fullRanking entries text domain' areaId' := by
  unfold fullRanking
  cases Text.normalize? text with
  | none => rfl
  | some text =>
    dsimp only
    rw [stableSort_filter ranksBefore_total ranksBefore_trans, List.filter_filterMap,
      List.filterMap_filter, List.filterMap_filter]
    exact congrArg (stableSort ranksBefore) (List.filterMap_congr fun y hy => filter_matchOf (h y hy) ..)

/-- To rank all devices and to keep those of an area is to rank the devices of the area. -/
theorem fullRanking_filter {a : String} (h : ∀ y ∈ entries, keep y.entityId = decide (y.areaId = some a))
    (text : String) (domain : Option String) :
    (e.fullRanking entries text domain none).filter (fun m => keep m.entityId) =
      e.fullRanking entries text domain (some a) := by
  refine fullRanking_narrow fun y hy => ?_
  unfold EntityEntry.passes
  rw [h y hy, Bool.and_true]

end Embedder

end DeviceNaming
