import DeviceNaming.Household.Sample
import DeviceNaming.Proofs.Entity.Narrowing
import DeviceNaming.Proofs.Entity.Update

/-!
# Laws of rankings

`EntityIndex.Ranks` says what the answers of a search have in common: distinct devices of the index that pass the
filters, best first, in the order of their arrival where the scores are equal; and how answers to different
filters and limits go together: each is the front of the part of the longest answer that passes the filters.

Both searches keep to these laws in every index that changes, searches and copies can lead to
(`EntityIndex.Grown.search_ranks`). The laws are those of the rankings of a list of entries (`Embedder.ranks`);
searching by letters ranks as an embedder without a provider does.
-/

namespace DeviceNaming

attribute [local irreducible] Text.normalize

open EntityIndex

/-- The query for the same text among all devices. -/
def Query.unfiltered (q : Query) (limit : Nat) : Query := ⟨q.text, none, none, limit⟩

/-- Is the device in the domain and in the area that the query asks for? -/
structure EntityEntry.Meets (y : EntityEntry) (q : Query) : Prop where
  domain : ∀ d ∈ q.domain, y.domain = d
  areaId : ∀ a ∈ q.areaId, y.areaId = some a

theorem EntityEntry.passes_iff {y : EntityEntry} {q : Query} :
    y.passes q.domain q.areaId = true ↔ y.Meets q := by
  obtain ⟨text, domain, areaId, limit⟩ := q
  have hmeets : y.Meets ⟨text, domain, areaId, limit⟩ ↔
      (∀ d ∈ domain, y.domain = d) ∧ ∀ a ∈ areaId, y.areaId = some a :=
    ⟨fun H => ⟨H.domain, H.areaId⟩, fun H => ⟨H.1, H.2⟩⟩
  rw [hmeets]
  unfold passes
  rw [Bool.and_eq_true]
  refine and_congr ?_ ?_
  · cases domain <;> simp
  · cases areaId <;> simp

/-- The ids of the devices that are left after some changes, in the order in which they were first added since they
were last taken out. -/
def Edit.arrivals (edits : List Edit) : List String := edits.foldl (fun ids d => d.onIds ids) []

theorem Edit.arrivals_concat (edits : List Edit) (d : Edit) :
    arrivals (edits ++ [d]) = d.onIds (arrivals edits) := List.foldl_concat ..

namespace EntityIndex

/-- Is a device of this id in the index, and does it meet the query? -/
def admits (x : EntityIndex) (q : Query) (entityId : String) : Bool :=
  (x.entries.find? entityId).any fun y => y.passes q.domain q.areaId

/-- What the answers `find` of an index keep to, whose devices arrived in the given order. -/
structure Ranks (x : EntityIndex) (arrivals : List String) (find : Query → List EntityMatch) : Prop where
  distinct : ∀ q, ((find q).map (·.entityId)).Nodup
  indexed : ∀ q, ∀ m ∈ find q, ∃ y, x.entries.find? m.entityId = some y ∧ y.Meets q
  -- by the order of all bit patterns, those of no number included
  descending : ∀ q, (find q).Pairwise fun a b => b.score.rank ≤ a.score.rank
  stable : ∀ q score, (((find q).filter fun m => m.score = score).map (·.entityId)).Sublist arrivals
  narrowed : ∀ q, find q =
    ((find (q.unfiltered x.entries.size)).filter fun m => x.admits q m.entityId).take q.limit
  shorter : ∀ q n, n ≤ q.limit → find { q with limit := n } <+: find q

end EntityIndex

variable {e : Embedder} {x : EntityIndex} {s : Shared}

/-! ## The rankings of some entries -/

namespace Embedder

variable {entries : List EntityEntry} {text : String} {domain areaId : Option String}

theorem map_entityId_filterMap_matchOf (found : Lookup) (text : String) (entries : List EntityEntry) :
    ((entries.filterMap (matchOf found text)).map (·.entityId)).Sublist (entries.map (·.entityId)) := by
  induction entries with
  | nil => exact .slnil
  | cons y entries ih =>
    cases hy : matchOf found text y with
    | none =>
      rw [List.filterMap_cons_none hy]
      exact ih.cons _
    | some m =>
      obtain ⟨score, -, rfl⟩ := Option.map_eq_some_iff.1 hy
      rw [List.filterMap_cons_some hy]
      exact ih.cons_cons _

/-- The matches of a ranking are those of the devices that pass the filters, sorted. -/
theorem exists_fullRanking_eq (e : Embedder) (entries : List EntityEntry) (text : String)
    (domain areaId : Option String) :
    ∃ found, e.fullRanking entries text domain areaId = stableSort ranksBefore found ∧
      (found.map (·.entityId)).Sublist
        ((entries.filter fun y => y.passes domain areaId).map (·.entityId)) := by
  unfold fullRanking
  cases Text.normalize? text with
  | none => exact ⟨[], rfl, List.nil_sublist _⟩
  | some text => exact ⟨_, rfl, map_entityId_filterMap_matchOf ..⟩

theorem nodup_fullRanking (h : (entries.map (·.entityId)).Nodup) :
    ((e.fullRanking entries text domain areaId).map (·.entityId)).Nodup := by
  obtain ⟨found, hfound, hsub⟩ := e.exists_fullRanking_eq entries text domain areaId
  rw [hfound, ((perm_stableSort ranksBefore found).map _).nodup_iff]
  exact h.sublist (hsub.trans (List.filter_sublist.map _))

theorem exists_of_mem_fullRanking {m : EntityMatch} (h : m ∈ e.fullRanking entries text domain areaId) :
    ∃ y ∈ entries, y.entityId = m.entityId ∧ y.passes domain areaId = true := by
  obtain ⟨found, hfound, hsub⟩ := e.exists_fullRanking_eq entries text domain areaId
  rw [hfound, mem_stableSort] at h
  obtain ⟨y, hy, hid⟩ := List.mem_map.1 (hsub.subset (List.mem_map.2 ⟨m, h, rfl⟩))
  obtain ⟨hy, hpasses⟩ := List.mem_filter.1 hy
  exact ⟨y, hy, hid, hpasses⟩

theorem pairwise_fullRanking (e : Embedder) (entries : List EntityEntry) (text : String)
    (domain areaId : Option String) :
    (e.fullRanking entries text domain areaId).Pairwise fun a b => b.score.rank ≤ a.score.rank := by
  obtain ⟨found, hfound, -⟩ := e.exists_fullRanking_eq entries text domain areaId
  rw [hfound]
  exact (pairwise_stableSort ranksBefore_total ranksBefore_trans found).imp of_decide_eq_true

/-- Devices of equal score stand in the order of the entries. -/
theorem map_entityId_filter_fullRanking (e : Embedder) (entries : List EntityEntry) (text : String)
    (domain areaId : Option String) (score : Binary32) :
    (((e.fullRanking entries text domain areaId).filter fun m => m.score = score).map (·.entityId)).Sublist
      (entries.map (·.entityId)) := by
  obtain ⟨found, hfound, hsub⟩ := e.exists_fullRanking_eq entries text domain areaId
  have hequal : ∀ a b : EntityMatch, decide (a.score = score) = true → decide (b.score = score) = true →
      ranksBefore a b = true := by
    intro a b ha hb
    rw [ranksBefore, of_decide_eq_true ha, of_decide_eq_true hb]
    exact decide_eq_true (Int.le_refl _)
  rw [hfound, filter_stableSort hequal]
  exact (List.filter_sublist.map _).trans (hsub.trans (List.filter_sublist.map _))

/-- The rankings of the entries of an index keep to the laws. -/
theorem ranks (e : Embedder) (H : x.Mirrors) : x.Ranks x.order (e.ranking x.ordered) where
  distinct q := by
    rw [ranking_eq_take]
    exact (nodup_fullRanking (H.map_entityId ▸ H.nodup_order)).sublist ((List.take_sublist ..).map _)
  indexed q m hm := by
    rw [ranking_eq_take] at hm
    obtain ⟨y, hy, hid, hpasses⟩ := exists_of_mem_fullRanking (List.mem_of_mem_take hm)
    exact ⟨y, hid ▸ H.find?_entityId (mem_values_of_mem_ordered hy), EntityEntry.passes_iff.1 hpasses⟩
  descending q := by
    rw [ranking_eq_take]
    exact (e.pairwise_fullRanking ..).sublist (List.take_sublist ..)
  stable q score := by
    rw [ranking_eq_take]
    refine .trans (((List.take_sublist ..).filter _).map _) ?_
    exact H.map_entityId ▸ e.map_entityId_filter_fullRanking ..
  narrowed q := by
    have hsize : x.ordered.length ≤ x.entries.size := by
      rw [H.ordered_eq, x.entries.length_values]
    have hadmits : ∀ y ∈ x.ordered,
        y.passes q.domain q.areaId = (y.passes none none && x.admits q y.entityId) := by
      intro y hy
      rw [admits, H.find?_entityId (mem_values_of_mem_ordered hy)]
      rfl
    rw [Query.unfiltered, ranking_eq_fullRanking hsize, fullRanking_narrow hadmits, ranking_eq_take]
  shorter q n hn := by
    rw [ranking_eq_take, ranking_eq_take]
    exact List.take_prefix_take_left hn

end Embedder

/-- Searching by letters ranks as an embedder without a provider. -/
theorem EntityIndex.Mirrors.ranks_searchExact (H : x.Mirrors) : x.Ranks x.order x.searchExact := by
  have hexact : x.searchExact = Embedder.ranking ⟨none, 0⟩ x.ordered :=
    funext fun q => searchExact_eq H q .noProvider
  rw [hexact]
  exact Embedder.ranks _ H

/-! ## Indexes in use -/

namespace EntityIndex

/-- The index and what it shares with others may come out of an empty index by these changes, with searches and copies
in between. -/
inductive Grown (e : Embedder) : List Edit → EntityIndex → Shared → Prop
  | empty {s : Shared} (maxSize : Nat) (ttl : Option Nat) :
      s.Reached e → Grown e [] ⟨[], .empty, .empty, .empty, .empty maxSize ttl, {}⟩ s
  | add {edits : List Edit} {x : EntityIndex} {s : Shared} (r : EntityRecord) :
      Grown e edits x s → Grown e (edits ++ [.add r]) (x.add e r s).1 (x.add e r s).2
  | remove {edits : List Edit} {x : EntityIndex} {s : Shared} (entityId : String) :
      Grown e edits x s → Grown e (edits ++ [.remove entityId]) (x.remove entityId).2 s
  | search {edits : List Edit} {x : EntityIndex} {s : Shared} (q : Query) :
      Grown e edits x s → Grown e edits (x.search e q s).2.1 (x.search e q s).2.2
  | fork {edits : List Edit} {x : EntityIndex} {s : Shared} :
      Grown e edits x s → Grown e edits x.fork s
  -- time goes by, and copies of the index and whoever else has the embedder use it
  | meanwhile {edits : List Edit} {x : EntityIndex} {s t : Shared} :
      Grown e edits x s → t.Reached e → s.now ≤ t.now → Grown e edits x t

namespace Grown

variable {edits : List Edit}

/-- What an index in use keeps. -/
structure Sound (e : Embedder) (edits : List Edit) (x : EntityIndex) (s : Shared) : Prop where
  built : x.Built e
  current : x.Current e
  order : x.order = Edit.arrivals edits
  reached : s.Reached e

theorem sound (he : e.Steady) (H : Grown e edits x s) : Sound e edits x s := by
  induction H with
  | empty maxSize ttl hs => exact ⟨.of_empty rfl rfl rfl rfl, current_of_entries_eq_nil rfl, rfl, hs⟩
  | @add edits x s r _ ih =>
    obtain ⟨t, hadd, -, hleads⟩ := add_spec he (ih.reached.coherent he) r x
    rw [hadd]
    refine ⟨ih.built.store he r, current_of_entries_eq_nil (store_queries ..), ?_, hleads.reached ih.reached⟩
    rw [ih.built.mirrors.order_store, Edit.arrivals_concat, ih.order]
    rfl
  | @remove edits x s id _ ih =>
    refine ⟨ih.built.remove id, ih.current.remove id, ?_, ih.reached⟩
    rw [ih.built.mirrors.order_remove, Edit.arrivals_concat, ih.order]
    rfl
  | search q _ ih =>
    obtain ⟨found, z, t, hsearch, A, -, hleads, hfound⟩ :=
      search_spec ih.built.mirrors ih.built.measured he (ih.reached.coherent he) q
    rw [hsearch]
    exact ⟨ih.built.of_alike A, (hfound ih.current).2, A.order ▸ ih.order, hleads.reached ih.reached⟩
  | fork _ ih => exact ⟨ih.built.of_alike ⟨rfl, rfl, rfl, rfl⟩, current_of_entries_eq_nil rfl, ih.order, ih.reached⟩
  | meanwhile _ ht _ ih => exact ⟨ih.built, ih.current, ih.order, ht⟩

theorem advance (he : e.Steady) (H : Grown e edits x s) (ms : Nat) : Grown e edits x (s.advance ms) :=
  H.meanwhile ((H.sound he).reached.advance ms) (Nat.le_add_right ..)

theorem applyAll (more : List Edit) (H : Grown e edits x s) :
    Grown e (edits ++ more) (Edit.applyAll e more (x, s)).1 (Edit.applyAll e more (x, s)).2 := by
  induction more generalizing edits x s with
  | nil => exact (List.append_nil edits).symm ▸ H
  | cons d more ih =>
    rw [List.append_cons]
    cases d with
    | add r => exact ih (H.add r)
    | remove id => exact ih (H.remove id)

/-- Both searches of an index in use keep to the laws of rankings; the search by name never fails, and what it finds
depends on the devices and the query alone. -/
theorem search_ranks (he : e.Steady) (H : Grown e edits x s) :
    (∀ q, (x.search e q s).1 = .ok (e.ranking x.ordered q)) ∧
      x.Ranks (Edit.arrivals edits) (e.ranking x.ordered) ∧
      x.Ranks (Edit.arrivals edits) x.searchExact := by
  obtain ⟨built, current, order, reached⟩ := H.sound he
  rw [← order]
  exact ⟨built.search_eq current he (reached.coherent he), e.ranks built.mirrors, built.mirrors.ranks_searchExact⟩

/-- Three lamps are added, and one of them is renamed. -/
def firstEdits : List Edit :=
  [.add Sample.wledOffice, .add Sample.officeLamp,
    .add (Sample.device "light.bedside" [(.primaryName, "Bedside Lamp")] "bedroom" "Bedroom"),
    .add (Sample.device "light.wled_office" [(.primaryName, "Desk Lamp")] "office" "Office")]

/-- One of the lamps is taken out and comes back. -/
def laterEdits : List Edit := [.remove "light.office_lamp", .add Sample.officeLamp]

def lampEmbedder : Embedder := ⟨some (.keywords [("lamp", "light")]), 200⟩

/-- The lamps once they were searched, and a minute later in a copy of the index. -/
def lamps : EntityIndex × Shared :=
  let first := Edit.applyAll lampEmbedder firstEdits (.empty Settings.default.queryCache,
    .start Settings.default.embeddingCache)
  let searched := first.1.search lampEmbedder ⟨" Lamp", none, some "office", 1⟩ first.2
  Edit.applyAll lampEmbedder laterEdits (searched.2.1.fork, searched.2.2.advance 60000)

/-- The renamed lamp keeps its place, and the one that came back is the last. -/
theorem search_ranks_lamps :
    lampEmbedder.Steady ∧ Grown lampEmbedder (firstEdits ++ laterEdits) lamps.1 lamps.2 ∧
      Edit.arrivals (firstEdits ++ laterEdits) =
        ["light.wled_office", "light.bedside", "light.office_lamp"] ∧
      (∀ q, (lamps.1.search lampEmbedder q lamps.2).1 =
        .ok (lampEmbedder.ranking lamps.1.ordered q)) ∧
      lamps.1.Ranks (Edit.arrivals (firstEdits ++ laterEdits))
        (lampEmbedder.ranking lamps.1.ordered) ∧
      lamps.1.Ranks (Edit.arrivals (firstEdits ++ laterEdits)) lamps.1.searchExact := by
  have he : lampEmbedder.Steady := Embedder.steady_keywords _ _
  have hstart : Grown lampEmbedder [] (.empty Settings.default.queryCache)
      (.start Settings.default.embeddingCache) := .empty _ _ (reached_start _ _)
  have hlamps : Grown lampEmbedder (firstEdits ++ laterEdits) lamps.1 lamps.2 :=
    ((((hstart.applyAll firstEdits).search _).advance he _).fork).applyAll laterEdits
  exact ⟨he, hlamps, by decide, search_ranks he hlamps⟩

end Grown

end EntityIndex

end DeviceNaming
