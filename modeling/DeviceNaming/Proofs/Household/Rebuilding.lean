import DeviceNaming.Household.Sample
import DeviceNaming.Proofs.Household.Run

/-!
# Changing a household is as good as building it anew

An index that devices were added to and taken out of answers like one that is built from the records that
survived (`EntityIndex.SameAnswers`). This holds for an index by itself and for the current household of a user
after any run: `Resolver.edited_as_rebuilt`. The reverse indexes of the two may list ids in different
orders; no answer depends on that.
-/

namespace DeviceNaming

attribute [local irreducible] Text.normalize Text.trimmed

namespace EntityIndex

/-- Two indexes give the same answers, whatever their caches and counters are. -/
structure SameAnswers (e : Embedder) (x y : EntityIndex) : Prop where
  search : ∀ q s t, s.Reached e → t.Reached e →
    ∃ found, (x.search e q s).1 = .ok found ∧ (y.search e q t).1 = .ok found
  searchExact : ∀ q, x.searchExact q = y.searchExact q
  ids : x.order = y.order
  entry : ∀ id, x.entries.find? id = y.entries.find? id
  areaMap : x.areaMap = y.areaMap
  inArea : ∀ a id, id ∈ x.inArea a ↔ id ∈ y.inArea a

variable {e : Embedder} {x y : EntityIndex}

/-- The entries decide all answers. -/
theorem Built.sameAnswers (he : e.Steady) (H : x.Built e) (C : x.Current e) (H' : y.Built e)
    (C' : y.Current e) (h : x.entries = y.entries) : x.SameAnswers e y := by
  have hordered : y.ordered = x.ordered := by
    rw [H.mirrors.ordered_eq, H'.mirrors.ordered_eq, h]
  constructor
  · intro q s t hs ht
    refine ⟨_, H.search_eq C he (hs.coherent he) q, ?_⟩
    rw [H'.search_eq C' he (ht.coherent he), hordered]
  · intro q
    rw [searchExact_eq H.mirrors q .noProvider, searchExact_eq H'.mirrors q .noProvider, hordered]
  · rw [H.mirrors.order, H'.mirrors.order, h]
  · intro id
    rw [h]
  · rw [areaMap, h, areaMap]
  · intro a id
    rw [inArea, inArea, H.mirrors.places, H'.mirrors.places, h]

theorem empty_lists (e : Embedder) (c : CacheSettings) : e.Lists [] (empty c).entries := rfl

theorem built_empty (e : Embedder) (c : CacheSettings) : (empty c).Built e := .of_empty rfl rfl rfl rfl

/-- An index that lists some records answers like one that is built from them. -/
theorem sameAnswers_ofRecords (he : e.Steady) (H : x.Built e) (C : x.Current e) {rs : List EntityRecord}
    (L : e.Lists rs x.entries) (hrs : (rs.map (·.entityId)).Nodup) (c : CacheSettings) {t : Shared}
    (ht : t.Reached e) : x.SameAnswers e (ofRecords e c rs t).1 := by
  obtain ⟨H', L', C'⟩ := edited_spec he (rs.map .add) (built_empty e c) (empty_lists e c)
    (current_of_entries_eq_nil rfl) (ht.coherent he)
  rw [Edit.survivors_add rs [] hrs, List.nil_append] at L'
  -- both list the same records, so the entries are the same
  rw [ofRecords_eq]
  refine H.sameAnswers he C H' C' ?_
  exact congrArg Roster.mk (L.trans L'.symm)

/-- An index that was changed answers like one that is built from the survivors. -/
theorem edited_sameAnswers (he : e.Steady) (c c' : CacheSettings) {s t : Shared} (hs : s.Reached e)
    (ht : t.Reached e) (edits : List Edit) :
    (Edit.applyAll e edits (empty c, s)).1.SameAnswers e
      (ofRecords e c' (Edit.survivors edits []) t).1 := by
  obtain ⟨H, L, C⟩ := edited_spec he edits (built_empty e c) (empty_lists e c)
    (current_of_entries_eq_nil rfl) (hs.coherent he)
  exact sameAnswers_ofRecords he H C L (Edit.nodup_survivors edits List.nodup_nil) c' ht

end EntityIndex

/-! ## The household of a user -/

/-- The changes to the devices of a user after a command. A household that is built anew starts with its records. -/
def Command.editsOf (user : String) (edits : List Edit) : Command → List Edit
  | rebuild u _ entities => if u = user then entities.map .add else edits
  | upsertEntity u record => if u = user then edits ++ [.add record] else edits
  | removeEntity u entityId => if u = user then edits ++ [.remove entityId] else edits
  | _ => edits

/-- The changes to the devices of a user since the household was last built anew. -/
def Command.editsSince (user : String) (cmds : List Command) : List Edit := cmds.foldl (editsOf user) []

namespace Contents

variable {e : Embedder}

theorem lists_foldl {rs : List EntityRecord} (entities : List EntityRecord) {c : Contents}
    (L : e.Lists rs c.entities) (hrs : (rs.map (·.entityId)).Nodup) :
    e.Lists (Edit.survivors (entities.map .add) rs) (entities.foldl (·.withEntity e) c).entities := by
  induction entities generalizing c rs with
  | nil => exact L
  | cons r entities ih => exact ih (L.add hrs r) (Edit.nodup_onRecords hrs (.add r))

theorem entities_foldl_withArea (areas : List AreaRecord) (c : Contents) :
    (areas.foldl (·.withArea e) c).entities = c.entities := by
  induction areas generalizing c with
  | nil => rfl
  | cons r areas ih => exact ih _

theorem lists_ofRecords (threshold : Binary32) (areas : List AreaRecord) (entities : List EntityRecord) :
    e.Lists (Edit.survivors (entities.map .add) []) (ofRecords e threshold areas entities).entities := by
  refine lists_foldl entities ?_ List.nodup_nil
  rw [entities_foldl_withArea]
  rfl

end Contents

namespace Command

variable {r : Resolver} {user : String} {known : Option Contents} {edits : List Edit}

theorem editsOf_of_not_concerns {cmd : Command} (h : cmd.concerns user = false) : cmd.editsOf user edits = edits := by
  cases cmd with
  | rebuild | upsertEntity | removeEntity => exact if_neg (of_decide_eq_false h)
  | upsertArea | invalidate | cleanup | resolve | advance => rfl

/-- A command keeps what is known in step with the changes to the devices. -/
theorem lists_result
    (hknown : ∀ c, known = some c → r.embedder.Lists (Edit.survivors edits []) c.entities)
    (cmd : Command) {c : Contents} (hc : (cmd.effect r user known).result known = some c) :
    r.embedder.Lists (Edit.survivors (cmd.editsOf user edits) []) c.entities := by
  cases hcmd : cmd.concerns user with
  | false =>
    rw [(effect_of_not_concerns hcmd known).2] at hc
    rw [editsOf_of_not_concerns hcmd]
    exact hknown c hc
  | true =>
    have hnodup : ((Edit.survivors edits []).map (·.entityId)).Nodup :=
      Edit.nodup_survivors edits List.nodup_nil
    cases cmd with
    | rebuild u areas entities =>
      obtain rfl := of_decide_eq_true hcmd
      rw [effect, if_pos rfl] at hc
      rw [editsOf, if_pos rfl]
      cases hc
      exact Contents.lists_ofRecords ..
    | upsertEntity u record =>
      obtain rfl := of_decide_eq_true hcmd
      rw [effect, if_pos rfl, changing_result] at hc
      rw [editsOf, if_pos rfl, Edit.survivors_append]
      obtain ⟨c', hc', rfl⟩ := Option.map_eq_some_iff.1 hc
      exact (hknown c' hc').add hnodup record
    | removeEntity u entityId =>
      obtain rfl := of_decide_eq_true hcmd
      rw [effect, if_pos rfl, removing_result] at hc
      rw [editsOf, if_pos rfl, Edit.survivors_append]
      obtain ⟨c', hc', rfl⟩ := Option.map_eq_some_iff.1 hc
      exact (hknown c' hc').remove entityId
    | upsertArea u record =>
      -- areas are no devices
      obtain rfl := of_decide_eq_true hcmd
      rw [effect, if_pos rfl, changing_result] at hc
      obtain ⟨c', hc', rfl⟩ := Option.map_eq_some_iff.1 hc
      exact hknown c' hc'
    | invalidate u =>
      obtain rfl := of_decide_eq_true hcmd
      rw [effect, if_pos rfl] at hc
      cases hc
    | advance ms => exact hknown c hc
    | cleanup => cases hcmd
    | resolve => cases hcmd

end Command

namespace Resolver

open ResolverState

variable {r : Resolver}

/-- What is known of a user lists what survives of the records. -/
theorem run_lists (he : r.embedder.Steady) (cmds : List Command) (user : String) :
    ∀ c, (r.run cmds).known (r.run cmds).shared.now user = some c →
      r.embedder.Lists (Edit.survivors (Command.editsSince user cmds) []) c.entities := by
  refine (run_induction he (P := fun cmds st => ∀ c, st.known st.shared.now user = some c →
    r.embedder.Lists (Edit.survivors (Command.editsSince user cmds) []) c.entities) ?_ ?_ cmds).2
  · intro c hc
    rw [known_start] at hc
    cases hc
  · intro cmds cmd st next _ hlists S c hc
    rw [Command.editsSince, List.foldl_append]
    exact Command.lists_result hlists cmd (S.result_of_known hc)

/-- Two kinds of changes are as good as building anew: those of an index by itself, and those that an updater
makes to the household of a user. -/
theorem edited_as_rebuilt (he : r.embedder.Steady) :
    (∀ (c c' : CacheSettings) (s t : Shared), s.Reached r.embedder → t.Reached r.embedder →
      ∀ (records : List EntityRecord) (edits : List Edit),
        (Edit.applyAll r.embedder edits (EntityIndex.ofRecords r.embedder c records s)).1.SameAnswers
          r.embedder
          (EntityIndex.ofRecords r.embedder c' (Edit.survivors (records.map .add ++ edits) []) t).1) ∧
    ∀ (cmds : List Command) (user : String) (n : Nat) (h : Household),
      ((r.run cmds).current user false).1 = some (n, h) →
        ∀ (c : CacheSettings) (t : Shared), t.Reached r.embedder →
          h.entities.SameAnswers r.embedder
            (EntityIndex.ofRecords r.embedder c
              (Edit.survivors (Command.editsSince user cmds) []) t).1 := by
  constructor
  · intro c c' s t hs ht records edits
    rw [EntityIndex.ofRecords_eq r.embedder c, ← Edit.applyAll_append]
    exact EntityIndex.edited_sameAnswers he c c' hs ht _
  · intro cmds user n h hcurrent c t ht
    rcases (run_sound he cmds).current_cases user with ⟨hnone, -⟩ | ⟨m, h', hsome, -, hh, hknown⟩
    · cases hnone.symm.trans hcurrent
    · cases hsome.symm.trans hcurrent
      exact EntityIndex.sameAnswers_ofRecords he hh.built hh.current (run_lists he cmds user _ hknown)
        (Edit.nodup_survivors _ List.nodup_nil) c ht

/-- A device of the office is taken out and comes back. -/
def comeBack : List Edit := [.remove "light.wled_office", .add Sample.wledOffice]

/-- The same for the household of a user. -/
def comeBackHome : List Command := [
  .rebuild "ann" [] [Sample.wledOffice, Sample.officeLamp], .removeEntity "ann" "light.wled_office",
  .upsertEntity "ann" Sample.wledOffice]

theorem edited_as_rebuilt_office :
    let e := (Sample.resolver (some (.keywords []))).embedder
    let s := Shared.start Settings.default.embeddingCache
    let before := EntityIndex.ofRecords e ⟨9, none⟩ [Sample.wledOffice, Sample.officeLamp] s
    let after := EntityIndex.ofRecords e ⟨1, some 0⟩ [Sample.officeLamp, Sample.wledOffice] s
    (Edit.applyAll e comeBack before).1.SameAnswers e after.1 ∧
      ∃ n h, (((Sample.resolver (some (.keywords []))).run comeBackHome).current "ann" false).1 = some (n, h) ∧
        h.entities.SameAnswers e after.1 := by
  intro e s before after
  obtain ⟨hindex, hhousehold⟩ := edited_as_rebuilt (r := Sample.resolver (some (.keywords [])))
    (Embedder.steady_keywords [] _)
  refine ⟨?_, ?_⟩
  · have hedited := hindex ⟨9, none⟩ ⟨1, some 0⟩ s s (reached_start _ _) (reached_start _ _)
      [Sample.wledOffice, Sample.officeLamp] comeBack
    have hleft : Edit.survivors ([Sample.wledOffice, Sample.officeLamp].map .add ++ comeBack) [] =
        [Sample.officeLamp, Sample.wledOffice] := by decide +kernel
    rw [hleft] at hedited
    exact hedited
  · have hlive : (((Sample.resolver (some (.keywords []))).run comeBackHome).current "ann" false).1.isSome =
        true := by decide +kernel
    obtain ⟨⟨n, h⟩, hcurrent⟩ := Option.isSome_iff_exists.1 hlive
    have hleft : Edit.survivors (Command.editsSince "ann" comeBackHome) [] =
        [Sample.officeLamp, Sample.wledOffice] := by decide +kernel
    have hanswers := hhousehold comeBackHome "ann" n h hcurrent ⟨1, some 0⟩ s (reached_start _ _)
    rw [hleft] at hanswers
    exact ⟨n, h, hcurrent, hanswers⟩

end Resolver

end DeviceNaming
