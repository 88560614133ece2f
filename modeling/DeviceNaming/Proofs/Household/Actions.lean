import DeviceNaming.Household.Sample
import DeviceNaming.Proofs.Household.Dimension
import DeviceNaming.Proofs.Household.Run

/-!
# No comparison fails

Besides its commands, a resolver builds households for others to use, and who holds a household can copy it, change it
and search it, while the caches run full, expire and are cleared (`Action`). With any provider that declares a
dimension no embedding of another dimension gets anywhere, and no action fails: `Resolver.never_mismatched`.
-/

namespace DeviceNaming

attribute [local irreducible] Text.normalize Text.trimmed

/-- What can be done with a resolver and with the households that it built, which are known by number. -/
inductive Action where
  | command (c : Command)
  | build (areas : List AreaRecord) (entities : List EntityRecord)
  | fork (n : Nat)
  | use (n : Nat) (u : Household.Use)
  | embed (text : String)
  | clearEmbeddings
  | clearIndexes

namespace Resolver

/-- Whether embeddings could be compared during a command. -/
def outcome (r : Resolver) (st : ResolverState) : Command → Except DimensionMismatch Unit
  | .resolve user query domain limit => (r.resolve user query domain limit st).1.map fun _ => ()
  | _ => .ok ()

/-- Whether embeddings could be compared during an action, and the memory after it. An action on a household that
does not exist does nothing. -/
def act (r : Resolver) (st : ResolverState) : Action → Except DimensionMismatch Unit × ResolverState
  | .command c => (r.outcome st c, r.perform st c)
  | .build areas entities =>
      let (h, shared) := Household.build r.embedder r.settings areas entities st.shared
      (.ok (), { st with shared, editions := st.editions ++ [h] })
  | .fork n =>
      match st.editions[n]? with
      | none => (.ok (), st)
      | some h => (.ok (), { st with editions := st.editions ++ [h.fork] })
  | .use n u =>
      match st.editions[n]? with
      | none => (.ok (), st)
      | some h =>
          let (outcome, h, shared) := u.apply r.embedder h st.shared
          (outcome, { st with shared, editions := st.editions.set n h })
  | .embed text => (.ok (), { st with shared := (r.embedder.embed text st.shared).2 })
  | .clearEmbeddings => (.ok (), { st with shared := st.shared.clearCache })
  | .clearIndexes => (.ok (), { st with cache := st.cache.clear })

/-- The memory after actions from the start. -/
def after (r : Resolver) (actions : List Action) : ResolverState :=
  actions.foldl (fun st a => (r.act st a).2) r.start

end Resolver

variable {e : Embedder} {r : Resolver} {st : ResolverState}

namespace ResolverState

/-- All embeddings in the embedding cache and in the households are of the declared dimension. -/
structure Measured (e : Embedder) (st : ResolverState) : Prop where
  shared : st.shared.Keeps e.fitting
  editions : ∀ h ∈ st.editions, h.Measured e

theorem measured_start (r : Resolver) : r.start.Measured e := ⟨.of_entries_eq_nil rfl, nofun⟩

namespace Measured

theorem current (M : st.Measured e) (user : String) : (st.current user false).2.Measured e :=
  ⟨M.shared, M.editions⟩

theorem withShared (M : st.Measured e) {s : Shared} (hs : s.Keeps e.fitting) :
    { st with shared := s }.Measured e := ⟨hs, M.editions⟩

theorem concat (M : st.Measured e) {h : Household} (hh : h.Measured e) :
    ∀ h' ∈ st.editions ++ [h], h'.Measured e :=
  List.forall_mem_append.2 ⟨M.editions, List.forall_mem_singleton.2 hh⟩

theorem publish (M : st.Measured e) {h : Household} (hh : h.Measured e) (user : String) :
    (st.publish user h).2.Measured e := ⟨M.shared, M.concat hh⟩

theorem note (M : st.Measured e) {n : Nat} {h : Household} (hn : st.editions[n]? = some h) {x : EntityIndex}
    (hx : { h with entities := x }.Measured e) {s : Shared} (hs : s.Keeps e.fitting) :
    (st.note n x s).Measured e := by
  refine ⟨hs, fun h' hh' => ?_⟩
  rcases mem_editions_note hn hh' with rfl | hh'
  · exact hx
  · exact M.editions h' hh'

end Measured

end ResolverState

namespace Resolver

open ResolverState

/-! ## Commands -/

theorem measured_update (M : st.Measured e) (user : String)
    {change : Household → Shared → Household × Shared}
    (hchange : ∀ {h : Household}, h.Measured e → (change h st.shared).1.Measured e ∧
      (change h st.shared).2.Keeps e.fitting) :
    (update user change st).2.Measured e := by
  have M' := M.current user
  have hshared : (st.current user false).2.shared = st.shared := rfl
  rcases hc : st.current user false with ⟨_ | ⟨n, h⟩, st'⟩
  · rw [hc] at M'
    rw [update, hc]
    exact M'
  · rw [hc] at M' hshared
    have hh := M'.editions h (List.mem_of_getElem? (of_current_eq_some hc).1)
    obtain ⟨hh', hs⟩ := hchange hh.fork
    rw [update, hc]
    dsimp only at hshared ⊢
    rw [hshared]
    exact (M'.withShared hs).publish hh' user

theorem measured_removeEntity (M : st.Measured e) (user entityId : String) :
    (removeEntity user entityId st).2.Measured e := by
  have M' := M.current user
  rcases hc : st.current user false with ⟨_ | ⟨n, h⟩, st'⟩
  · rw [hc] at M'
    rw [removeEntity, hc]
    exact M'
  · rw [hc] at M'
    have hh := M'.editions h (List.mem_of_getElem? (of_current_eq_some hc).1)
    rw [removeEntity, hc]
    dsimp only
    split
    · exact M'.publish (hh.fork.removeEntity entityId) user
    · exact M'

/-- A query is answered, and what it leaves behind is of the declared dimension. -/
theorem measured_resolve (hd : r.embedder.Declared) (M : st.Measured r.embedder) (user query : String)
    (domain : Option String) (limit : Option Nat) :
    ∃ answer st', r.resolve user query domain limit st = (.ok answer, st') ∧ st'.Measured r.embedder := by
  have M' := M.current user
  rcases hc : st.current user false with ⟨_ | ⟨n, h⟩, st'⟩
  · rw [hc] at M'
    rw [resolve, hc]
    exact ⟨_, _, rfl, M'⟩
  · rw [hc] at M'
    have hn := (of_current_eq_some hc).1
    obtain ⟨answer, x, s, hresolve, hx, hs⟩ := (M'.editions h (List.mem_of_getElem? hn)).resolveIn hd
      M'.shared query domain (limit.getD r.defaultLimit)
    rw [resolve, hc]
    dsimp only at M' hresolve ⊢
    rw [hresolve]
    exact ⟨answer, _, rfl, M'.note hn hx hs⟩

theorem measured_perform (hd : r.embedder.Declared) (M : st.Measured r.embedder) (c : Command) :
    r.outcome st c = .ok () ∧ (r.perform st c).Measured r.embedder := by
  cases c with
  | rebuild user areas entities =>
    obtain ⟨hh, hs⟩ := Household.measured_build hd M.shared r.settings areas entities
    exact ⟨rfl, (M.withShared hs).publish hh user⟩
  | upsertEntity user record => exact ⟨rfl, measured_update M user fun hh => hh.addEntity hd M.shared record⟩
  | upsertArea user record => exact ⟨rfl, measured_update M user fun hh => hh.addArea hd M.shared record⟩
  | removeEntity user entityId => exact ⟨rfl, measured_removeEntity M user entityId⟩
  | invalidate user => exact ⟨rfl, M.shared, M.editions⟩
  | cleanup => exact ⟨rfl, M.shared.cleanup, M.editions⟩
  | resolve user query domain limit =>
    obtain ⟨answer, st', hresolve, M'⟩ := measured_resolve hd M user query domain limit
    rw [outcome, perform, hresolve]
    exact ⟨rfl, M'⟩
  | advance ms => exact ⟨rfl, M.shared.advance ms, M.editions⟩

/-! ## All actions -/

/-- No action fails, and each leaves all embeddings of the declared dimension. -/
theorem measured_act (hd : r.embedder.Declared) (M : st.Measured r.embedder) (a : Action) :
    (r.act st a).1 = .ok () ∧ (r.act st a).2.Measured r.embedder := by
  cases a with
  | command c => exact measured_perform hd M c
  | build areas entities =>
    obtain ⟨hh, hs⟩ := Household.measured_build hd M.shared r.settings areas entities
    exact ⟨rfl, hs, M.concat hh⟩
  | fork n =>
    rw [act]
    split
    · exact ⟨rfl, M⟩
    · rename_i h hn
      exact ⟨rfl, M.shared, M.concat (M.editions h (List.mem_of_getElem? hn)).fork⟩
  | use n u =>
    rw [act]
    split
    · exact ⟨rfl, M⟩
    · rename_i h hn
      obtain ⟨h', t, happly, hh', ht⟩ := (M.editions h (List.mem_of_getElem? hn)).apply hd M.shared u
      rw [happly]
      refine ⟨rfl, ht, fun h'' hmem => ?_⟩
      rcases List.mem_or_eq_of_mem_set hmem with hmem | rfl
      · exact M.editions h'' hmem
      · exact hh'
  | embed text => exact ⟨rfl, (M.shared.embed hd.obeys text).2, M.editions⟩
  | clearEmbeddings => exact ⟨rfl, .clear, M.editions⟩
  | clearIndexes => exact ⟨rfl, M.shared, M.editions⟩

theorem measured_after (hd : r.embedder.Declared) (actions : List Action) :
    (r.after actions).Measured r.embedder := by
  suffices hfold : ∀ st : ResolverState, st.Measured r.embedder →
      (actions.foldl (fun st a => (r.act st a).2) st).Measured r.embedder from
    hfold r.start (measured_start r)
  induction actions with
  | nil => exact fun st M => M
  | cons a actions ih => exact fun st M => ih _ (measured_act hd M a).2

theorem after_commands (r : Resolver) (cmds : List Command) : r.after (cmds.map .command) = r.run cmds := by
  rw [after, List.foldl_map]
  rfl

theorem measured_run (hd : r.embedder.Declared) (cmds : List Command) :
    (r.run cmds).Measured r.embedder :=
  after_commands r cmds ▸ measured_after hd _

/-- Whatever a provider answers and whatever was done before, all embeddings are of the declared dimension and
the next action does not fail. -/
theorem never_mismatched (hd : r.embedder.Declared) (actions : List Action) :
    (∀ entry ∈ (r.after actions).shared.cache.entries, r.embedder.Fits entry.value) ∧
      (∀ h ∈ (r.after actions).editions, h.Measured r.embedder) ∧
      ∀ a, (r.act (r.after actions) a).1 = .ok () := by
  have M := measured_after hd actions
  refine ⟨fun entry hentry => ?_, M.editions, fun a => (measured_act hd M a).1⟩
  exact (M.shared entry hentry).2 entry.value rfl

/-- A provider of vectors of two components that keeps its word only now and then: by how many texts it was asked for,
its answer is right, too short, empty, late or an error. -/
def fickle : Provider where
  dimension := 2
  reply now asked text :=
    match asked.length % 6 with
    | 0 => ⟨0, .ok [.one, .zero]⟩
    | 1 => ⟨0, .ok [.one]⟩
    | 2 => ⟨now + 10, .ok [.zero, .one]⟩
    | 3 => ⟨0, .ok []⟩
    | 4 => ⟨7000, .ok [.zero, .one]⟩
    | _ => ⟨0, .error (.provider text)⟩

/-- Two lamps in an office, and a copy in which one of them loses its embedding before the copy is searched. -/
def fickleActions : List Action := [
  .command (.rebuild "ann" [.new "office" "Office", .new "hall" "Hall"] [Sample.officeLamp, Sample.wledOffice]),
  .use 0 (.search ⟨"bulb", none, none, 5⟩), .fork 0, .clearEmbeddings,
  .use 1 (.addEntity Sample.officeLamp), .use 1 (.search ⟨"lamp", none, none, 5⟩)]

theorem never_mismatched_fickle :
    let r := Sample.resolver (some fickle)
    (0 < fickle.dimension ∧ (r.after fickleActions).shared.metrics.dimensionMismatches = 2 ∧
        (r.after fickleActions).editions.map (·.entities.counters.semanticSearches) = [0, 1]) ∧
      (∀ entry ∈ (r.after fickleActions).shared.cache.entries, r.embedder.Fits entry.value) ∧
      (∀ h ∈ (r.after fickleActions).editions, h.Measured r.embedder) ∧
      ∀ a, (r.act (r.after fickleActions) a).1 = .ok () := by
  refine ⟨by decide +kernel, never_mismatched ?_ fickleActions⟩
  rintro p ⟨⟩
  exact Nat.succ_pos 1

end Resolver

end DeviceNaming
