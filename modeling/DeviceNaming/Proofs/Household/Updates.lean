import DeviceNaming.Proofs.Cache.IndexHistory
import DeviceNaming.Proofs.Entity.Mirror
import DeviceNaming.Proofs.Household.Actions

/-!
# An update touches what it names

An update of a user without a current edition leaves nothing behind but a count, and the edition that was too old is
gone (`IndexCache.missed`). Any other update leaves the memory as it is or publishes one edition, for this user
(`ResolverState.Publishes`): a copy of the current one in which nothing but the device or the area that the update
names may differ (`Household.DiffersInEntity`, `Household.DiffersInArea`). The main statement is
`Resolver.Reaches.updated`, for every memory that a resolver can have (`Resolver.Reaches`) and any provider.
-/

namespace DeviceNaming

attribute [local irreducible] Text.normalize Text.trimmed

/-! ## Lookups of the index cache -/

namespace IndexCache

variable {ι : Type} {c : IndexCache ι} {now : Nat} {user : String}

/-- A lookup that gave an index. -/
def hit (c : IndexCache ι) : IndexCache ι :=
  { c with counters := { c.counters with hits := c.counters.hits + 1 } }

/-- A lookup that gave none. If the user had an index, it was too old, and it is dropped. -/
def missed (c : IndexCache ι) (user : String) : IndexCache ι :=
  { c with
    entries := c.entries.erase user
    counters := { c.counters with
      misses := c.counters.misses + 1
      expirations := c.counters.expirations + if c.entries.contains user then 1 else 0 } }

theorem get_of_fresh?_eq_some {i : ι} (h : c.fresh? now user = some i) :
    c.get now user false = (some i, c.hit) := by
  have hget := (c.get_spec now user).1.trans h
  obtain ⟨⟨⟩, -⟩ | ⟨-, -, hnone⟩ | ⟨x, -, -, ⟨-, hnone⟩ | ⟨-, hsome⟩⟩ := c.get_cases now user false
  · cases hget.symm.trans (congrArg Prod.fst hnone)
  · cases hget.symm.trans (congrArg Prod.fst hnone)
  · exact hsome.trans (Prod.ext ((congrArg Prod.fst hsome).symm.trans hget) rfl)

theorem get_of_fresh?_eq_none (h : c.fresh? now user = none) : c.get now user false = (none, c.missed user) := by
  have hget := (c.get_spec now user).1.trans h
  obtain ⟨⟨⟩, -⟩ | ⟨-, hfind, hnone⟩ | ⟨x, -, hfind, ⟨-, hnone⟩ | ⟨-, hsome⟩⟩ := c.get_cases now user false
  · rw [hnone, missed, Roster.erase_eq_self hfind, Roster.contains, hfind]
    rfl
  · rw [hnone, missed, Roster.contains, hfind]
    rfl
  · cases hget.symm.trans (congrArg Prod.fst hsome)

theorem contains_of_fresh? {i : ι} (h : c.fresh? now user = some i) : c.entries.contains user = true := by
  obtain ⟨x, hx, -⟩ := Option.map_eq_some_iff.1 h
  rw [Roster.contains, (Option.filter_eq_some_iff.1 hx).1]
  rfl

namespace Tidy

variable {P : ι → Prop}

theorem lookUp (H : c.Tidy P) (now : Nat) (user : String) (force : Bool) : (c.get now user force).2.Tidy P := by
  cases force with
  | true => exact ⟨H.distinct, H.all⟩
  | false => exact H.get now user

theorem clear : c.clear.Tidy P := ⟨List.nodup_nil, nofun⟩

/-- Any use of an index cache puts in what it puts in, and nothing else. -/
theorem apply (H : c.Tidy P) (now : Nat) {u : IndexUse ι} (hu : ∀ user i, u = .put user i → P i) :
    (u.apply now c).Tidy P := by
  cases u with
  | get user force => exact H.lookUp now user force
  | put user i => exact H.put (hu user i rfl) now user
  | invalidate user => exact H.invalidate user
  | clear => exact clear
  | cleanup => exact H.cleanup now

end Tidy

end IndexCache

/-! ## The memories of a resolver -/

/-- What a resolver can have in memory: it does any actions, and who has it at hand looks into the index cache, puts a
household there that was built before, or uses what all embedders share. -/
inductive Resolver.Reaches (r : Resolver) : ResolverState → Prop
  | start : r.Reaches r.start
  | act {st : ResolverState} (a : Action) : r.Reaches st → r.Reaches (r.act st a).2
  | useIndexes {st : ResolverState} (u : IndexUse Nat) :
      (∀ user n, u = .put user n → n < st.editions.length) → r.Reaches st →
      r.Reaches { st with cache := u.apply st.shared.now st.cache }
  | useShared {st : ResolverState} (s : Shared) : r.Reaches st → r.Reaches { st with shared := s }

theorem Resolver.reaches_after (r : Resolver) (actions : List Action) : r.Reaches (r.after actions) := by
  suffices hfold : ∀ st, r.Reaches st → r.Reaches (actions.foldl (fun st a => (r.act st a).2) st) from
    hfold r.start .start
  induction actions with
  | nil => exact fun st H => H
  | cons a actions ih => exact fun st H => ih _ (.act a H)

namespace ResolverState

variable {st : ResolverState} {user : String} {n : Nat} {h : Household}

/-- What the index cache holds for users are published editions. -/
def Backed (st : ResolverState) : Prop := st.cache.Tidy (· < st.editions.length)

theorem length_editions_concat (st : ResolverState) (h : Household) :
    (st.editions ++ [h]).length = st.editions.length + 1 := List.length_append

theorem Backed.concat (H : st.Backed) (h : Household) : st.cache.Tidy (· < (st.editions ++ [h]).length) :=
  H.imp fun _ hn => st.length_editions_concat h ▸ Nat.lt_succ_of_lt hn

theorem Backed.withShared (H : st.Backed) (s : Shared) : Backed { st with shared := s } := H

theorem Backed.current (H : st.Backed) (user : String) : (st.current user false).2.Backed := H.get _ _

theorem Backed.publish (H : st.Backed) (user : String) (h : Household) : (st.publish user h).2.Backed :=
  (H.concat h).put (st.length_editions_concat h ▸ Nat.lt_succ_self _) _ _

theorem Backed.note (H : st.Backed) (n : Nat) (x : EntityIndex) (s : Shared) : (st.note n x s).Backed :=
  H.imp fun _ hm => (List.length_modify ..).symm ▸ hm

theorem current_of_stale (hfresh : st.cache.fresh? st.shared.now user = none) :
    st.current user false = (none, { st with cache := st.cache.missed user }) := by
  rw [current, IndexCache.get_of_fresh?_eq_none hfresh]
  rfl

theorem current_of_fresh (hfresh : st.cache.fresh? st.shared.now user = some n)
    (hn : st.editions[n]? = some h) :
    st.current user false = (some (n, h), { st with cache := st.cache.hit }) := by
  rw [current, IndexCache.get_of_fresh?_eq_some hfresh]
  dsimp only
  rw [Option.bind_some, edition?, hn]
  rfl

/-- A user has no current edition, or it is a published one. -/
theorem Backed.fresh?_cases (H : st.Backed) (user : String) :
    st.cache.fresh? st.shared.now user = none ∨
      ∃ n h, st.cache.fresh? st.shared.now user = some n ∧ st.editions[n]? = some h := by
  cases hfresh : st.cache.fresh? st.shared.now user with
  | none => exact .inl rfl
  | some n => exact .inr ⟨n, _, rfl, List.getElem?_eq_getElem (H.of_fresh? hfresh)⟩

end ResolverState

namespace Resolver

open ResolverState

variable {r : Resolver} {st : ResolverState} {user : String} {n : Nat} {h : Household}

theorem backed_update (H : st.Backed) (user : String) (change : Household → Shared → Household × Shared) :
    (update user change st).2.Backed := by
  rcases hc : st.current user false with ⟨_ | ⟨n, h⟩, st'⟩
  all_goals
    have H' := H.current user
    rw [hc] at H'
    rw [update, hc]
  · exact H'
  · exact (H'.withShared _).publish user _

theorem backed_removeEntity (H : st.Backed) (user entityId : String) :
    (removeEntity user entityId st).2.Backed := by
  rcases hc : st.current user false with ⟨_ | ⟨n, h⟩, st'⟩
  all_goals
    have H' := H.current user
    rw [hc] at H'
    rw [removeEntity, hc]
  · exact H'
  · dsimp only
    split
    · exact H'.publish user _
    · exact H'

theorem backed_resolve (H : st.Backed) (r : Resolver) (user query : String) (domain : Option String)
    (limit : Option Nat) : (r.resolve user query domain limit st).2.Backed := by
  rcases hc : st.current user false with ⟨_ | ⟨n, h⟩, st'⟩
  all_goals
    have H' := H.current user
    rw [hc] at H'
    rw [resolve, hc]
  · exact H'
  · exact H'.note _ _ _

theorem backed_perform (H : st.Backed) (r : Resolver) (c : Command) : (r.perform st c).Backed := by
  cases c with
  | rebuild user areas entities => exact (H.withShared _).publish user _
  | upsertEntity user record => exact backed_update H user _
  | removeEntity user entityId => exact backed_removeEntity H user entityId
  | upsertArea user record => exact backed_update H user _
  | invalidate user => exact H.invalidate user
  | cleanup => exact H.cleanup _
  | resolve user query domain limit => exact backed_resolve H r user query domain limit
  | advance ms => exact H

theorem backed_act (H : st.Backed) (r : Resolver) (a : Action) : (r.act st a).2.Backed := by
  cases a with
  | command c => exact backed_perform H r c
  | build areas entities => exact H.concat _
  | fork n =>
    rw [act]
    split
    · exact H
    · exact H.concat _
  | use n u =>
    rw [act]
    split
    · exact H
    · refine H.imp fun m hm => ?_
      rw [List.length_set]
      exact hm
  | embed text => exact H
  | clearEmbeddings => exact H
  | clearIndexes => exact IndexCache.Tidy.clear

theorem Reaches.backed (H : r.Reaches st) : st.Backed := by
  induction H with
  | start => exact .empty _
  | act a _ ih => exact backed_act ih r a
  | useIndexes u hu _ ih => exact ih.apply _ hu
  | useShared s _ ih => exact ih

end Resolver

/-! ## What an update leaves as it was -/

theorem EntityIndex.filter_order_store (x : EntityIndex) (e : EntityEntry) :
    ((x.store e).order.filter fun i => i ≠ e.entityId) = x.order.filter fun i => i ≠ e.entityId := by
  rw [store_order]
  split
  · rfl
  · simp

theorem EntityIndex.filter_order_remove (x : EntityIndex) (id : String) :
    ((x.remove id).2.order.filter fun i => i ≠ id) = x.order.filter fun i => i ≠ id := by
  cases hfind : x.entries.find? id with
  | none => rw [remove_of_find?_eq_none hfind]
  | some e =>
    rw [remove_of_find? hfind]
    exact (List.filter_filter ..).trans (by simp)

theorem AreaRegistry.filter_order_register (g : AreaRegistry) (a : Area) :
    ((g.register a).order.filter fun i => i ≠ a.areaId) = g.order.filter fun i => i ≠ a.areaId := by
  rw [register_eq]
  dsimp only
  split
  · rfl
  · simp

namespace Household

/-- The second household has the devices of the first one, in the same order, but for one device, and its areas. -/
structure DiffersInEntity (id : String) (h h' : Household) : Prop where
  order : (h'.entities.order.filter fun i => i ≠ id) = h.entities.order.filter fun i => i ≠ id
  entries : h.entities.entries.AgreeBut id h'.entities.entries
  areas : h'.areas = h.areas

/-- The second household has the areas of the first one, in the same order, but for one area, and its devices, with none
of the rankings that the first one keeps. -/
structure DiffersInArea (id : String) (h h' : Household) : Prop where
  order : (h'.areas.order.filter fun i => i ≠ id) = h.areas.order.filter fun i => i ≠ id
  areas : h.areas.areas.AgreeBut id h'.areas.areas
  threshold : h'.areas.threshold = h.areas.threshold
  entities : h'.entities = { h.entities with queries := .emptyLike h.entities.queries }

end Household

/-- A change of a device or of an area. -/
inductive Update where
  | upsertEntity (record : EntityRecord)
  | removeEntity (entityId : String)
  | upsertArea (record : AreaRecord)

namespace Update

/-- Has the update nothing to change? -/
def idle (h : Household) : Update → Bool
  | removeEntity entityId => !h.entities.entries.contains entityId
  | _ => false

def apply (r : Resolver) (user : String) (st : ResolverState) : Update → Option Nat × ResolverState
  | upsertEntity record => r.upsertEntity user record st
  | removeEntity entityId => Resolver.removeEntity user entityId st
  | upsertArea record => r.upsertArea user record st

/-- The second household has what the update names as the update wants it, and differs from the first one in nothing
else. A record of an area without an id changes nothing. -/
def Makes (h h' : Household) : Update → Prop
  | upsertEntity record =>
      h.DiffersInEntity record.entityId h' ∧
        ∃ found, h'.entities.entries.find? record.entityId = some (.ofRecord record record.givenNames found)
  | removeEntity entityId =>
      h.DiffersInEntity entityId h' ∧ h'.entities.entries.find? entityId = none
  | upsertArea record =>
      h.DiffersInArea record.areaId h' ∧
        if Text.trimmed record.areaId = "" then h'.areas = h.areas
        else ∃ found, h'.areas.areas.find? record.areaId = some (.ofRecord record found)

end Update

namespace Household

theorem makes_addEntity (e : Embedder) (record : EntityRecord) (h : Household) (s : Shared) :
    (Update.upsertEntity record).Makes h (h.fork.addEntity e record s).1 := by
  let found := (e.embedMany (record.givenNames.map (·.2)) s).1
  have hentries : (h.fork.addEntity e record s).1.entities.entries =
      h.entities.entries.put record.entityId (.ofRecord record record.givenNames found) :=
    EntityIndex.store_entries ..
  have horder := h.fork.entities.filter_order_store (.ofRecord record record.givenNames found)
  refine ⟨⟨horder, hentries ▸ Roster.agreeBut_put .., rfl⟩, found, ?_⟩
  rw [hentries, Roster.find?_put, if_pos rfl]

theorem makes_removeEntity (h : Household) (entityId : String) :
    (Update.removeEntity entityId).Makes h { h.fork with entities := (h.fork.entities.remove entityId).2 } := by
  have hentries := h.fork.entities.remove_entries entityId
  have horder := h.fork.entities.filter_order_remove entityId
  refine ⟨⟨horder, hentries ▸ Roster.agreeBut_erase .., rfl⟩, ?_⟩
  rw [hentries, Roster.find?_erase, if_pos rfl]

theorem makes_addArea (e : Embedder) (record : AreaRecord) (h : Household) (s : Shared) :
    (Update.upsertArea record).Makes h (h.fork.addArea e record s).1 := by
  let found := (e.embed record.name s).1.embedding?
  by_cases hid : Text.trimmed record.areaId = ""
  · have hareas : (h.fork.addArea e record s).1.areas = h.areas := congrArg Prod.fst (if_pos hid)
    refine ⟨⟨?_, ?_, ?_, rfl⟩, ?_⟩
    · rw [hareas]
    · exact hareas ▸ .refl _ _
    · exact hareas ▸ rfl
    · rwa [if_pos hid]
  · have hareas : (h.fork.addArea e record s).1.areas = h.areas.register (.ofRecord record found) :=
      congrArg Prod.fst (if_neg hid)
    refine ⟨⟨?_, ?_, ?_, rfl⟩, ?_⟩
    · rw [hareas]
      exact h.areas.filter_order_register (.ofRecord record found)
    · rw [hareas, AreaRegistry.areas_register]
      exact Roster.agreeBut_put ..
    · exact hareas ▸ AreaRegistry.threshold_register ..
    · rw [if_neg hid, hareas]
      exact ⟨found, (AreaRegistry.find?_register ..).trans (if_pos rfl)⟩

end Household

/-! ## What an update publishes -/

namespace ResolverState

/-- One new edition was published, and it is the current one of a user. -/
structure Publishes (user : String) (h : Household) (st st' : ResolverState) : Prop where
  editions : st'.editions = st.editions ++ [h]
  current : st'.cache.entries.find? user = some ⟨st.editions.length, st'.shared.now⟩
  others : st.cache.entries.AgreeBut user st'.cache.entries
  counters : st'.cache.counters = { st.cache.counters with
    hits := st.cache.counters.hits + 1
    updates := st.cache.counters.updates + 1 }
  ttl : st'.cache.ttl = st.cache.ttl

variable {st : ResolverState} {user : String} {n : Nat}

theorem publishes_hit (hfresh : st.cache.fresh? st.shared.now user = some n) (s : Shared) (h : Household) :
    st.Publishes user h (ResolverState.publish { st with cache := st.cache.hit, shared := s } user h).2 where
  editions := rfl
  current := (Roster.find?_put ..).trans (if_pos rfl)
  others := Roster.agreeBut_put ..
  counters := if_pos (IndexCache.contains_of_fresh? hfresh)
  ttl := rfl

end ResolverState

namespace Resolver

open ResolverState

variable {r : Resolver} {st : ResolverState} {user : String} {n : Nat} {h : Household}

theorem update_of_stale (hfresh : st.cache.fresh? st.shared.now user = none)
    (change : Household → Shared → Household × Shared) :
    update user change st = (none, { st with cache := st.cache.missed user }) := by
  rw [update, current_of_stale hfresh]

theorem update_of_fresh (hfresh : st.cache.fresh? st.shared.now user = some n) (hn : st.editions[n]? = some h)
    (change : Household → Shared → Household × Shared) :
    (update user change st).1 = some st.editions.length ∧
      st.Publishes user (change h.fork st.shared).1 (update user change st).2 := by
  rw [update, current_of_fresh hfresh hn]
  exact ⟨rfl, publishes_hit hfresh _ _⟩

theorem removeEntity_of_stale (hfresh : st.cache.fresh? st.shared.now user = none) (entityId : String) :
    removeEntity user entityId st = (none, { st with cache := st.cache.missed user }) := by
  rw [removeEntity, current_of_stale hfresh]

theorem removeEntity_of_fresh (hfresh : st.cache.fresh? st.shared.now user = some n)
    (hn : st.editions[n]? = some h) (entityId : String) :
    (h.entities.entries.contains entityId = false ∧
      removeEntity user entityId st = (some n, { st with cache := st.cache.hit })) ∨
    (h.entities.entries.contains entityId = true ∧ (removeEntity user entityId st).1 = some st.editions.length ∧
      st.Publishes user { h.fork with entities := (h.fork.entities.remove entityId).2 }
        (removeEntity user entityId st).2) := by
  rw [removeEntity, current_of_fresh hfresh hn]
  dsimp only
  cases hknown : h.entities.entries.contains entityId with
  | false => exact .inl ⟨rfl, rfl⟩
  | true => exact .inr ⟨rfl, rfl, publishes_hit hfresh _ _⟩

/-- An update for a user without a current edition does nothing; else it publishes an edition for this user that
differs from the current one in what it names, or has nothing to change and leaves the edition current. -/
theorem Reaches.updated (H : r.Reaches st) (user : String) (u : Update) :
    (st.cache.fresh? st.shared.now user = none →
      u.apply r user st = (none, { st with cache := st.cache.missed user })) ∧
    ∀ n, st.cache.fresh? st.shared.now user = some n → ∃ h, st.editions[n]? = some h ∧
      if u.idle h then u.apply r user st = (some n, { st with cache := st.cache.hit })
      else ∃ h', u.Makes h h' ∧ (u.apply r user st).1 = some st.editions.length ∧
        st.Publishes user h' (u.apply r user st).2 := by
  refine ⟨fun hfresh => ?_, fun n hfresh => ?_⟩
  · cases u with
    | upsertEntity record => exact update_of_stale hfresh (Household.addEntity r.embedder record)
    | removeEntity entityId => exact removeEntity_of_stale hfresh entityId
    | upsertArea record => exact update_of_stale hfresh (Household.addArea r.embedder record)
  · obtain hnone | ⟨m, h, hm, hedition⟩ := H.backed.fresh?_cases user
    · cases hnone.symm.trans hfresh
    cases hm.symm.trans hfresh
    refine ⟨h, hedition, ?_⟩
    cases u with
    | upsertEntity record =>
      exact ⟨_, h.makes_addEntity r.embedder record st.shared, update_of_fresh hfresh hedition _⟩
    | upsertArea record =>
      exact ⟨_, h.makes_addArea r.embedder record st.shared, update_of_fresh hfresh hedition _⟩
    | removeEntity entityId =>
      obtain ⟨hunknown, hkept⟩ | ⟨hknown, hpublished⟩ := removeEntity_of_fresh hfresh hedition entityId
      · rw [Update.idle, hunknown]
        exact hkept
      · rw [Update.idle, hknown]
        exact ⟨_, h.makes_removeEntity entityId, hpublished⟩

/-- Ann has a household that is too old by a millisecond, and Bob has a household with two lamps. -/
def annAndBob : List Action := [
  .command (.rebuild "ann" [.new "office" "Office"] [Sample.officeLamp]),
  .command (.advance 3600001),
  .command (.rebuild "bob" [.new "office" "Office"] [Sample.officeLamp, Sample.wledOffice])]

theorem updated_ann_and_bob :
    let r := Sample.resolver (some (.keywords []))
    let st := r.after annAndBob
    st.cache.entries.keys = ["ann", "bob"] ∧
      (Update.upsertArea (.new "attic" "Attic")).apply r "ann" st =
        (none, { st with cache := st.cache.missed "ann" }) ∧
      ∃ h, st.editions[1]? = some h ∧ ∃ h', (Update.removeEntity "light.office_lamp").Makes h h' ∧
        ((Update.removeEntity "light.office_lamp").apply r "bob" st).1 = some 2 ∧
        st.Publishes "bob" h' ((Update.removeEntity "light.office_lamp").apply r "bob" st).2 := by
  intro r st
  have hann : st.cache.fresh? st.shared.now "ann" = none := by decide +kernel
  have hbob : st.cache.fresh? st.shared.now "bob" = some 1 := by decide +kernel
  have hlamp : (st.editions[1]?.map fun h => (Update.removeEntity "light.office_lamp").idle h) = some false := by
    decide +kernel
  have H := r.reaches_after annAndBob
  obtain ⟨h, hh, hupdated⟩ := (H.updated "bob" (.removeEntity "light.office_lamp")).2 1 hbob
  rw [hh, Option.map_some, Option.some.injEq] at hlamp
  rw [hlamp] at hupdated
  exact ⟨by decide +kernel, (H.updated "ann" (.upsertArea (.new "attic" "Attic"))).1 hann, h, hh, hupdated⟩

end Resolver

end DeviceNaming
