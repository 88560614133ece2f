import DeviceNaming.Household.Sample
import DeviceNaming.Proofs.Entity.Update

/-!
# The query cache is not seen

An index and its copies are changed, searched and forked in any order (`EntityIndex.Copies.run`). Whatever was
done to it, a copy that was not just emptied finds with its query cache what it finds with an empty one, and
every ranking in the cache is the one that would be computed now (`EntityIndex.search_through_queries`).

The invariant is `EntityIndex.Copies.Sound`. Emptying an index by `clear` is the one operation that leaves old
rankings behind; adding a device, or dropping the rankings, makes the copy good again.
-/

namespace DeviceNaming.EntityIndex

/-- A copy of an index. It is `emptied` from a `clear` until a device is added or the rankings are dropped. -/
structure Copy where
  index : EntityIndex
  emptied : Bool

inductive Use where
  | add (r : EntityRecord)
  | remove (entityId : String)
  | search (q : Query)
  | searchExact (q : Query)
  | cleanupQueries
  | clearQueries
  | clear

/-- A copy after it was used, and what the copies share. -/
def Use.apply (e : Embedder) : Use → Copy → Shared → Copy × Shared
  | add r, c, s => (⟨(c.index.add e r s).1, false⟩, (c.index.add e r s).2)
  | remove entityId, c, s => ({ c with index := (c.index.remove entityId).2 }, s)
  | search q, c, s => ({ c with index := (c.index.search e q s).2.1 }, (c.index.search e q s).2.2)
  -- a search by letters reads the index and leaves it as it is
  | searchExact _, c, s => (c, s)
  | cleanupQueries, c, s =>
      ({ c with index := { c.index with queries := (c.index.queries.cleanup s.now).2 } }, s)
  | clearQueries, c, s => (⟨c.index.clearQueries, false⟩, s)
  | clear, c, s => (⟨c.index.clear, true⟩, s)

/-- The copies of an index, by number, and what they share. -/
structure Copies where
  shared : Shared
  all : List Copy

/-- A step of the copies. -/
inductive CopyStep where
  | use (n : Nat) (u : Use)
  | fork (n : Nat)
  | advance (ms : Nat)

namespace Copies

/-- One empty index, whose query cache has a bound and a time limit in milliseconds. -/
def start (maxSize : Nat) (ttl : Option Nat) (s : Shared) : Copies :=
  ⟨s, [⟨⟨[], .empty, .empty, .empty, .empty maxSize ttl, {}⟩, false⟩]⟩

/-- The copies after a step. A step on a copy that does not exist does nothing. -/
def step (e : Embedder) (p : Copies) : CopyStep → Copies
  | .use n u =>
      match p.all[n]? with
      | none => p
      | some c => ⟨(u.apply e c p.shared).2, p.all.set n (u.apply e c p.shared).1⟩
  | .fork n =>
      match p.all[n]? with
      | none => p
      | some c => { p with all := p.all ++ [⟨c.index.fork, false⟩] }
  | .advance ms => { p with shared := p.shared.advance ms }

def run (e : Embedder) (p : Copies) (steps : List CopyStep) : Copies := steps.foldl (step e) p

end Copies

/-- The index finds with its query cache what it finds with an empty one, and what its query cache holds is what
it finds. -/
structure Transparent (e : Embedder) (x : EntityIndex) (s : Shared) : Prop where
  search : ∀ q, ∃ found, (x.search e q s).1 = .ok found ∧ (x.clearQueries.search e q s).1 = .ok found
  held : ∀ entry ∈ x.queries.entries, Text.normalize? entry.key.text = some entry.key.text ∧
    (x.clearQueries.search e entry.key s).1 = .ok entry.value

variable {e : Embedder} {x : EntityIndex} {s : Shared}

/-! ## The invariant -/

/-- The index is well built, and its rankings are current unless it was emptied. -/
structure Copy.Sound (e : Embedder) (c : Copy) : Prop where
  built : c.index.Built e
  current : c.emptied = false → c.index.Current e

/-- Every copy is sound, and the embedding cache is coherent. -/
structure Copies.Sound (e : Embedder) (p : Copies) : Prop where
  coherent : p.shared.Coherent e
  copies : ∀ c ∈ p.all, c.Sound e

theorem Current.cleanup (C : x.Current e) (now : Nat) :
    { x with queries := (x.queries.cleanup now).2 }.Current e :=
  BoundedCache.Holds.cleanup C now

theorem Copy.Sound.apply (he : e.Steady) {c : Copy} (H : c.Sound e) (hs : s.Coherent e) (u : Use) :
    (u.apply e c s).1.Sound e ∧ (u.apply e c s).2.Coherent e := by
  cases u with
  | add r =>
    obtain ⟨t, hadd, ht, -⟩ := add_spec he hs r c.index
    rw [Use.apply, hadd]
    exact ⟨⟨H.built.store he r, fun _ => current_of_entries_eq_nil (store_queries ..)⟩, ht⟩
  | remove id => exact ⟨⟨H.built.remove id, fun h => (H.current h).remove id⟩, hs⟩
  | search q =>
    obtain ⟨found, z, t, hsearch, A, ht, -, hcurrent⟩ :=
      search_spec H.built.mirrors H.built.measured he hs q
    rw [Use.apply, hsearch]
    exact ⟨⟨H.built.of_alike A, fun h => (hcurrent (H.current h)).2⟩, ht⟩
  | searchExact q => exact ⟨H, hs⟩
  | cleanupQueries =>
    exact ⟨⟨H.built.of_alike ⟨rfl, rfl, rfl, rfl⟩, fun h => (H.current h).cleanup s.now⟩, hs⟩
  | clearQueries =>
    exact ⟨⟨H.built.of_alike ⟨rfl, rfl, rfl, rfl⟩, fun _ => current_of_entries_eq_nil rfl⟩, hs⟩
  | clear => exact ⟨⟨.of_empty rfl rfl rfl rfl, nofun⟩, hs⟩

namespace Copies

variable {p : Copies}

theorem sound_start (hs : s.Coherent e) (maxSize : Nat) (ttl : Option Nat) :
    (start maxSize ttl s).Sound e := by
  refine ⟨hs, fun c hc => ?_⟩
  cases List.mem_singleton.1 hc
  exact ⟨.of_empty rfl rfl rfl rfl, fun _ => current_of_entries_eq_nil rfl⟩

/-- What holds of every copy still does after a step, if using a copy and forking it keep it. -/
theorem all_step {P : Copy → Prop} (H : ∀ c ∈ p.all, P c) (e : Embedder)
    (huse : ∀ c ∈ p.all, ∀ u, P (Use.apply e u c p.shared).1)
    (hfork : ∀ c ∈ p.all, P ⟨c.index.fork, false⟩) (d : CopyStep) : ∀ c ∈ (p.step e d).all, P c := by
  cases d with
  | use n u =>
    rw [Copies.step]
    split
    · exact H
    · rename_i c hc
      intro c' hc'
      rcases List.mem_or_eq_of_mem_set hc' with hc' | rfl
      · exact H c' hc'
      · exact huse c (List.mem_of_getElem? hc) u
  | fork n =>
    rw [Copies.step]
    split
    · exact H
    · rename_i c hc
      exact List.forall_mem_append.2 ⟨H, List.forall_mem_singleton.2 (hfork c (List.mem_of_getElem? hc))⟩
  | advance ms => exact H

theorem Sound.step (he : e.Steady) (H : p.Sound e) (d : CopyStep) : (p.step e d).Sound e := by
  have happly : ∀ c ∈ p.all, ∀ u, (Use.apply e u c p.shared).1.Sound e ∧
      (Use.apply e u c p.shared).2.Coherent e := fun c hc u => (H.copies c hc).apply he H.coherent u
  have hfork : ∀ c ∈ p.all, Copy.Sound e ⟨c.index.fork, false⟩ := fun c hc =>
    ⟨(H.copies c hc).built.of_alike ⟨rfl, rfl, rfl, rfl⟩, fun _ => current_of_entries_eq_nil rfl⟩
  refine ⟨?_, all_step H.copies e (fun c hc u => (happly c hc u).1) hfork d⟩
  cases d with
  | use n u =>
    rw [Copies.step]
    split
    · exact H.coherent
    · rename_i c hc
      exact (happly c (List.mem_of_getElem? hc) u).2
  | fork n =>
    rw [Copies.step]
    split
    · exact H.coherent
    · exact H.coherent
  | advance ms => exact H.coherent.of_cache_eq rfl

theorem Sound.run (he : e.Steady) (H : p.Sound e) (steps : List CopyStep) : (p.run e steps).Sound e := by
  induction steps generalizing p with
  | nil => exact H
  | cons d steps ih => exact ih (H.step he d)

end Copies

/-! ## Searching through the cache -/

/-- With an empty query cache the ranking of the present entries is found. -/
theorem Built.search_clearQueries (H : x.Built e) (he : e.Steady) (hs : s.Coherent e) (q : Query) :
    (x.clearQueries.search e q s).1 = .ok (e.ranking x.ordered q) := by
  have H' : x.clearQueries.Built e := H.of_alike ⟨rfl, rfl, rfl, rfl⟩
  exact H'.search_eq (current_of_entries_eq_nil rfl) he hs q

theorem Built.transparent (H : x.Built e) (he : e.Steady) (hs : s.Coherent e) (C : x.Current e) :
    x.Transparent e s := by
  refine ⟨fun q => ⟨_, H.search_eq C he hs q, H.search_clearQueries he hs q⟩, fun entry hentry => ?_⟩
  obtain ⟨hnormal, hvalue⟩ := C entry hentry
  exact ⟨hnormal, by rw [H.search_clearQueries he hs, hvalue]⟩

/-- After any steps, a copy that was not just emptied answers every search as with an empty query cache. -/
theorem search_through_queries (he : e.Steady) (hs : s.Reached e) (maxSize : Nat) (ttl : Option Nat)
    (steps : List CopyStep) :
    ∀ c ∈ ((Copies.start maxSize ttl s).run e steps).all, c.emptied = false →
      c.index.Transparent e ((Copies.start maxSize ttl s).run e steps).shared := by
  have H := (Copies.sound_start (hs.coherent he) maxSize ttl).run he steps
  exact fun c hc hset => (H.copies c hc).built.transparent he H.coherent ((H.copies c hc).current hset)

/-- The office of the sample house: two devices, a repeated query, a failed removal and a copy. -/
def officeCopies : Copies :=
  (Copies.start 1 none (.start Settings.default.embeddingCache)).run ⟨some (.keywords []), 200⟩ [
    .use 0 (.add Sample.wledOffice), .use 0 (.add Sample.officeLamp),
    .use 0 (.search ⟨" Lamp", none, some "office", 5⟩), .fork 0, .use 0 (.remove "light.hall"),
    .use 0 (.search ⟨"lamp", none, some "office", 5⟩), .use 1 .clear, .advance 7]

theorem search_through_queries_office :
    officeCopies.all.map (fun c => (c.index.queries.size, c.emptied)) = [(1, false), (0, true)] ∧
      ∀ c ∈ officeCopies.all, c.emptied = false →
        c.index.Transparent ⟨some (.keywords []), 200⟩ officeCopies.shared :=
  ⟨by decide +kernel,
    search_through_queries (Embedder.steady_keywords [] 200) (reached_start _ _) 1 none _⟩

end DeviceNaming.EntityIndex
