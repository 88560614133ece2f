import DeviceNaming.Proofs.Cache.History
import DeviceNaming.Proofs.Embedding.Lookups
import Mathlib.Data.List.Defs
import Mathlib.Algebra.BigOperators.Group.List.Basic

/-!
# Every lookup is counted once

What the lookup of a text adds to the counters is read off how it went (`LookupRecord.counted`): from the cache, for
want of a provider, or by a call and how the call ended. A lookup that waits is counted in two parts, when it starts
and when it ends, and others may be counted in between; but counters add up in any order, so that the counters of
a run are the sum over its lookups (`EmbedderStep.metrics_run`), and the cache tells the same hits and misses as
long as nothing else uses it. The counts of the lookups of each kind follow: `EmbedderStep.run_accounted`.
-/

namespace DeviceNaming

-- nothing below looks into the normal form, and unfolding it is slow
attribute [local irreducible] Text.normalize

/-! ## Sums of counters -/

namespace EmbedderMetrics

attribute [ext] EmbedderMetrics

instance : Zero EmbedderMetrics := ⟨{}⟩

instance : Add EmbedderMetrics where
  add m n :=
    { cacheHits := m.cacheHits + n.cacheHits
      providerCalls := m.providerCalls + n.providerCalls
      providerFailures := m.providerFailures + n.providerFailures
      timeouts := m.timeouts + n.timeouts
      dimensionMismatches := m.dimensionMismatches + n.dimensionMismatches
      skippedNoProvider := m.skippedNoProvider + n.skippedNoProvider }

variable (m n : EmbedderMetrics)

@[simp] theorem cacheHits_add : (m + n).cacheHits = m.cacheHits + n.cacheHits := rfl
@[simp] theorem providerCalls_add : (m + n).providerCalls = m.providerCalls + n.providerCalls := rfl
@[simp] theorem providerFailures_add : (m + n).providerFailures = m.providerFailures + n.providerFailures := rfl
@[simp] theorem timeouts_add : (m + n).timeouts = m.timeouts + n.timeouts := rfl
@[simp] theorem dimensionMismatches_add :
    (m + n).dimensionMismatches = m.dimensionMismatches + n.dimensionMismatches := rfl
@[simp] theorem skippedNoProvider_add :
    (m + n).skippedNoProvider = m.skippedNoProvider + n.skippedNoProvider := rfl

instance : AddCommMonoid EmbedderMetrics where
  add_assoc a b c := by ext <;> simp [Nat.add_assoc]
  zero_add a := by ext <;> simp <;> rfl
  add_zero a := by ext <;> simp <;> rfl
  add_comm a b := by ext <;> simp [Nat.add_comm]
  nsmul := nsmulRec

end EmbedderMetrics

/-! ## How a lookup starts and ends -/

/-- Is the embedding of the text in the cache, and fresh? -/
def Shared.finds (s : Shared) (text : String) : Bool := (s.cache.getText s.now text).1.isSome

/-- How the lookup of a text starts, and what that leaves behind. -/
inductive Embedder.Starts (e : Embedder) (text : String) (s : Shared) : Started × Shared → Prop where
  | blank (htext : Text.normalize? text = none) : Starts e text s (.done (.unavailable .emptyInput), s)
  | found {key : String} {v : Embedding} {cache : EmbeddingCache} (htext : Text.normalize? text = some key)
      (hget : s.cache.get s.now key = (some v, cache)) :
      Starts e text s
        (.done (.ready v), { s with cache, metrics := s.metrics + { cacheHits := 1 } })
  | skipped {key : String} {cache : EmbeddingCache} (htext : Text.normalize? text = some key)
      (hget : s.cache.get s.now key = (none, cache)) (hp : e.provider = none) :
      Starts e text s
        (.done (.unavailable .noProvider), { s with cache, metrics := s.metrics + { skippedNoProvider := 1 } })
  | called {key : String} {cache : EmbeddingCache} {p : Provider} (htext : Text.normalize? text = some key)
      (hget : s.cache.get s.now key = (none, cache)) (hp : e.provider = some p) :
      Starts e text s
        (.waiting ⟨key, p.dimension, e.timeout, p.reply s.now s.asked key⟩,
          { s with cache, metrics := s.metrics + { providerCalls := 1 }, asked := s.asked ++ [key] })

/-- What the end of a call adds to the counters. -/
def Lookup.counted (l : Lookup) : EmbedderMetrics := EmbedderMetrics.countOutcome 0 l

/-- A lookup as it went. -/
structure LookupRecord where
  text : String
  /-- was its embedding in the cache when it started? -/
  cached : Bool
  result : Lookup

namespace LookupRecord

/-- What the lookup adds to the counters. -/
def counted (r : LookupRecord) : EmbedderMetrics :=
  if r.cached then { cacheHits := 1 }
  else
    match r.result with
    | .unavailable .emptyInput => 0
    | .unavailable .noProvider => { skippedNoProvider := 1 }
    | l => { providerCalls := 1 } + l.counted

/-- Only a blank text has no lookup, and what is in the cache is found. -/
structure Proper (r : LookupRecord) : Prop where
  blank_iff : Text.normalize? r.text = none ↔ r.result = .unavailable .emptyInput
  ready_of_cached : r.cached = true → ∃ v, r.result = .ready v

end LookupRecord

variable {e : Embedder} {s : Shared} {text : String}

theorem EmbedderMetrics.countOutcome_eq (m : EmbedderMetrics) (l : Lookup) : m.countOutcome l = m + l.counted := by
  rcases l with v | _ | _ | _ | _ | _ <;> ext <;> rfl

theorem EmbeddingCache.getText_eq {key : String} (c : EmbeddingCache) (now : Nat)
    (htext : Text.normalize? text = some key) : c.getText now text = c.get now key := by
  rw [getText, htext]

theorem Embedder.starts (e : Embedder) (text : String) (s : Shared) : e.Starts text s (e.start text s) := by
  unfold Embedder.start
  split
  · exact .blank ‹_›
  · rename_i key htext
    have hkey := Text.normalize?_of_eq_some htext
    split
    · rename_i hget
      exact .found htext ((s.cache.getText_eq s.now hkey).symm.trans hget)
    · rename_i hget
      have hget' := (s.cache.getText_eq s.now hkey).symm.trans hget
      split
      · exact .skipped htext hget' ‹_›
      · exact .called htext hget' ‹_›

/-- A call ends in an embedding, or fails for a reason of the provider. -/
theorem Call.outcome_ne (c : Call) : c.outcome ≠ .unavailable .emptyInput ∧ c.outcome ≠ .unavailable .noProvider := by
  unfold Call.outcome
  split
  · simp
  · split
    · simp
    · split <;> simp

theorem LookupRecord.counted_outcome (text : String) (c : Call) :
    (LookupRecord.mk text false c.outcome).counted = { providerCalls := 1 } + c.outcome.counted := by
  obtain ⟨hblank, hskipped⟩ := c.outcome_ne
  rw [LookupRecord.counted]
  split <;> simp_all

theorem Call.metrics_settle (c : Call) (s : Shared) : (c.settle s).metrics = s.metrics + c.outcome.counted := by
  unfold Call.settle
  split <;> exact s.metrics.countOutcome_eq c.outcome

/-- What a started lookup has yet to count. -/
def Started.due (x : Started) : EmbedderMetrics := (x.call?.map fun c => c.outcome.counted).getD 0

/-- The start of a lookup counts all but what its call will. -/
theorem Embedder.metrics_start (e : Embedder) (text : String) (s : Shared) :
    (e.start text s).2.metrics + (e.start text s).1.due =
      s.metrics + (LookupRecord.mk text (s.finds text) (e.start text s).1.outcome).counted := by
  have H := e.starts text s
  generalize e.start text s = x at H
  cases H with
  | blank htext =>
    have hfinds : s.finds text = false := by simp [Shared.finds, EmbeddingCache.getText, htext]
    simp [hfinds, LookupRecord.counted, Started.due, Started.call?, Started.outcome]
  | found htext hget =>
    have hfinds : s.finds text = true := by simp [Shared.finds, s.cache.getText_eq s.now htext, hget]
    simp [hfinds, LookupRecord.counted, Started.due, Started.call?]
  | skipped htext hget hp =>
    have hfinds : s.finds text = false := by simp [Shared.finds, s.cache.getText_eq s.now htext, hget]
    simp [hfinds, LookupRecord.counted, Started.due, Started.call?, Started.outcome]
  | called htext hget hp =>
    have hfinds : s.finds text = false := by simp [Shared.finds, s.cache.getText_eq s.now htext, hget]
    simp only [hfinds, Started.outcome, LookupRecord.counted_outcome, Started.due, Started.call?, Option.map_some,
      Option.getD_some, add_assoc]

theorem Embedder.proper_start (e : Embedder) (text : String) (s : Shared) :
    (LookupRecord.mk text (s.finds text) (e.start text s).1.outcome).Proper := by
  have H := e.starts text s
  generalize e.start text s = x at H
  cases H with
  | blank htext => exact ⟨by simp [htext, Started.outcome], by simp [Shared.finds, EmbeddingCache.getText, htext]⟩
  | found htext hget => exact ⟨by simp [htext, Started.outcome], fun _ => ⟨_, rfl⟩⟩
  | skipped htext hget hp =>
    exact ⟨by simp [htext, Started.outcome], by simp [Shared.finds, s.cache.getText_eq s.now htext, hget]⟩
  | called htext hget hp =>
    exact ⟨by simp [htext, Started.outcome, Call.outcome_ne],
      by simp [Shared.finds, s.cache.getText_eq s.now htext, hget]⟩

/-! ## Lookups alone and at the same time -/

namespace Embedder

/-- Which of the texts that are looked up at the same time are found in the cache. -/
def found (e : Embedder) : List String → Shared → List Bool
  | [], _ => []
  | text :: texts, s => s.finds text :: e.found texts (e.launch text s).2

/-- The lookup of a text as it goes. -/
def record (e : Embedder) (text : String) (s : Shared) : LookupRecord :=
  ⟨text, s.finds text, (e.embed text s).1⟩

/-- The lookups of texts at the same time as they go. -/
def records (e : Embedder) (texts : List String) (s : Shared) : List LookupRecord :=
  List.zipWith3 LookupRecord.mk texts (e.found texts s) (e.embedMany texts s).1

theorem metrics_embed (e : Embedder) (text : String) (s : Shared) :
    (e.embed text s).2.metrics = s.metrics + (e.record text s).counted := by
  have hstart := e.metrics_start text s
  rw [record, embed]
  generalize e.start text s = x at hstart ⊢
  rcases x with ⟨l | c, t⟩
  · exact (add_zero _).symm.trans hstart
  · exact (c.metrics_settle _).trans hstart

theorem proper_record (e : Embedder) (text : String) (s : Shared) : (e.record text s).Proper := by
  have hstart := e.proper_start text s
  rw [record, embed]
  generalize e.start text s = x at hstart ⊢
  rcases x with ⟨l | c, t⟩ <;> exact hstart

theorem outcome_launch (e : Embedder) (text : String) (s : Shared) :
    (e.launch text s).1.outcome = (e.start text s).1.outcome := by
  rw [launch]
  rcases e.start text s with ⟨l | c, t⟩
  · rfl
  · dsimp only
    split <;> rfl

theorem metrics_launch (e : Embedder) (text : String) (s : Shared) :
    (e.launch text s).2.metrics + (e.launch text s).1.due =
      s.metrics + (LookupRecord.mk text (s.finds text) (e.launch text s).1.outcome).counted := by
  have hstart := e.metrics_start text s
  rw [outcome_launch, ← hstart, launch]
  rcases e.start text s with ⟨l | c, t⟩
  · rfl
  · dsimp only
    split
    · exact (add_zero _).trans (c.metrics_settle t)
    · rfl

theorem records_cons (e : Embedder) (text : String) (texts : List String) (s : Shared) :
    e.records (text :: texts) s =
      ⟨text, s.finds text, (e.launch text s).1.outcome⟩ :: e.records texts (e.launch text s).2 := rfl

theorem map_text_records (e : Embedder) (texts : List String) :
    ∀ s : Shared, (e.records texts s).map (·.text) = texts := by
  induction texts with
  | nil => exact fun _ => rfl
  | cons text texts ih =>
    intro s
    rw [records_cons, List.map_cons, ih]

theorem proper_records (e : Embedder) (texts : List String) : ∀ s : Shared, ∀ r ∈ e.records texts s, r.Proper := by
  induction texts with
  | nil => exact fun _ => nofun
  | cons text texts ih =>
    intro s
    rw [records_cons, List.forall_mem_cons, outcome_launch]
    exact ⟨e.proper_start text s, ih _⟩

/-- What has started has counted all but what its calls will. -/
theorem metrics_launchAll (e : Embedder) (texts : List String) :
    ∀ s : Shared, (e.launchAll texts s).2.metrics + ((e.launchAll texts s).1.map Started.due).sum =
      s.metrics + ((e.records texts s).map LookupRecord.counted).sum := by
  induction texts with
  | nil => exact fun _ => rfl
  | cons text texts ih =>
    intro s
    rw [launchAll_cons, records_cons]
    simp only [List.map_cons, List.sum_cons]
    rw [add_left_comm, ih, ← add_assoc s.metrics, ← e.metrics_launch text s, add_assoc, add_left_comm]

theorem metrics_settleAll (since : Nat) (cs : List Call) :
    ∀ s : Shared, (settleAll since cs s).metrics = s.metrics + (cs.map fun c => c.outcome.counted).sum := by
  induction cs with
  | nil => exact fun s => (add_zero _).symm
  | cons c cs ih =>
    intro s
    rw [settleAll, ih, Call.metrics_settle, List.map_cons, List.sum_cons, add_assoc]

theorem sum_map_due (xs : List Started) :
    (xs.map Started.due).sum = ((xs.filterMap Started.call?).map fun c => c.outcome.counted).sum := by
  induction xs with
  | nil => rfl
  | cons x xs ih =>
    rw [List.map_cons, List.sum_cons, ih]
    cases x with
    | done l => exact zero_add _
    | waiting c => rfl

/-- Whatever the order in which the calls end, each lookup is counted. -/
theorem metrics_embedMany (e : Embedder) (texts : List String) (s : Shared) :
    (e.embedMany texts s).2.metrics = s.metrics + ((e.records texts s).map LookupRecord.counted).sum := by
  rw [← e.metrics_launchAll texts s, sum_map_due]
  refine (metrics_settleAll _ _ _).trans (congrArg _ ?_)
  exact ((perm_stableSort _ _).map _).sum_eq

end Embedder

/-! ## The counters of the cache -/

/-- The cache has counted as hits and misses what the embedders have. -/
structure Shared.Tallied (s : Shared) : Prop where
  hits : s.cache.counters.hits = s.metrics.cacheHits
  misses : s.cache.counters.misses = s.metrics.providerCalls + s.metrics.skippedNoProvider

theorem BoundedCache.counters_of_get {κ α : Type} [DecidableEq κ] {c c' : BoundedCache κ α} {now : Nat} {k : κ}
    {found : Option α} (h : c.get now k = (found, c')) :
    c'.counters.hits = c.counters.hits + found.isSome.toNat ∧
      c'.counters.misses = c.counters.misses + found.isNone.toNat := by
  obtain ⟨-, hget⟩ | ⟨x, -, ⟨-, hget⟩ | ⟨-, hget⟩⟩ := c.get_cases now k <;> cases h.symm.trans hget <;> simp

theorem EmbeddingCache.counters_putText (c : EmbeddingCache) (now : Nat) (text : String) (v : Embedding) :
    (c.putText now text v).counters.hits = c.counters.hits ∧
      (c.putText now text v).counters.misses = c.counters.misses := by
  rw [putText]
  split <;> exact ⟨rfl, rfl⟩

/-- The end of a call is no lookup. -/
theorem Lookup.lookups_counted (l : Lookup) :
    l.counted.cacheHits = 0 ∧ l.counted.providerCalls = 0 ∧ l.counted.skippedNoProvider = 0 := by
  rcases l with v | _ | _ | _ | _ | _ <;> exact ⟨rfl, rfl, rfl⟩

namespace Shared.Tallied

theorem start (H : s.Tallied) (e : Embedder) (text : String) : (e.start text s).2.Tallied := by
  have hstarts := e.starts text s
  generalize e.start text s = x at hstarts
  obtain ⟨hhits, hmisses⟩ := H
  cases hstarts with
  | blank => exact ⟨hhits, hmisses⟩
  | found htext hget =>
    have hcounters := BoundedCache.counters_of_get hget
    exact ⟨by simp [hcounters, hhits], by simp [hcounters, hmisses]⟩
  | skipped htext hget hp =>
    have hcounters := BoundedCache.counters_of_get hget
    exact ⟨by simp [hcounters, hhits], by simp [hcounters, hmisses, Nat.add_assoc]⟩
  | called htext hget hp =>
    have hcounters := BoundedCache.counters_of_get hget
    exact ⟨by simp [hcounters, hhits], by simp [hcounters, hmisses, Nat.add_right_comm]⟩

/-- Neither a write nor the end of a call is a lookup. -/
theorem settle (H : s.Tallied) (c : Call) : (c.settle s).Tallied := by
  obtain ⟨hfound, hcalls, hskipped⟩ := c.outcome.lookups_counted
  have hcounters : (c.settle s).cache.counters.hits = s.cache.counters.hits ∧
      (c.settle s).cache.counters.misses = s.cache.counters.misses := by
    unfold Call.settle
    split
    · exact EmbeddingCache.counters_putText ..
    · exact ⟨rfl, rfl⟩
  constructor
  · rw [hcounters.1, H.hits, c.metrics_settle, EmbedderMetrics.cacheHits_add, hfound, Nat.add_zero]
  · rw [hcounters.2, H.misses, c.metrics_settle, EmbedderMetrics.providerCalls_add,
      EmbedderMetrics.skippedNoProvider_add, hcalls, hskipped, Nat.add_zero, Nat.add_zero]

theorem withNow (H : s.Tallied) (now : Nat) : Shared.Tallied { s with now } := ⟨H.hits, H.misses⟩

theorem embed (H : s.Tallied) (e : Embedder) (text : String) : (e.embed text s).2.Tallied := by
  have hstart := H.start e text
  rw [Embedder.embed]
  generalize e.start text s = x at hstart ⊢
  rcases x with ⟨l | c, t⟩
  · exact hstart
  · exact settle (hstart.withNow _) c

theorem launch (H : s.Tallied) (e : Embedder) (text : String) : (e.launch text s).2.Tallied := by
  have hstart := H.start e text
  rw [Embedder.launch]
  generalize e.start text s = x at hstart ⊢
  rcases x with ⟨l | c, t⟩
  · exact hstart
  · dsimp only
    split
    · exact settle hstart c
    · exact hstart

theorem launchAll (e : Embedder) (texts : List String) :
    ∀ {s : Shared}, s.Tallied → (e.launchAll texts s).2.Tallied := by
  induction texts with
  | nil => exact id
  | cons text texts ih => exact fun H => ih (H.launch e text)

theorem settleAll (since : Nat) (cs : List Call) :
    ∀ {s : Shared}, s.Tallied → (Embedder.settleAll since cs s).Tallied := by
  induction cs with
  | nil => exact id
  | cons c cs ih => exact fun H => ih ((H.withNow _).settle c)

theorem embedMany (H : s.Tallied) (e : Embedder) (texts : List String) : (e.embedMany texts s).2.Tallied :=
  settleAll _ _ (launchAll e texts H)

end Shared.Tallied

/-! ## Runs -/

/-- What can be done with embedders that share a provider, and with their cache. Clones differ in their time limit. -/
inductive EmbedderStep where
  | embed (timeout : Nat) (text : String)
  | embedMany (timeout : Nat) (texts : List String)
  | advance (ms : Nat)
  | cache (use : CacheUse String Embedding)

namespace EmbedderStep

/-- The texts that are looked up. -/
def texts : EmbedderStep → List String
  | embed _ text => [text]
  | embedMany _ texts => texts
  | advance _ => []
  | cache _ => []

/-- Is the cache used only by the embedders, and not cleared? -/
def IsLookup : EmbedderStep → Prop
  | cache use => use = .cleanup
  | _ => True

variable (p : Option Provider)

/-- The lookups of a step as they go. -/
def records : EmbedderStep → Shared → List LookupRecord
  | embed timeout text, s => [Embedder.record ⟨p, timeout⟩ text s]
  | embedMany timeout texts, s => Embedder.records ⟨p, timeout⟩ texts s
  | advance _, _ => []
  | cache _, _ => []

/-- What the embedders share after a step. -/
def after : EmbedderStep → Shared → Shared
  | embed timeout text, s => (Embedder.embed ⟨p, timeout⟩ text s).2
  | embedMany timeout texts, s => (Embedder.embedMany ⟨p, timeout⟩ texts s).2
  | advance ms, s => s.advance ms
  | cache use, s => { s with cache := use.apply s.now s.cache }

/-- The lookups of a run as they go, and what the embedders share after it. -/
def run : List EmbedderStep → Shared → List LookupRecord × Shared
  | [], s => ([], s)
  | x :: steps, s =>
      let (rest, t) := run steps (x.after p s)
      (x.records p s ++ rest, t)

theorem run_cons (x : EmbedderStep) (steps : List EmbedderStep) (s : Shared) :
    run p (x :: steps) s = (x.records p s ++ (run p steps (x.after p s)).1, (run p steps (x.after p s)).2) := rfl

theorem map_text_records (x : EmbedderStep) (s : Shared) : (x.records p s).map (·.text) = x.texts := by
  cases x with
  | embed timeout text => rfl
  | embedMany timeout texts => exact Embedder.map_text_records ..
  | _ => rfl

theorem proper_records (x : EmbedderStep) (s : Shared) : ∀ r ∈ x.records p s, r.Proper := by
  cases x with
  | embed timeout text => exact List.forall_mem_singleton.2 (Embedder.proper_record ..)
  | embedMany timeout texts => exact Embedder.proper_records _ texts s
  | _ => nofun

theorem metrics_after (x : EmbedderStep) (s : Shared) :
    (x.after p s).metrics = s.metrics + ((x.records p s).map LookupRecord.counted).sum := by
  cases x with
  | embed timeout text =>
    rw [records, List.map_singleton, List.sum_singleton]
    exact Embedder.metrics_embed ..
  | embedMany timeout texts => exact Embedder.metrics_embedMany ..
  | advance ms => exact (add_zero _).symm
  | cache use => exact (add_zero _).symm

theorem tallied_after {x : EmbedderStep} (hx : x.IsLookup) (H : s.Tallied) : (x.after p s).Tallied := by
  cases x with
  | embed timeout text => exact H.embed ..
  | embedMany timeout texts => exact H.embedMany ..
  | advance ms => exact H.withNow _
  | cache use =>
    cases hx
    exact ⟨H.hits, H.misses⟩

theorem map_text_run (steps : List EmbedderStep) :
    ∀ s : Shared, (run p steps s).1.map (·.text) = steps.flatMap texts := by
  induction steps with
  | nil => exact fun _ => rfl
  | cons x steps ih =>
    intro s
    rw [run_cons, List.map_append, x.map_text_records, ih, List.flatMap_cons]

theorem proper_run (steps : List EmbedderStep) : ∀ s : Shared, ∀ r ∈ (run p steps s).1, r.Proper := by
  induction steps with
  | nil => exact fun _ => nofun
  | cons x steps ih =>
    intro s
    rw [run_cons, List.forall_mem_append]
    exact ⟨x.proper_records p s, ih _⟩

/-- A run counts its lookups. -/
theorem metrics_run (steps : List EmbedderStep) :
    ∀ s : Shared, (run p steps s).2.metrics =
      s.metrics + ((run p steps s).1.map LookupRecord.counted).sum := by
  induction steps with
  | nil => exact fun _ => (add_zero _).symm
  | cons x steps ih =>
    intro s
    rw [run_cons, List.map_append, List.sum_append, ← add_assoc, ← x.metrics_after p s]
    exact ih _

theorem tallied_run (steps : List EmbedderStep) (hsteps : ∀ x ∈ steps, x.IsLookup) :
    ∀ {s : Shared}, s.Tallied → (run p steps s).2.Tallied := by
  induction steps with
  | nil => exact id
  | cons x steps ih =>
    obtain ⟨hx, hrest⟩ := List.forall_mem_cons.1 hsteps
    exact fun H => ih hrest (tallied_after p hx H)

end EmbedderStep

/-! ## What the counters tell -/

namespace EmbedderMetrics

/-- The lookups that did not end before they reached the cache. -/
def lookups : EmbedderMetrics →+ Nat where
  toFun m := m.cacheHits + m.providerCalls + m.skippedNoProvider
  map_zero' := rfl
  map_add' m n := by simp; omega

def calls : EmbedderMetrics →+ Nat where
  toFun := providerCalls
  map_zero' := rfl
  map_add' _ _ := rfl

/-- The calls that ended without an embedding. -/
def failedCalls : EmbedderMetrics →+ Nat where
  toFun m := m.providerFailures + m.timeouts + m.dimensionMismatches
  map_zero' := rfl
  map_add' m n := by simp; omega

def unavailable : EmbedderMetrics →+ Nat where
  toFun := totalUnavailable
  map_zero' := rfl
  map_add' m n := by simp [totalUnavailable]; omega

end EmbedderMetrics

/-- Did a lookup end without an embedding, although the text was not blank? -/
def Lookup.isMissing : Lookup → Bool
  | .unavailable reason => decide (reason ≠ .emptyInput)
  | .ready _ => false

namespace LookupRecord

/-- Is the embedding a new answer of the provider? -/
def isNew (r : LookupRecord) : Bool := r.result.embedding?.isSome && !r.cached

/-- Two sums of counters differ by the number of lookups for which they do. -/
theorem sum_counted (f g : EmbedderMetrics →+ Nat) (test : LookupRecord → Bool) {rs : List LookupRecord}
    (h : ∀ r ∈ rs, f r.counted = g r.counted + (test r).toNat) :
    f (rs.map counted).sum = g (rs.map counted).sum + rs.countP test := by
  induction rs with
  | nil => simp
  | cons r rs ih =>
    obtain ⟨hr, hrest⟩ := List.forall_mem_cons.1 h
    have hcount : (r :: rs).countP test = rs.countP test + (test r).toNat := by
      cases htest : test r <;> simp [htest]
    rw [List.map_cons, List.sum_cons, map_add, map_add, hr, ih hrest, hcount]
    omega

variable {r : LookupRecord}

theorem Proper.lookups_counted (H : r.Proper) :
    EmbedderMetrics.lookups r.counted = (!r.text.toList.all Text.isBlank).toNat := by
  have hblank : r.text.toList.all Text.isBlank = decide (r.result = .unavailable .emptyInput) := by
    rw [Bool.eq_iff_iff, List.all_eq_true, ← Text.normalize?_eq_none_iff, H.blank_iff, decide_eq_true_iff]
  rw [hblank]
  obtain ⟨text, _ | _, result⟩ := r
  · rcases result with v | _ | _ | _ | _ | _ <;> rfl
  · obtain ⟨v, rfl⟩ := H.ready_of_cached rfl
    rfl

theorem Proper.calls_counted (H : r.Proper) :
    EmbedderMetrics.calls r.counted = EmbedderMetrics.failedCalls r.counted + r.isNew.toNat := by
  obtain ⟨text, _ | _, result⟩ := r
  · rcases result with v | _ | _ | _ | _ | _ <;> rfl
  · obtain ⟨v, rfl⟩ := H.ready_of_cached rfl
    rfl

theorem Proper.unavailable_counted (H : r.Proper) :
    EmbedderMetrics.unavailable r.counted = r.result.isMissing.toNat := by
  obtain ⟨text, _ | _, result⟩ := r
  · rcases result with v | _ | _ | _ | _ | _ <;> rfl
  · obtain ⟨v, rfl⟩ := H.ready_of_cached rfl
    rfl

end LookupRecord

namespace EmbedderStep

/-- Whatever a provider answers and when, each lookup of a text that is not blank is counted once, as a hit, as a call
or as skipped; each call is counted once by how it ended, or brought a new embedding; each text without an embedding
is counted once; and the cache has counted the same hits and misses unless something else used it. -/
theorem run_accounted (p : Option Provider) (hmetrics : s.metrics = {}) (steps : List EmbedderStep) :
    let rs := (run p steps s).1
    let t := (run p steps s).2
    rs.map (·.text) = steps.flatMap texts ∧
      t.metrics.cacheHits + t.metrics.providerCalls + t.metrics.skippedNoProvider =
        (steps.flatMap texts).countP (fun text => !text.toList.all Text.isBlank) ∧
      t.metrics.providerCalls =
        t.metrics.providerFailures + t.metrics.timeouts + t.metrics.dimensionMismatches +
          rs.countP LookupRecord.isNew ∧
      t.metrics.totalUnavailable = rs.countP (fun r => r.result.isMissing) ∧
      (s.cache.counters = {} → (∀ x ∈ steps, x.IsLookup) →
        t.cache.counters.hits = t.metrics.cacheHits ∧
          t.cache.counters.misses = t.metrics.providerCalls + t.metrics.skippedNoProvider) := by
  intro rs t
  have hsum : t.metrics = (rs.map LookupRecord.counted).sum := by
    rw [metrics_run, hmetrics]
    exact zero_add _
  have hproper := proper_run p steps s
  have htexts := map_text_run p steps s
  have hlookups := LookupRecord.sum_counted EmbedderMetrics.lookups 0 _ fun r hr =>
    (hproper r hr).lookups_counted.trans (zero_add _).symm
  have hcalls := LookupRecord.sum_counted EmbedderMetrics.calls EmbedderMetrics.failedCalls _ fun r hr =>
    (hproper r hr).calls_counted
  have hmissing := LookupRecord.sum_counted EmbedderMetrics.unavailable 0 _ fun r hr =>
    (hproper r hr).unavailable_counted.trans (zero_add _).symm
  rw [← hsum] at hlookups hcalls hmissing
  refine ⟨htexts, ?_, hcalls, hmissing.trans (zero_add _), fun hcounters hsteps => ?_⟩
  · rw [← htexts, List.countP_map]
    exact hlookups.trans (zero_add _)
  · have H : s.Tallied := ⟨by rw [hcounters, hmetrics], by rw [hcounters, hmetrics]; rfl⟩
    have H' : t.Tallied := tallied_run p steps hsteps H
    exact ⟨H'.hits, H'.misses⟩

/-- A provider that knows a text at once when it is asked for the first time, fails the second time, takes its time
from then on, and gets the dimension wrong in the end. -/
def tiring : Provider where
  dimension := 2
  reply _ asked _ :=
    match asked.length with
    | 0 => ⟨0, .ok [.one, .zero]⟩
    | 1 => ⟨30, .error (.provider "model offline")⟩
    | 2 => ⟨20, .ok [.zero, .one]⟩
    | 3 => ⟨900, .ok [.zero, .one]⟩
    | _ => ⟨10, .ok [.zero]⟩

/-- Texts are looked up by two clones, some of them at the same time, with room for one embedding. -/
def visits : List EmbedderStep :=
  [.embedMany 100 ["Lamp", " lamp", "", "door", "door"], .advance 5, .embed 50 "lamp", .cache .cleanup,
    .embedMany 50 ["hall", "DOOR", " "], .embed 100 "door"]

/-- Of the ten texts eight are not blank. Three were found, and five calls brought two embeddings. -/
theorem run_accounted_visits :
    let s := Shared.start ⟨1, some 60⟩
    let rs := (run (some tiring) visits s).1
    let t := (run (some tiring) visits s).2
    s.metrics = {} ∧ s.cache.counters = {} ∧ (∀ x ∈ visits, x.IsLookup) ∧
      (t.metrics, t.cache.counters) = (⟨3, 5, 1, 1, 1, 0⟩, ⟨3, 5, 1, 0⟩) ∧
      (t.metrics.cacheHits + t.metrics.providerCalls + t.metrics.skippedNoProvider =
          (visits.flatMap texts).countP (fun text => !text.toList.all Text.isBlank) ∧
        t.metrics.providerCalls =
          t.metrics.providerFailures + t.metrics.timeouts + t.metrics.dimensionMismatches +
            rs.countP LookupRecord.isNew ∧
        t.metrics.totalUnavailable = rs.countP (fun r => r.result.isMissing)) ∧
      t.cache.counters.hits = t.metrics.cacheHits ∧
      t.cache.counters.misses = t.metrics.providerCalls + t.metrics.skippedNoProvider := by
  intro s rs t
  have hsteps : ∀ x ∈ visits, x.IsLookup := by simp [visits, IsLookup]
  obtain ⟨-, hlookups, hcalls, hmissing, hcache⟩ := run_accounted (s := s) (some tiring) rfl visits
  exact ⟨rfl, rfl, hsteps, by decide +kernel, ⟨hlookups, hcalls, hmissing⟩, hcache rfl hsteps⟩

end EmbedderStep

end DeviceNaming
