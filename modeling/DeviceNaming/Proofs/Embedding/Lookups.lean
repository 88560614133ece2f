import DeviceNaming.Embedding.Embedder
import DeviceNaming.Proofs.Cache.Bounded
import DeviceNaming.Proofs.Text.Normal
import Mathlib.Data.List.Forall2

/-!
# What lookups keep

A law says how lookups of normal forms may end. An embedder obeys it (`Embedder.Obeys`) if every call to its
provider ends so, whenever the call is made and whatever was asked before. Then every lookup does, alone or
among others, as long as the embedding cache holds only what the law allows, and the cache goes on to do so:
`Shared.Keeps.embed`, `Shared.Keeps.embedMany`.

The law of an arbitrary provider is that its embeddings are of the dimension that it declares
(`Embedder.Declared.obeys`).
-/

namespace DeviceNaming

-- nothing below looks into the normal form, and unfolding it is slow
attribute [local irreducible] Text.normalize

/-- How the lookup of a normal form may end. -/
abbrev LookupLaw := String → Lookup → Prop

/-- Lookups without a provider and calls to the provider end as the law says. -/
structure Embedder.Obeys (e : Embedder) (P : LookupLaw) : Prop where
  unprovided : e.provider = none → ∀ key, P key (.unavailable .noProvider)
  called : ∀ p, e.provider = some p → ∀ now asked key,
    P key (Call.mk key p.dimension e.timeout (p.reply now asked key)).outcome

/-- The lookup of a text ended as the law says. -/
def Lookup.Ends (P : LookupLaw) (text : String) (l : Lookup) : Prop :=
  match Text.normalize? text with
  | none => l = .unavailable .emptyInput
  | some key => P key l

/-- A call to the provider for a normal form, which will end as the law says. -/
structure Call.Ends (P : LookupLaw) (c : Call) : Prop where
  normal : Text.normalize? c.key = some c.key
  outcome : P c.key c.outcome

/-- A started lookup, which will end as the law says. -/
structure Started.Ends (P : LookupLaw) (text : String) (x : Started) : Prop where
  outcome : x.outcome.Ends P text
  call : ∀ c, x = .waiting c → c.Ends P

/-- The cache holds, under normal forms, what the law allows for them. -/
def Shared.Keeps (P : LookupLaw) (s : Shared) : Prop :=
  s.cache.Holds fun key v => Text.normalize? key = some key ∧ P key (.ready v)

variable {e : Embedder} {P : LookupLaw} {s : Shared}

theorem Started.eq_waiting_of_call? {x : Started} {c : Call} (h : x.call? = some c) :
    x = .waiting c := by
  cases x with
  | done l => cases h
  | waiting c' => exact congrArg _ (Option.some.inj h)

theorem Embedder.launchAll_cons (e : Embedder) (text : String) (texts : List String) (s : Shared) :
    e.launchAll (text :: texts) s =
      ((e.launch text s).1 :: (e.launchAll texts (e.launch text s).2).1,
        (e.launchAll texts (e.launch text s).2).2) := rfl

theorem Embedder.length_launchAll (e : Embedder) (texts : List String) :
    ∀ s : Shared, (e.launchAll texts s).1.length = texts.length := by
  induction texts with
  | nil => exact fun s => rfl
  | cons text texts ih => exact fun s => congrArg (· + 1) (ih _)

/-- Each text has a lookup. -/
theorem Embedder.length_embedMany (e : Embedder) (texts : List String) (s : Shared) :
    (e.embedMany texts s).1.length = texts.length :=
  (List.length_map _).trans (e.length_launchAll texts s)

namespace Shared.Keeps

theorem of_entries_eq_nil (h : s.cache.entries = []) : s.Keeps P :=
  BoundedCache.holds_of_entries_eq_nil h

/-- The invariant is about the cache alone. -/
theorem of_cache_eq {t : Shared} (H : s.Keeps P) (h : t.cache = s.cache) : t.Keeps P := by
  rw [Keeps, h]
  exact H

theorem advance (H : s.Keeps P) (ms : Nat) : (s.advance ms).Keeps P := H.of_cache_eq rfl

theorem cleanup (H : s.Keeps P) : s.cleanupCache.2.Keeps P := BoundedCache.Holds.cleanup H _

theorem clear : s.clearCache.Keeps P := BoundedCache.Holds.clear

/-! ## One lookup -/

theorem settle (H : s.Keeps P) {c : Call} (hc : c.Ends P) : (c.settle s).Keeps P := by
  unfold Call.settle
  split
  · rename_i v hv
    change (EmbeddingCache.putText s.cache s.now c.key v).Holds _
    unfold EmbeddingCache.putText
    rw [hc.normal]
    exact BoundedCache.Holds.put H ⟨hc.normal, hv ▸ hc.outcome⟩ s.now
  · exact H

/-- Starting a lookup keeps the invariant, and what it starts will end as the law says. -/
theorem start (H : s.Keeps P) (he : e.Obeys P) (text : String) :
    (e.start text s).1.Ends P text ∧ (e.start text s).2.Keeps P := by
  unfold Embedder.start
  split
  · rename_i hnone
    exact ⟨⟨by rw [Lookup.Ends, hnone]; rfl, nofun⟩, H⟩
  · rename_i key hkey
    have hkey' := Text.normalize?_of_eq_some hkey
    have hends : ∀ l : Lookup, l.Ends P text ↔ P key l := fun l => by rw [Lookup.Ends, hkey]
    have hget : s.cache.getText s.now key = s.cache.get s.now key := by
      rw [EmbeddingCache.getText, hkey']
    have hcache : ∀ found cache, s.cache.getText s.now key = (found, cache) →
        cache.Holds fun key v => Text.normalize? key = some key ∧ P key (.ready v) := by
      intro found cache h
      have hget' := BoundedCache.Holds.get H s.now key
      rw [hget] at h
      rwa [h] at hget'
    split
    · rename_i v cache h
      have hv := (BoundedCache.Holds.of_get H (congrArg Prod.fst (hget.symm.trans h))).2
      exact ⟨⟨(hends _).2 hv, nofun⟩, hcache _ cache h⟩
    · rename_i cache h
      split
      · rename_i hp
        exact ⟨⟨(hends _).2 (he.unprovided hp key), nofun⟩, hcache _ cache h⟩
      · rename_i p hp
        have hcall := he.called p hp s.now s.asked key
        refine ⟨⟨(hends _).2 hcall, ?_⟩, hcache _ cache h⟩
        rintro c ⟨⟩
        exact ⟨hkey', hcall⟩

/-- A lookup ends as the law says. -/
theorem embed (H : s.Keeps P) (he : e.Obeys P) (text : String) :
    (e.embed text s).1.Ends P text ∧ (e.embed text s).2.Keeps P := by
  obtain ⟨hstart, hs⟩ := H.start he text
  unfold Embedder.embed
  split
  · rename_i l t h
    rw [h] at hstart hs
    exact ⟨hstart.outcome, hs⟩
  · rename_i c t h
    rw [h] at hstart hs
    exact ⟨hstart.outcome, (hs.advance c.wait).settle (hstart.call c rfl)⟩

/-! ## Lookups at the same time -/

theorem launch (H : s.Keeps P) (he : e.Obeys P) (text : String) :
    (e.launch text s).1.Ends P text ∧ (e.launch text s).2.Keeps P := by
  obtain ⟨hstart, hs⟩ := H.start he text
  unfold Embedder.launch
  split
  · rename_i c t h
    rw [h] at hstart hs
    split
    · exact ⟨⟨hstart.outcome, nofun⟩, hs.settle (hstart.call c rfl)⟩
    · exact ⟨hstart, hs⟩
  · exact ⟨hstart, hs⟩

theorem launchAll (he : e.Obeys P) (texts : List String) :
    ∀ {s : Shared}, s.Keeps P →
      List.Forall₂ (Lookup.Ends P) texts ((e.launchAll texts s).1.map Started.outcome) ∧
      (∀ c ∈ (e.launchAll texts s).1.filterMap Started.call?, c.Ends P) ∧
      (e.launchAll texts s).2.Keeps P := by
  induction texts with
  | nil => exact fun H => ⟨.nil, nofun, H⟩
  | cons text texts ih =>
    intro s H
    obtain ⟨hfirst, hs⟩ := H.launch he text
    obtain ⟨hrest, hcalls, hs'⟩ := ih hs
    rw [Embedder.launchAll_cons]
    refine ⟨.cons hfirst.outcome hrest, fun c hc => ?_, hs'⟩
    obtain ⟨x, hx, hcall⟩ := List.mem_filterMap.1 hc
    rcases List.mem_cons.1 hx with rfl | hx
    · exact hfirst.call c (Started.eq_waiting_of_call? hcall)
    · exact hcalls c (List.mem_filterMap.2 ⟨x, hx, hcall⟩)

theorem settleAll (since : Nat) {cs : List Call} (hcs : ∀ c ∈ cs, c.Ends P) :
    ∀ {s : Shared}, s.Keeps P → (Embedder.settleAll since cs s).Keeps P := by
  induction cs with
  | nil => exact fun H => H
  | cons c cs ih =>
    intro s H
    exact ih (fun c' hc' => hcs c' (List.mem_cons_of_mem _ hc'))
      ((of_cache_eq (t := { s with now := since + c.wait }) H rfl).settle (hcs c List.mem_cons_self))

/-- Each of the lookups ends as the law says. -/
theorem embedMany (H : s.Keeps P) (he : e.Obeys P) (texts : List String) :
    List.Forall₂ (Lookup.Ends P) texts (e.embedMany texts s).1 ∧ (e.embedMany texts s).2.Keeps P := by
  obtain ⟨hout, hcalls, hs⟩ := launchAll he texts H
  exact ⟨hout, settleAll s.now (fun c hc => hcalls c (mem_stableSort.1 hc)) hs⟩

end Shared.Keeps

/-! ## The declared dimension -/

namespace Embedder

/-- The vector is of the dimension that the provider declares. -/
def Fits (e : Embedder) (v : Embedding) : Prop := ∃ p, e.provider = some p ∧ v.length = p.dimension

/-- The provider, if there is one, declares the dimension of its answers. -/
def Declared (e : Embedder) : Prop := ∀ p, e.provider = some p → 0 < p.dimension

/-- Embeddings are of the declared dimension. -/
def fitting (e : Embedder) : LookupLaw := fun _ l => ∀ v, l = .ready v → e.Fits v

theorem Fits.length_eq {v w : Embedding} (hv : e.Fits v) (hw : e.Fits w) : v.length = w.length := by
  obtain ⟨p, hp, hv⟩ := hv
  obtain ⟨q, hq, hw⟩ := hw
  rw [hp] at hq
  cases hq
  rw [hv, hw]

end Embedder

/-- A vector of another dimension than the declared one is no answer. -/
theorem Call.length_of_outcome {c : Call} {v : Embedding} (hd : 0 < c.dimension)
    (h : c.outcome = .ready v) : v.length = c.dimension := by
  unfold Call.outcome at h
  split at h
  · cases h
  · split at h
    · cases h
    · split at h
      · cases h
      · rename_i hfits
        cases h
        simp only [Bool.or_eq_true, Bool.and_eq_true, decide_eq_true_eq, bne_iff_ne, not_or,
          not_and, Classical.not_not] at hfits
        exact hfits.2 hd

/-- Whatever a provider answers, no lookup ends with a vector of another dimension than it declares. -/
theorem Embedder.Declared.obeys (hd : e.Declared) : e.Obeys e.fitting where
  unprovided _ _ _ h := by cases h
  called p hp _ _ _ _ h := ⟨p, hp, Call.length_of_outcome (hd p hp) h⟩

theorem Lookup.Ends.fits {text : String} {v : Embedding} (H : (Lookup.ready v).Ends e.fitting text) :
    e.Fits v := by
  unfold Lookup.Ends at H
  split at H
  · cases H
  · exact H v rfl

theorem Lookup.fits_of_mem {texts : List String} {found : List Lookup} {v : Embedding}
    (H : List.Forall₂ (Lookup.Ends e.fitting) texts found) (hv : .ready v ∈ found) : e.Fits v := by
  induction H with
  | nil => cases hv
  | cons hends _ ih =>
    rcases List.mem_cons.1 hv with rfl | hv
    · exact hends.fits
    · exact ih hv

end DeviceNaming
