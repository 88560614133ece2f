import DeviceNaming.Embedding.Scripted
import DeviceNaming.Proofs.Embedding.Lookups

/-!
# Lookups with a steady provider

With a provider whose answers depend on the text alone, every lookup of a text ends in the same way:
`Embedder.answer` says how, from the text alone. The embedding cache, the time, and the other lookups that
run at the same time are not seen in it (`Shared.Coherent.embed`, `Shared.Coherent.embedMany`).

The invariant is `Shared.Coherent`: the cache holds only embeddings that the provider gives, which is to keep the law
that lookups end as `Embedder.answerFor` says. It holds in every state that lookups, the clock and the cleaning of
the cache can lead to (`Shared.Reached.coherent`).
-/

namespace DeviceNaming

-- nothing below looks into the normal form, and unfolding it is slow
attribute [local irreducible] Text.normalize

namespace Embedder

/-- The provider, if there is one, answers by the text alone. -/
def ByText (e : Embedder) : Prop := ∀ p, e.provider = some p → p.Steady

/-- The provider, if there is one, answers by the text alone and declares the dimension of its answers. -/
def Steady (e : Embedder) : Prop := ∀ p, e.provider = some p → p.Steady ∧ 0 < p.dimension

/-- The provider, if there is one, answers at once. -/
def Prompt (e : Embedder) : Prop := ∀ p, e.provider = some p → p.Prompt

/-- How a call to a steady provider for a normal form ends. -/
def answerFor (e : Embedder) (key : String) : Lookup :=
  match e.provider with
  | none => .unavailable .noProvider
  | some p => (Call.mk key p.dimension e.timeout (p.reply 0 [] key)).outcome

/-- How the lookup of a text ends. -/
def answer (e : Embedder) (text : String) : Lookup :=
  match Text.normalize? text with
  | none => .unavailable .emptyInput
  | some key => e.answerFor key

/-- Lookups end as the answers of a steady provider. -/
def steadily (e : Embedder) : LookupLaw := fun key l => e.answerFor key = l

end Embedder

namespace Shared

/-- The cache holds, under normal forms, what the provider answers for them. -/
def Coherent (e : Embedder) (s : Shared) : Prop :=
  s.cache.Holds fun key v => Text.normalize? key = some key ∧ e.answerFor key = .ready v

/-- The states that an embedder may lead to from an empty cache. -/
inductive Reached (e : Embedder) : Shared → Prop
  | start {s} : s.cache.entries = [] → Reached e s
  | embed {s} (text : String) : Reached e s → Reached e (e.embed text s).2
  | embedMany {s} (texts : List String) : Reached e s → Reached e (e.embedMany texts s).2
  | advance {s} (ms : Nat) : Reached e s → Reached e (s.advance ms)
  | cleanup {s} : Reached e s → Reached e s.cleanupCache.2
  | clear {s} : Reached e s → Reached e s.clearCache

end Shared

theorem reached_start (e : Embedder) (c : CacheSettings) : (Shared.start c).Reached e := .start rfl

variable {e : Embedder} {s : Shared}

theorem Embedder.steady_keywords (synonyms : List (String × String)) (timeout : Nat) :
    Embedder.Steady ⟨some (.keywords synonyms), timeout⟩ := by
  rintro p ⟨⟩
  exact ⟨Provider.steady_ofText _ _, Nat.succ_pos _⟩

theorem Embedder.prompt_keywords (synonyms : List (String × String)) (timeout : Nat) :
    Embedder.Prompt ⟨some (.keywords synonyms), timeout⟩ := by
  rintro p ⟨⟩ now asked text
  rfl

theorem Embedder.Steady.byText (H : e.Steady) : e.ByText := fun p hp => (H p hp).1

theorem Embedder.ByText.obeys (H : e.ByText) : e.Obeys e.steadily where
  unprovided hp key := by rw [Embedder.steadily, Embedder.answerFor, hp]
  called p hp now asked key := by rw [Embedder.steadily, Embedder.answerFor, hp, H p hp now asked key]

theorem Embedder.Steady.obeys (H : e.Steady) : e.Obeys e.steadily := H.byText.obeys

theorem Lookup.Ends.eq_answer {l : Lookup} {text : String} (H : l.Ends e.steadily text) :
    l = e.answer text := by
  unfold Lookup.Ends at H
  unfold Embedder.answer
  split
  · rename_i hnone
    rwa [hnone] at H
  · rename_i key hkey
    rw [hkey] at H
    exact H.symm

theorem Lookup.eq_map_answer {texts : List String} {found : List Lookup}
    (H : List.Forall₂ (Lookup.Ends e.steadily) texts found) : found = texts.map e.answer := by
  have hanswers : List.Forall₂ (fun text l => e.answer text = l) texts found :=
    H.imp fun _ _ h => h.eq_answer.symm
  rw [← List.forall₂_map_left_iff (R := Eq), List.forall₂_eq_eq_eq] at hanswers
  exact hanswers.symm

theorem Embedder.Steady.fits_of_answerFor (H : e.Steady) {key : String} {v : Embedding}
    (h : e.answerFor key = .ready v) : e.Fits v := by
  unfold Embedder.answerFor at h
  split at h
  · cases h
  · rename_i p hp
    exact ⟨p, hp, Call.length_of_outcome (H p hp).2 h⟩

theorem Embedder.Steady.fits_of_answer (H : e.Steady) {text : String} {v : Embedding}
    (h : e.answer text = .ready v) : e.Fits v := by
  unfold Embedder.answer at h
  split at h
  · cases h
  · exact H.fits_of_answerFor h

theorem Embedder.answer_of_normal {key : String} (h : Text.normalize? key = some key) :
    e.answer key = e.answerFor key := by
  rw [Embedder.answer, h]

namespace Shared.Coherent

/-- The invariant is about the cache alone. -/
theorem of_cache_eq {t : Shared} (H : s.Coherent e) (h : t.cache = s.cache) : t.Coherent e :=
  Keeps.of_cache_eq H h

/-- A lookup ends as the answer says. -/
theorem embed (H : s.Coherent e) (he : e.Steady) (text : String) :
    (e.embed text s).1 = e.answer text ∧ (e.embed text s).2.Coherent e :=
  (Keeps.embed H he.obeys text).imp_left Lookup.Ends.eq_answer

/-- Each of the lookups ends as its answer says. -/
theorem embedMany (H : s.Coherent e) (he : e.Steady) (texts : List String) :
    (e.embedMany texts s).1 = texts.map e.answer ∧ (e.embedMany texts s).2.Coherent e :=
  (Keeps.embedMany H he.obeys texts).imp_left Lookup.eq_map_answer

end Shared.Coherent

/-- Every state that can be reached keeps the law that the embedder obeys. -/
theorem Shared.Reached.keeps {P : LookupLaw} (he : e.Obeys P) (H : s.Reached e) : s.Keeps P := by
  induction H with
  | start h => exact .of_entries_eq_nil h
  | embed text _ ih => exact (ih.embed he text).2
  | embedMany texts _ ih => exact (ih.embedMany he texts).2
  | advance ms _ ih => exact ih.advance ms
  | cleanup _ ih => exact ih.cleanup
  | clear => exact .clear

/-- Every state that can be reached is coherent. -/
theorem Shared.Reached.coherent (he : e.Steady) (H : s.Reached e) : s.Coherent e := H.keeps he.obeys

/-! ## Time -/

@[simp] theorem Call.now_settle (c : Call) (s : Shared) : (c.settle s).now = s.now := by
  unfold Call.settle
  split <;> rfl

theorem Embedder.now_start (e : Embedder) (text : String) (s : Shared) :
    (e.start text s).2.now = s.now := by
  unfold Embedder.start
  split
  · rfl
  · split
    · rfl
    · split <;> rfl

/-- A lookup waits for a call that was made just now. -/
theorem Embedder.call_of_start (e : Embedder) {text : String} {c : Call} (h : (e.start text s).1 = .waiting c) :
    ∃ p key, e.provider = some p ∧ c = ⟨key, p.dimension, e.timeout, p.reply s.now s.asked key⟩ := by
  unfold Embedder.start at h
  split at h
  · cases h
  · rename_i key _
    split at h
    · cases h
    · split at h
      · cases h
      · rename_i p hp
        cases h
        exact ⟨p, key, hp, rfl⟩

theorem Embedder.now_launch (e : Embedder) (text : String) (s : Shared) :
    (e.launch text s).2.now = s.now := by
  have hnow := e.now_start text s
  unfold Embedder.launch
  split
  · rename_i c t h
    rw [h] at hnow
    split
    · exact (Call.now_settle c t).trans hnow
    · exact hnow
  · exact hnow

theorem Embedder.now_launchAll (e : Embedder) (texts : List String) :
    ∀ s : Shared, (e.launchAll texts s).2.now = s.now := by
  induction texts with
  | nil => exact fun s => rfl
  | cons text texts ih =>
    intro s
    rw [launchAll_cons]
    exact (ih _).trans (e.now_launch text s)

namespace Embedder.Prompt

theorem delay_start (H : e.Prompt) {text : String} {s : Shared} {c : Call}
    (h : (e.start text s).1 = .waiting c) : c.reply.delay = 0 := by
  obtain ⟨p, key, hp, rfl⟩ := e.call_of_start h
  exact H p hp _ _ _

theorem now_embed (H : e.Prompt) (text : String) (s : Shared) : (e.embed text s).2.now = s.now := by
  have hnow := e.now_start text s
  unfold Embedder.embed
  split
  · rename_i l t h
    rwa [h] at hnow
  · rename_i c t h
    rw [h] at hnow
    rw [Call.now_settle, Shared.advance, Call.wait, H.delay_start (congrArg Prod.fst h), Nat.zero_min]
    exact hnow

theorem call?_launch (H : e.Prompt) (text : String) (s : Shared) :
    (e.launch text s).1.call? = none := by
  unfold Embedder.launch
  split
  · rename_i c t h
    rw [if_pos (H.delay_start (congrArg Prod.fst h))]
    rfl
  · rename_i hwait
    cases hx : (e.start text s).1 with
    | done l => rfl
    | waiting c => exact (hwait c _ (Prod.ext hx rfl)).elim

theorem calls_launchAll (H : e.Prompt) (texts : List String) :
    ∀ s : Shared, (e.launchAll texts s).1.filterMap Started.call? = [] := by
  induction texts with
  | nil => exact fun s => rfl
  | cons text texts ih =>
    intro s
    rw [launchAll_cons, List.filterMap_cons_none (H.call?_launch text s)]
    exact ih _

/-- Lookups at the same time take no time. -/
theorem now_embedMany (H : e.Prompt) (texts : List String) (s : Shared) :
    (e.embedMany texts s).2.now = s.now := by
  change (Embedder.settleAll _ (stableSort _ ((e.launchAll texts s).1.filterMap Started.call?)) _).now = _
  rw [H.calls_launchAll]
  exact e.now_launchAll texts s

end Embedder.Prompt

theorem Embedder.now_le_embed (e : Embedder) (text : String) (s : Shared) :
    s.now ≤ (e.embed text s).2.now := by
  have hnow := e.now_start text s
  unfold Embedder.embed
  split
  · rename_i l t h
    rw [h] at hnow
    exact Nat.le_of_eq hnow.symm
  · rename_i c t h
    rw [h] at hnow
    rw [Call.now_settle]
    exact hnow ▸ Nat.le_add_right ..

theorem Embedder.now_settleAll (since : Nat) (cs : List Call) :
    ∀ s : Shared, since ≤ s.now → since ≤ (Embedder.settleAll since cs s).now := by
  induction cs with
  | nil => exact fun s h => h
  | cons c cs ih =>
    intro s _
    refine ih _ ?_
    rw [Call.now_settle]
    exact Nat.le_add_right ..

theorem Embedder.now_le_embedMany (e : Embedder) (texts : List String) (s : Shared) :
    s.now ≤ (e.embedMany texts s).2.now :=
  Embedder.now_settleAll _ _ _ (Nat.le_of_eq (e.now_launchAll texts s).symm)

/-- One state comes out of another by lookups. -/
structure Shared.LeadsTo (e : Embedder) (s t : Shared) : Prop where
  reached : s.Reached e → t.Reached e
  now_le : s.now ≤ t.now
  now_eq : e.Prompt → t.now = s.now

namespace Shared.LeadsTo

theorem refl (s : Shared) : s.LeadsTo e s := ⟨id, Nat.le_refl _, fun _ => rfl⟩

theorem trans {t u : Shared} (H : s.LeadsTo e t) (H' : t.LeadsTo e u) : s.LeadsTo e u :=
  ⟨fun h => H'.reached (H.reached h), Nat.le_trans H.now_le H'.now_le,
    fun hp => (H'.now_eq hp).trans (H.now_eq hp)⟩

theorem embed (e : Embedder) (text : String) (s : Shared) : s.LeadsTo e (e.embed text s).2 :=
  ⟨.embed text, e.now_le_embed text s, fun hp => hp.now_embed text s⟩

theorem embedMany (e : Embedder) (texts : List String) (s : Shared) :
    s.LeadsTo e (e.embedMany texts s).2 :=
  ⟨.embedMany texts, e.now_le_embedMany texts s, fun hp => hp.now_embedMany texts s⟩

end Shared.LeadsTo

end DeviceNaming
