import DeviceNaming.Proofs.Embedding.Steady

/-!
# The embedding cache is not seen

With a provider that answers by the text alone, a lookup ends as it would end without a cache (`Embedder.Uncached`),
whatever was looked up before, dropped or cleared, and however much time went by. Looking texts up at the same
time ends as looking each of them up on its own, and takes no longer than the time limit of one lookup:
`Shared.Reached.lookups_uncached`.
-/

namespace DeviceNaming

-- nothing below looks into the normal form, and unfolding it is slow
attribute [local irreducible] Text.normalize

/-- Is the vector an embedding of the declared dimension? -/
def Provider.Accepts (p : Provider) (v : Embedding) : Prop :=
  v ≠ [] ∧ (0 < p.dimension → v.length = p.dimension)

/-- How the lookup of a text ends without a cache, if the provider answers by the text alone. -/
inductive Embedder.Uncached (e : Embedder) (text : String) : Lookup → Prop where
  | blank (htext : ∀ c ∈ text.toList, Text.isBlank c = true) : Uncached e text (.unavailable .emptyInput)
  | unprovided {key : String} (htext : Text.normalize? text = some key) (hp : e.provider = none) :
      Uncached e text (.unavailable .noProvider)
  | late {key : String} {p : Provider} (htext : Text.normalize? text = some key) (hp : e.provider = some p)
      (hdelay : e.timeout < (p.reply 0 [] key).delay) : Uncached e text (.unavailable .timeout)
  | failed {key : String} {p : Provider} {f : ProviderFailure} (htext : Text.normalize? text = some key)
      (hp : e.provider = some p) (hdelay : (p.reply 0 [] key).delay ≤ e.timeout)
      (hreply : (p.reply 0 [] key).outcome = .error f) : Uncached e text (.unavailable .failed)
  | misfit {key : String} {p : Provider} {v : Embedding} (htext : Text.normalize? text = some key)
      (hp : e.provider = some p) (hdelay : (p.reply 0 [] key).delay ≤ e.timeout)
      (hreply : (p.reply 0 [] key).outcome = .ok v) (hv : ¬p.Accepts v) :
      Uncached e text (.unavailable .dimensionMismatch)
  | ready {key : String} {p : Provider} {v : Embedding} (htext : Text.normalize? text = some key)
      (hp : e.provider = some p) (hdelay : (p.reply 0 [] key).delay ≤ e.timeout)
      (hreply : (p.reply 0 [] key).outcome = .ok v) (hv : p.Accepts v) : Uncached e text (.ready v)

variable {e : Embedder} {s : Shared}

/-! ## The end of a lookup -/

theorem Provider.not_accepts_iff {p : Provider} {v : Embedding} :
    ¬p.Accepts v ↔ (v.isEmpty || (decide (0 < p.dimension) && v.length != p.dimension)) = true := by
  simp [Accepts, or_iff_not_imp_left]

namespace Embedder

theorem answer_of_provider {text key : String} {p : Provider} (htext : Text.normalize? text = some key)
    (hp : e.provider = some p) :
    e.answer text = (Call.mk key p.dimension e.timeout (p.reply 0 [] key)).outcome := by
  rw [answer, htext]
  dsimp only
  rw [answerFor, hp]

theorem uncached_answer (e : Embedder) (text : String) : e.Uncached text (e.answer text) := by
  cases htext : Text.normalize? text with
  | none =>
    rw [answer, htext]
    exact .blank (Text.normalize?_eq_none_iff.1 htext)
  | some key =>
    cases hp : e.provider with
    | none =>
      rw [answer, htext]
      dsimp only
      rw [answerFor, hp]
      exact .unprovided htext hp
    | some p =>
      rw [answer_of_provider htext hp, Call.outcome]
      dsimp only
      split
      · rename_i hlate
        exact .late htext hp hlate
      · rename_i hdelay
        have hdelay' := Nat.le_of_not_lt hdelay
        split
        · rename_i f hreply
          exact .failed htext hp hdelay' hreply
        · rename_i v hreply
          split
          · rename_i hv
            exact .misfit htext hp hdelay' hreply (Provider.not_accepts_iff.2 hv)
          · rename_i hv
            exact .ready htext hp hdelay' hreply (not_not.1 fun h => hv (Provider.not_accepts_iff.1 h))

/-- Without a cache a lookup ends in one way. -/
theorem Uncached.eq_answer {text : String} {l : Lookup} (H : e.Uncached text l) : l = e.answer text := by
  cases H with
  | blank htext => rw [answer, Text.normalize?_eq_none_iff.2 htext]
  | unprovided htext hp =>
    rw [answer, htext]
    dsimp only
    rw [answerFor, hp]
  | late htext hp hdelay => rw [answer_of_provider htext hp, Call.outcome, if_pos hdelay]
  | failed htext hp hdelay hreply =>
    rw [answer_of_provider htext hp, Call.outcome, if_neg (Nat.not_lt.2 hdelay), hreply]
  | misfit htext hp hdelay hreply hv =>
    rw [answer_of_provider htext hp, Call.outcome, if_neg (Nat.not_lt.2 hdelay), hreply]
    exact (if_pos (Provider.not_accepts_iff.1 hv)).symm
  | ready htext hp hdelay hreply hv =>
    rw [answer_of_provider htext hp, Call.outcome, if_neg (Nat.not_lt.2 hdelay), hreply]
    exact (if_neg fun h => Provider.not_accepts_iff.2 h hv).symm

theorem uncached_iff {text : String} {l : Lookup} : e.Uncached text l ↔ e.answer text = l :=
  ⟨fun H => H.eq_answer.symm, fun h => h ▸ e.uncached_answer text⟩

/-! ## The time of lookups -/

theorem start_of_launch {text : String} {c : Call} (h : (e.launch text s).1 = .waiting c) :
    (e.start text s).1 = .waiting c := by
  unfold launch at h
  split at h
  · rename_i c' t hstart
    split at h
    · cases h
    · rw [hstart]
      exact h
  · exact h

theorem timeout_of_launchAll (e : Embedder) (texts : List String) :
    ∀ s : Shared, ∀ c ∈ (e.launchAll texts s).1.filterMap Started.call?, c.timeout = e.timeout := by
  induction texts with
  | nil => exact fun _ => nofun
  | cons text texts ih =>
    intro s c hc
    obtain ⟨x, hx, hcall⟩ := List.mem_filterMap.1 hc
    rw [launchAll_cons] at hx
    rcases List.mem_cons.1 hx with rfl | hx
    · obtain ⟨p, key, -, rfl⟩ := e.call_of_start (start_of_launch (Started.eq_waiting_of_call? hcall))
      rfl
    · exact ih _ c (List.mem_filterMap.2 ⟨x, hx, hcall⟩)

theorem now_settleAll_le {since limit : Nat} {cs : List Call} (hcs : ∀ c ∈ cs, c.timeout ≤ limit) :
    ∀ s : Shared, s.now ≤ since + limit → (settleAll since cs s).now ≤ since + limit := by
  induction cs with
  | nil => exact fun _ h => h
  | cons c cs ih =>
    intro s _
    obtain ⟨hc, hcs⟩ := List.forall_mem_cons.1 hcs
    refine ih hcs _ ?_
    rw [Call.now_settle]
    exact Nat.add_le_add_left (Nat.le_trans (Nat.min_le_right ..) hc) since

/-- However many texts are looked up at the same time, it takes no longer than the time limit of one lookup. -/
theorem now_embedMany_le (e : Embedder) (texts : List String) (s : Shared) :
    (e.embedMany texts s).2.now ≤ s.now + e.timeout := by
  refine now_settleAll_le (fun c hc => ?_) _ ?_
  · exact Nat.le_of_eq (e.timeout_of_launchAll texts s c (mem_stableSort.1 hc))
  · exact e.now_launchAll texts s ▸ Nat.le_add_right ..

end Embedder

/-! ## Lookups after any history -/

/-- Whatever an embedder was used for before, each lookup ends as it would without a cache; lookups at the same time
end, in the order of the texts, as each would on its own, and take no longer than the time limit of one. -/
theorem Shared.Reached.lookups_uncached (he : e.ByText) (H : s.Reached e) :
    (∀ text l, (e.embed text s).1 = l ↔ e.Uncached text l) ∧
      ∀ texts, List.Forall₂ e.Uncached texts (e.embedMany texts s).1 ∧
        (e.embedMany texts s).1 = texts.map (fun text => (e.embed text s).1) ∧
        (e.embedMany texts s).2.now ≤ s.now + e.timeout := by
  have hs : s.Keeps e.steadily := H.keeps he.obeys
  have hembed : ∀ text, (e.embed text s).1 = e.answer text := fun text =>
    (hs.embed he.obeys text).1.eq_answer
  refine ⟨fun text l => ?_, fun texts => ?_⟩
  · rw [hembed, Embedder.uncached_iff]
  · have hmany : (e.embedMany texts s).1 = texts.map e.answer :=
      Lookup.eq_map_answer (hs.embedMany he.obeys texts).1
    refine ⟨?_, ?_, e.now_embedMany_le texts s⟩
    · rw [hmany, List.forall₂_map_right_iff]
      exact List.forall₂_same.2 fun text _ => e.uncached_answer text
    · rw [hmany]
      exact List.map_congr_left fun text _ => (hembed text).symm

/-- The lamp is known at once, the door fails after a while, the fan takes too long, and whatever else is asked for
has two numbers where three are declared. -/
def Embedder.uneven : Embedder where
  provider := some (.table 3
    [("lamp", ⟨0, .ok [.one, .zero, .zero]⟩), ("door", ⟨50, .error (.provider "model offline")⟩),
      ("fan", ⟨900, .ok [.zero, .zero, .one]⟩)]
    ⟨120, .ok [.zero, .one]⟩)
  timeout := 200

/-- With room for one embedding, some texts are looked up, and time goes by. -/
def Shared.visited : Shared :=
  ((Embedder.uneven.embed "Lamp" (Embedder.uneven.embedMany ["fan", " LAMP"]
    (.start ⟨1, some 60⟩)).2).2.advance 70000).cleanupCache.2

/-- Of seven texts that are looked up at the same time, two are the same but for blanks and case, and two fail. -/
theorem Shared.Reached.lookups_uncached_visited :
    Embedder.uneven.ByText ∧ Shared.visited.Reached .uneven ∧
      (Embedder.uneven.embedMany ["Lamp ", "door", "fan", "lamp", " ", "hall", "DOOR"] .visited).1 =
        [.ready [.one, .zero, .zero], .unavailable .failed, .unavailable .timeout,
          .ready [.one, .zero, .zero], .unavailable .emptyInput, .unavailable .dimensionMismatch,
          .unavailable .failed] ∧
      (∀ text l, (Embedder.uneven.embed text .visited).1 = l ↔ Embedder.uneven.Uncached text l) ∧
      ∀ texts, List.Forall₂ Embedder.uneven.Uncached texts (Embedder.uneven.embedMany texts .visited).1 ∧
        (Embedder.uneven.embedMany texts .visited).1 =
          texts.map (fun text => (Embedder.uneven.embed text .visited).1) ∧
        (Embedder.uneven.embedMany texts .visited).2.now ≤ Shared.visited.now + Embedder.uneven.timeout := by
  have he : Embedder.uneven.ByText := by
    rintro p ⟨⟩
    exact Provider.steady_ofText _ _
  have hs : Shared.visited.Reached .uneven :=
    ((((reached_start _ _).embedMany _).embed _).advance _).cleanup
  exact ⟨he, hs, by decide +kernel, hs.lookups_uncached he⟩

end DeviceNaming
