import DeviceNaming.Embedding.Scripted
import DeviceNaming.Proofs.Area.InStep
import DeviceNaming.Proofs.Household.Dimension
import DeviceNaming.Proofs.Number.Order
import Mathlib.Data.List.Induction

/-!
# The most similar area

Whatever vectors a provider answers, a text that names no area is compared with every area that has an embedding
(`AreaRegistry.scores`). When the first of these similarities is a number, the area that is found is the first one of
those that no other exceeds (`AreaRegistry.FirstHighest`), also where later similarities are no numbers, and it is the
answer if it is above the threshold: `AreaRegistry.resolve_most_similar`.

When the first similarity is no number, nothing takes the place of its area, since nothing is above what is no number.
Then an area that is above the threshold is passed over: `AreaRegistry.resolve_passed_over`.
-/

namespace DeviceNaming

attribute [local irreducible] Text.normalize Text.trimmed

namespace AreaRegistry

/-! ## The lead -/

/-- A number that none of the scores exceeds; the scores before it are below it or no numbers. -/
structure FirstHighest (ps : List (Area × Binary32)) (p : Area × Binary32) : Prop where
  number : p.2.isNaN = false
  highest : ∀ q ∈ ps, Binary32.lt p.2 q.2 = false
  first : ∃ before after, ps = before ++ p :: after ∧
    ∀ q ∈ before, Binary32.lt q.2 p.2 = true ∨ q.2.isNaN = true

variable {ps : List (Area × Binary32)} {p q : Area × Binary32}

namespace FirstHighest

theorem singleton (hp : p.2.isNaN = false) : FirstHighest [p] p :=
  ⟨hp, List.forall_mem_singleton.2 (Binary32.not_lt_self _), [], [], rfl, nofun⟩

/-- Who is above the lead is above all. -/
theorem concat_of_lt (H : FirstHighest ps p) (h : Binary32.lt p.2 q.2 = true) : FirstHighest (ps ++ [q]) q := by
  refine ⟨Binary32.isNaN_of_lt_right h, ?_, ps, [], rfl, fun r hr => ?_⟩
  · refine List.forall_mem_append.2 ⟨fun r hr => Bool.eq_false_iff.2 fun hlt => ?_,
      List.forall_mem_singleton.2 (Binary32.not_lt_self _)⟩
    cases (H.highest r hr).symm.trans (Binary32.lt_of_lt_of_le h (Binary32.le_of_lt hlt))
  · cases hnumber : r.2.isNaN with
    | true => exact .inr rfl
    | false => exact .inl (Binary32.lt_of_le_of_lt (Binary32.le_of_not_lt hnumber H.number (H.highest r hr)) h)

theorem concat_of_not_lt (H : FirstHighest ps p) (h : Binary32.lt p.2 q.2 = false) :
    FirstHighest (ps ++ [q]) p := by
  obtain ⟨before, after, rfl, hbefore⟩ := H.first
  exact ⟨H.number, List.forall_mem_append.2 ⟨H.highest, List.forall_mem_singleton.2 h⟩,
    before, after ++ [q], List.append_assoc .., hbefore⟩

end FirstHighest

theorem foldl_lead_concat (ps : List (Area × Binary32)) (q : Area × Binary32) :
    (ps ++ [q]).foldl lead none = lead (ps.foldl lead none) q := by
  rw [List.foldl_append, List.foldl_cons, List.foldl_nil]

/-- After a number in front, the lead is with the first of the highest. -/
theorem foldl_lead_of_number (hp : p.2.isNaN = false) (rest : List (Area × Binary32)) :
    ∃ top, (p :: rest).foldl lead none = some top ∧ FirstHighest (p :: rest) top := by
  induction rest using List.reverseRecOn with
  | nil => exact ⟨p, rfl, .singleton hp⟩
  | append_singleton rest q ih =>
    obtain ⟨top, htop, H⟩ := ih
    rw [← List.cons_append, foldl_lead_concat, htop, lead]
    cases hlt : Binary32.lt top.2 q.2 with
    | true => exact ⟨q, rfl, H.concat_of_lt hlt⟩
    | false => exact ⟨top, rfl, H.concat_of_not_lt hlt⟩

/-- What is no number is not overtaken. -/
theorem foldl_lead_of_isNaN (hp : p.2.isNaN = true) (rest : List (Area × Binary32)) :
    (p :: rest).foldl lead none = some p := by
  induction rest using List.reverseRecOn with
  | nil => rfl
  | append_singleton rest q ih =>
    have hlt : Binary32.lt p.2 q.2 = false := Bool.eq_false_iff.2 fun h => by
      cases hp.symm.trans (Binary32.isNaN_of_lt_left h)
    rw [← List.cons_append, foldl_lead_concat, ih, lead, hlt]
    rfl

theorem mem_of_foldl_lead (h : ps.foldl lead none = some p) : p ∈ ps := by
  induction ps using List.reverseRecOn with
  | nil => cases h
  | append_singleton ps q ih =>
    rw [foldl_lead_concat] at h
    cases hbest : ps.foldl lead none with
    | none =>
      rw [hbest] at h
      cases h
      exact List.mem_concat_self
    | some top =>
      rw [hbest, lead] at h
      split at h
      · cases h
        exact List.mem_concat_self
      · exact List.mem_append_left _ (ih (hbest.trans h))

/-! ## Similarities -/

/-- The areas that have an embedding, each with its similarity to another embedding. -/
def scores (g : AreaRegistry) (query : Embedding) : List (Area × Binary32) :=
  g.ordered.filterMap fun a => a.embedding.map fun v => (a, query.cosine v)

variable {e : Embedder} {g : AreaRegistry} {s : Shared} {text name : String} {v : Embedding}

/-- The area meant is the one in the lead, if it is above the threshold. -/
theorem Measured.similarArea_eq (M : g.Measured e) (hv : e.Fits v) :
    g.similarArea (.ready v) = ((g.scores v).foldl lead none).bind fun p =>
      if Binary32.lt g.threshold p.2 then some p.1.areaId else none := by
  have hbest := mostSimilar_eq (fun a ha w hw => hv.length_eq (M a (mem_values_of_mem_ordered ha) w hw)) none
  unfold similarArea scores
  dsimp only
  rw [hbest]
  cases List.foldl lead none _ <;> rfl

/-- A text that names no area means the most similar one that is above the threshold, or else one that it overlaps. -/
theorem Measured.resolve_eq (M : g.Measured e) (hv : e.Fits v) (htext : Text.normalize? text = some name)
    (hname : g.names.find? name = none) (hembed : (e.embed name s).1 = .ready v) :
    (g.resolve e text true s).1 = .ok ((g.similarArea (.ready v)).or (g.resolveByOverlap name)) ∧
      (g.resolve e text false s).1 = .ok (g.resolveByOverlap name) := by
  have hfits : ∀ w, (e.embed name s).1 = .ready w → e.Fits w := fun w hw => by
    cases hembed.symm.trans hw
    exact hv
  unfold AreaRegistry.resolve
  rw [htext]
  dsimp only
  rw [hname]
  refine ⟨?_, rfl⟩
  dsimp only
  rw [if_pos rfl, M.resolveBySimilarity_eq hfits, hembed]
  cases g.similarArea (.ready v) with
  | none => rfl
  | some id => rfl

theorem measured_applyEach (hd : e.Declared) (changes : List (AreaChange × Shared))
    (hchanges : ∀ p ∈ changes, p.2.Keeps e.fitting) (M : g.Measured e) :
    (AreaChange.applyEach e changes g).Measured e := by
  induction changes generalizing g with
  | nil => exact M
  | cons p changes ih =>
    obtain ⟨hp, hrest⟩ := List.forall_mem_cons.1 hchanges
    refine ih hrest ?_
    obtain ⟨c, t⟩ := p
    cases c with
    | add r => exact (M.add hd hp r).1
    | clear => exact nofun

theorem threshold_applyEach (e : Embedder) (changes : List (AreaChange × Shared)) (g : AreaRegistry) :
    (AreaChange.applyEach e changes g).threshold = g.threshold := by
  induction changes generalizing g with
  | nil => rfl
  | cons p changes ih =>
    refine (ih _).trans ?_
    obtain ⟨c, t⟩ := p
    cases c with
    | add r =>
      unfold AreaChange.apply AreaRegistry.add
      dsimp only
      split
      · rfl
      · exact threshold_register ..
    | clear => rfl

/-! ## The answer -/

theorem Measured.similarArea_of_number (M : g.Measured e) (hv : e.Fits v)
    (hnumber : ∀ p ∈ (g.scores v).head?, p.2.isNaN = false)
    (habove : ∃ q ∈ g.scores v, Binary32.lt g.threshold q.2 = true) :
    ∃ p, FirstHighest (g.scores v) p ∧ Binary32.lt g.threshold p.2 = true ∧
      g.similarArea (.ready v) = some p.1.areaId := by
  obtain ⟨q, hq, hlt⟩ := habove
  rw [M.similarArea_eq hv]
  generalize g.scores v = ps at hnumber hq ⊢
  cases ps with
  | nil => cases hq
  | cons p rest =>
    obtain ⟨top, htop, H⟩ := foldl_lead_of_number (hnumber p rfl) rest
    have hle : Binary32.le q.2 top.2 = true :=
      Binary32.le_of_not_lt (Binary32.isNaN_of_lt_right hlt) H.number (H.highest q hq)
    have habove := Binary32.lt_of_lt_of_le hlt hle
    refine ⟨top, H, habove, ?_⟩
    rw [htop, Option.bind_some, if_pos habove]

theorem Measured.similarArea_eq_none (M : g.Measured e) (hv : e.Fits v)
    (h : ∀ p, (g.scores v).foldl lead none = some p → Binary32.lt g.threshold p.2 = false) :
    g.similarArea (.ready v) = none := by
  rw [M.similarArea_eq hv]
  cases hbest : (g.scores v).foldl lead none with
  | none => rfl
  | some p => rw [Option.bind_some, h p hbest, if_neg Bool.false_ne_true]

/-- Whatever vectors a provider answers and however an area registry was changed, a text that names no area means the
first area with the highest similarity if one is above the threshold, and is left to the names that it overlaps if none
is, provided that the first similarity is a number. If it is not, the text is left to them in any case. -/
theorem resolve_most_similar (hd : e.Declared) (threshold : Binary32) (changes : List (AreaChange × Shared))
    (hchanges : ∀ p ∈ changes, p.2.Reached e) (hg : AreaChange.applyEach e changes (.empty threshold) = g)
    (hs : s.Reached e) (htext : Text.normalize? text = some name) (hname : g.names.find? name = none)
    (hv : (e.embed name s).1 = .ready v) :
    ((∀ p ∈ (g.scores v).head?, p.2.isNaN = false) → (∃ q ∈ g.scores v, Binary32.lt threshold q.2 = true) →
      ∃ p, FirstHighest (g.scores v) p ∧ Binary32.lt threshold p.2 = true ∧
        (g.resolve e text true s).1 = .ok (some p.1.areaId)) ∧
    ((∀ q ∈ g.scores v, Binary32.lt threshold q.2 = false) →
      (g.resolve e text true s).1 = (g.resolve e text false s).1) ∧
    ((∃ p ∈ (g.scores v).head?, p.2.isNaN = true) →
      (g.resolve e text true s).1 = (g.resolve e text false s).1) := by
  have M : g.Measured e := hg ▸ measured_applyEach hd changes (fun p hp => (hchanges p hp).keeps hd.obeys) nofun
  have hthreshold : g.threshold = threshold := hg ▸ threshold_applyEach e changes _
  have hends := ((hs.keeps hd.obeys).embed hd.obeys name).1
  have hfits : e.Fits v := (hv ▸ hends).fits
  obtain ⟨htrue, hfalse⟩ := M.resolve_eq hfits htext hname hv
  have hnone (h : ∀ p, (g.scores v).foldl lead none = some p → Binary32.lt g.threshold p.2 = false) :
      (g.resolve e text true s).1 = (g.resolve e text false s).1 := by
    rw [htrue, hfalse, M.similarArea_eq_none hfits h, Option.none_or]
  subst hthreshold
  refine ⟨fun hnumber habove => ?_, fun hbelow => hnone fun p hp => ?_, fun hnan => hnone fun p hp => ?_⟩
  · obtain ⟨p, H, hlt, hfound⟩ := M.similarArea_of_number hfits hnumber habove
    refine ⟨p, H, hlt, ?_⟩
    rw [htrue, hfound, Option.some_or]
  · exact hbelow p (mem_of_foldl_lead hp)
  · obtain ⟨q, hq, hnan⟩ := hnan
    obtain ⟨rest, hrest⟩ := List.head?_eq_some_iff.1 hq
    rw [hrest, foldl_lead_of_isNaN hnan] at hp
    cases hp
    refine Bool.eq_false_iff.2 fun hlt => ?_
    cases hnan.symm.trans (Binary32.isNaN_of_lt_right hlt)

/-- Vectors for some rooms. The components for the attic are so large that its similarity to a study is no number. -/
def roomVectors : Embedder where
  provider := some (.table 2
    [("hall", ⟨0, .ok [.ofNat 2, .zero]⟩), ("attic", ⟨0, .ok [⟨0x7F61B1E6⟩, ⟨0xFF61B1E6⟩]⟩),
      ("den", ⟨0, .ok [.ofNat 2, .ofNat 2]⟩), ("snug", ⟨0, .ok [.ofNat 2, .ofNat 2]⟩),
      ("study", ⟨0, .ok [.ofNat 2, .ofNat 2]⟩)]
    ⟨0, .error (.provider "unknown room")⟩)
  timeout := 0

theorem declared_roomVectors : roomVectors.Declared := by
  rintro p ⟨⟩
  exact Nat.two_pos

/-- Rooms that meet an empty cache each. -/
def rooms (names : List String) : List (AreaChange × Shared) :=
  names.map fun name => (.add (.new name name), .start Settings.default.embeddingCache)

theorem reached_rooms (names : List String) : ∀ p ∈ rooms names, p.2.Reached roomVectors := by
  intro p hp
  obtain ⟨name, -, rfl⟩ := List.mem_map.1 hp
  exact reached_start ..

theorem resolve_most_similar_den :
    let g := AreaChange.applyEach roomVectors (rooms ["hall", "attic", "den", "snug"]) (.empty .half)
    let s := Shared.start Settings.default.embeddingCache
    let v : Embedding := [.ofNat 2, .ofNat 2]
    (g.scores v).map (fun p => (p.1.areaId, p.2.bits)) =
        [("hall", 0x3F3504F3), ("attic", 0xFFC00000), ("den", 0x3F800001), ("snug", 0x3F800001)] ∧
      ∃ p, FirstHighest (g.scores v) p ∧ Binary32.lt .half p.2 = true ∧
        (g.resolve roomVectors "Study" true s).1 = .ok (some p.1.areaId) := by
  intro g s v
  have htext : Text.normalize? "Study" = some "study" := by decide +kernel
  have hname : g.names.find? "study" = none := by decide +kernel
  have hv : (roomVectors.embed "study" s).1 = .ready v := by decide +kernel
  obtain ⟨hfound, -⟩ := resolve_most_similar declared_roomVectors .half (rooms ["hall", "attic", "den", "snug"])
    (reached_rooms _) rfl (reached_start _ _) htext hname hv
  exact ⟨by decide +kernel, hfound (by decide +kernel) (by decide +kernel)⟩

/-- With the attic in front the den, which is above the threshold, is not found. -/
theorem resolve_passed_over :
    let g := AreaChange.applyEach roomVectors (rooms ["attic", "den"]) (.empty .half)
    let s := Shared.start Settings.default.embeddingCache
    roomVectors.Declared ∧ g.names.find? "study" = none ∧
      (roomVectors.embed "study" s).1 = .ready [.ofNat 2, .ofNat 2] ∧
      (∃ p ∈ g.scores [.ofNat 2, .ofNat 2], p.1.areaId = "den" ∧ Binary32.lt .half p.2 = true) ∧
      (g.resolve roomVectors "study" true s).1.toOption = some none :=
  ⟨declared_roomVectors, by decide +kernel⟩

end AreaRegistry

end DeviceNaming
