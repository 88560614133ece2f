import DeviceNaming.Text.Normal
import Mathlib.Data.List.TakeWhile

/-!
# The normal form is a fixed point

Normalizing a text a second time changes nothing (`normalize_normalize`), so every index and every cache
finds a normal form under itself (`normalize?_of_eq_some`). Only blank texts have none (`normalize?_eq_none_iff`).

Two facts carry this. A lowercase form consists of *settled* characters, which are their own lowercase form
and depend on no neighbour; for the characters that the table moves this is read off the table
(`images_bitSet_and`). And a lowercase form begins and ends with a blank only if the text does
(`Trimmed.lowercase`).
-/

namespace DeviceNaming.Text

/-! ## The table -/

/-- The code points of a run. -/
def CaseRun.points (r : CaseRun) : List Nat :=
  (List.range ((r.last - r.first) / r.step + 1)).map fun i => r.first + i * r.step

theorem CaseRun.mem_points {r : CaseRun} {n : Nat} (h : r.has n = true) : n ∈ r.points := by
  simp only [has, Bool.and_eq_true, decide_eq_true_eq, beq_iff_eq] at h
  obtain ⟨⟨hlo, hhi⟩, hmod⟩ := h
  have hn : (n - r.first) / r.step * r.step = n - r.first :=
    Nat.div_mul_cancel (Nat.dvd_of_mod_eq_zero hmod)
  have hle : (n - r.first) / r.step ≤ (r.last - r.first) / r.step := Nat.div_le_div_right (by omega)
  exact List.mem_map.2 ⟨(n - r.first) / r.step, List.mem_range.2 (by omega), by omega⟩

theorem CaseRun.find?_some {n : Nat} {r : CaseRun} :
    ∀ {rs : List CaseRun}, find? n rs = some r → r ∈ rs ∧ r.has n = true
  | [], h => by simp [find?] at h
  | q :: rs, h => by
    unfold find? at h
    split at h
    · cases h
    · split at h
      · cases h
        exact ⟨List.mem_cons_self, ‹_›⟩
      · obtain ⟨hm, hn⟩ := find?_some h
        exact ⟨List.mem_cons_of_mem _ hm, hn⟩

/-- The code points that a run moves to. -/
def CaseRun.images (r : CaseRun) : List Nat :=
  r.points.map fun (n : Nat) => ((n : Int) + r.shift).toNat

/-- A set of numbers as the bits of one, so that two sets are compared in one step. -/
def bitSet (ns : List Nat) : Nat := ns.foldr (fun n m => 1 <<< n ||| m) 0

theorem testBit_bitSet (ns : List Nat) (n : Nat) : (bitSet ns).testBit n = decide (n ∈ ns) := by
  induction ns with
  | nil => simp [bitSet]
  | cons k ns ih =>
    have hcons : bitSet (k :: ns) = 1 <<< k ||| bitSet ns := rfl
    rw [hcons, Nat.testBit_or, ih, Nat.one_shiftLeft, Nat.testBit_two_pow]
    simp [eq_comm]

theorem not_mem_of_bitSet_and {ns ks : List Nat} (h : bitSet ns &&& bitSet ks = 0) {n : Nat}
    (hn : n ∈ ns) : n ∉ ks := by
  intro hk
  have hbit := congrArg (Nat.testBit · n) h
  simp [Nat.testBit_and, testBit_bitSet, hn, hk] at hbit

/-- The code points of some ranges. -/
def rangePoints (ranges : List (Nat × Nat)) : List Nat :=
  ranges.flatMap fun p => (List.range (p.2 + 1 - p.1)).map (p.1 + ·)

theorem mem_rangePoints_of_covers {n : Nat} :
    ∀ {ranges : List (Nat × Nat)}, covers n ranges = true → n ∈ rangePoints ranges
  | [], h => by simp [covers] at h
  | (lo, hi) :: rest, h => by
    unfold covers at h
    refine List.mem_flatMap.2 ?_
    split at h
    · cases h
    · split at h
      · exact ⟨_, List.mem_cons_self, List.mem_map.2 ⟨n - lo, List.mem_range.2 (by grind), by grind⟩⟩
      · obtain ⟨p, hp, hn⟩ := List.mem_flatMap.1 (mem_rangePoints_of_covers h)
        exact ⟨p, List.mem_cons_of_mem _ hp, hn⟩

/-- The code points that are blank or have a lowercase form of their own: those that the table moves, and
the two capitals with a rule apart. -/
def restlessPoints : List Nat :=
  lowercaseRuns.flatMap CaseRun.points ++ 0x130 :: 0x3A3 :: rangePoints blankRanges

theorem images_bitSet_and :
    bitSet (lowercaseRuns.flatMap CaseRun.images) &&& bitSet restlessPoints = 0 := by
  decide +kernel

theorem images_valid : ∀ n ∈ lowercaseRuns.flatMap CaseRun.images, n.isValidChar := by
  decide +kernel

/-! ## Single characters -/

/-- A character that is its own lowercase form wherever it stands. -/
def Settled (c : Char) : Prop := c ≠ 'Σ' ∧ lowerForm c = [c]

theorem find?_lowercaseRuns_eq_none {n : Nat} (h : n ∉ restlessPoints) :
    CaseRun.find? n lowercaseRuns = none := by
  refine Option.eq_none_iff_forall_ne_some.2 fun r hr => h (List.mem_append_left _ ?_)
  obtain ⟨hmem, hhas⟩ := CaseRun.find?_some hr
  exact List.mem_flatMap.2 ⟨r, hmem, CaseRun.mem_points hhas⟩

/-- A character that the table moves goes to one that stays and is not blank. -/
theorem lowerChar_cases (c : Char) :
    lowerChar c = c ∨ (Settled (lowerChar c) ∧ isBlank (lowerChar c) = false) := by
  unfold lowerChar
  split
  · rename_i r hr
    refine .inr ?_
    obtain ⟨hmem, hhas⟩ := CaseRun.find?_some hr
    have himage : ((c.toNat : Int) + r.shift).toNat ∈ lowercaseRuns.flatMap CaseRun.images :=
      List.mem_flatMap.2 ⟨r, hmem, List.mem_map.2 ⟨_, CaseRun.mem_points hhas, rfl⟩⟩
    generalize ((c.toNat : Int) + r.shift).toNat = n at himage ⊢
    have hvalid := images_valid n himage
    have hrest : n ∉ restlessPoints := not_mem_of_bitSet_and images_bitSet_and himage
    have hto : (Char.ofNat n).toNat = n := by
      rw [Char.ofNat, dif_pos hvalid]
      rfl
    have hne : ∀ d : Char, d.toNat ∈ restlessPoints → Char.ofNat n ≠ d :=
      fun d hd h => hrest (by rw [← hto, h]; exact hd)
    have hsigma : Char.ofNat n ≠ 'Σ' := hne _ (List.mem_append_right _ (by decide))
    have hdot : Char.ofNat n ≠ '\u0130' := hne _ (List.mem_append_right _ (by decide))
    refine ⟨⟨hsigma, ?_⟩, ?_⟩
    · rw [lowerForm, if_neg hdot, lowerChar, hto, find?_lowercaseRuns_eq_none hrest]
    · rw [isBlank, hto, ← Bool.not_eq_true]
      exact fun h => hrest (List.mem_append_right _
        (List.mem_cons_of_mem _ (List.mem_cons_of_mem _ (mem_rangePoints_of_covers h))))
  · exact .inl rfl

theorem settled_of_mem_lowerForm {c d : Char} (hc : c ≠ 'Σ') (h : d ∈ lowerForm c) : Settled d := by
  unfold lowerForm at h
  split at h
  · obtain rfl | rfl : d = 'i' ∨ d = '\u0307' := by simpa using h
    all_goals exact ⟨by decide, by decide +kernel⟩
  · rename_i hdot
    obtain rfl := List.mem_singleton.1 h
    rcases lowerChar_cases c with heq | hs
    · rw [heq]
      exact ⟨hc, by rw [lowerForm, if_neg hdot, heq]⟩
    · exact hs.1

theorem not_isBlank_of_mem_lowerForm {c d : Char} (hc : isBlank c = false) (h : d ∈ lowerForm c) :
    isBlank d = false := by
  unfold lowerForm at h
  split at h
  · obtain rfl | rfl : d = 'i' ∨ d = '\u0307' := by simpa using h
    all_goals decide
  · obtain rfl := List.mem_singleton.1 h
    rcases lowerChar_cases c with heq | hs
    · rwa [heq]
    · exact hs.2

/-- The lowercase form of a character among its neighbours. -/
def formAt (before : List Char) (c : Char) (after : List Char) : List Char :=
  if c = 'Σ' then [if atWordEnd before after then 'ς' else 'σ'] else lowerForm c

theorem lowercaseAfter_cons (before : List Char) (c : Char) (rest : List Char) :
    lowercaseAfter before (c :: rest) = formAt before c rest ++ lowercaseAfter (c :: before) rest := rfl

theorem settled_of_mem_formAt {b r : List Char} {c d : Char} (h : d ∈ formAt b c r) : Settled d := by
  unfold formAt at h
  split at h
  · obtain rfl := List.mem_singleton.1 h
    split <;> exact ⟨by decide, by decide +kernel⟩
  · exact settled_of_mem_lowerForm ‹_› h

theorem not_isBlank_of_mem_formAt {b r : List Char} {c d : Char} (hc : isBlank c = false)
    (h : d ∈ formAt b c r) : isBlank d = false := by
  unfold formAt at h
  split at h
  · obtain rfl := List.mem_singleton.1 h
    split <;> decide
  · exact not_isBlank_of_mem_lowerForm hc h

theorem formAt_ne_nil (b : List Char) (c : Char) (r : List Char) : formAt b c r ≠ [] := by
  unfold formAt lowerForm
  split
  · simp
  · split <;> simp

/-! ## Lowercase texts -/

theorem settled_of_mem_lowercaseAfter {d : Char} {s : List Char} :
    ∀ {before : List Char}, d ∈ lowercaseAfter before s → Settled d := by
  induction s with
  | nil => intro _ h; cases h
  | cons c rest ih =>
    intro before h
    rw [lowercaseAfter_cons] at h
    rcases List.mem_append.1 h with h | h
    · exact settled_of_mem_formAt h
    · exact ih h

theorem lowercaseAfter_of_settled {s : List Char} (h : ∀ c ∈ s, Settled c) (before : List Char) :
    lowercaseAfter before s = s := by
  induction s generalizing before with
  | nil => rfl
  | cons c rest ih =>
    obtain ⟨hsigma, hform⟩ := h c List.mem_cons_self
    rw [lowercaseAfter_cons, formAt, if_neg hsigma, hform,
      ih (fun d hd => h d (List.mem_cons_of_mem _ hd))]
    rfl

theorem lowercase_lowercase (s : List Char) : lowercase (lowercase s) = lowercase s :=
  lowercaseAfter_of_settled (fun _ h => settled_of_mem_lowercaseAfter h) []

/-! ## Trimmed texts -/

/-- A text with no blank at its ends. -/
structure Trimmed (s : List Char) : Prop where
  first : ∀ c ∈ s.head?, isBlank c = false
  last : ∀ c ∈ s.getLast?, isBlank c = false

theorem head?_trimStart (s : List Char) : ∀ c ∈ (trimStart s).head?, isBlank c = false := by
  intro c hc
  have h := List.head?_dropWhile_not isBlank s
  rw [show s.dropWhile isBlank = trimStart s from rfl, Option.mem_def.1 hc] at h
  simpa using h

theorem trimStart_of_head? {s : List Char} (h : ∀ c ∈ s.head?, isBlank c = false) : trimStart s = s := by
  cases s with
  | nil => rfl
  | cons c s => exact List.dropWhile_cons_of_neg (by simp [h c rfl])

theorem trimEnd_eq (s : List Char) : trimEnd s = (trimStart s.reverse).reverse := rfl

theorem trimmed_trim (s : List Char) : Trimmed (trim s) := by
  have hlast : ∀ c ∈ (trim s).getLast?, isBlank c = false := by
    rw [trim, trimEnd_eq, List.getLast?_reverse]
    exact head?_trimStart _
  refine ⟨fun c hc => ?_, hlast⟩
  -- the end is trimmed last: what is left is the start of a text that does not begin with a blank
  have hprefix : trim s <+: trimStart s := by
    rw [trim, trimEnd_eq, ← List.reverse_suffix, List.reverse_reverse]
    exact List.dropWhile_suffix _
  obtain ⟨t, ht⟩ := hprefix
  refine head?_trimStart s c ?_
  rw [← ht, List.head?_append, Option.mem_def.1 hc]
  rfl

namespace Trimmed

theorem trim_eq {s : List Char} (H : Trimmed s) : trim s = s := by
  rw [trim, trimStart_of_head? H.first, trimEnd_eq,
    trimStart_of_head? (by simpa [List.head?_reverse] using H.last), List.reverse_reverse]

theorem lowercaseAfter {s : List Char} (H : Trimmed s) (before : List Char) :
    Trimmed (Text.lowercaseAfter before s) := by
  constructor
  · cases s with
    | nil => intro c hc; cases hc
    | cons c rest =>
      intro d hd
      obtain ⟨x, xs, hform⟩ := List.exists_cons_of_ne_nil (formAt_ne_nil before c rest)
      rw [lowercaseAfter_cons, hform] at hd
      obtain rfl : x = d := by simpa using hd
      exact not_isBlank_of_mem_formAt (H.first c rfl) (hform ▸ List.mem_cons_self)
  · have hlast := H.last
    clear H
    induction s generalizing before with
    | nil => intro c hc; cases hc
    | cons c rest ih =>
      intro d hd
      rw [lowercaseAfter_cons] at hd
      cases rest with
      | nil =>
        rw [Text.lowercaseAfter, List.append_nil] at hd
        exact not_isBlank_of_mem_formAt (hlast c rfl) (List.mem_of_mem_getLast? hd)
      | cons c' rest =>
        have hne : Text.lowercaseAfter (c :: before) (c' :: rest) ≠ [] := by
          rw [lowercaseAfter_cons]
          exact List.append_ne_nil_of_left_ne_nil (formAt_ne_nil _ _ _) _
        rw [List.getLast?_append, List.getLast?_eq_some_getLast hne, Option.some_or,
          ← List.getLast?_eq_some_getLast hne] at hd
        exact ih (c :: before) (fun e he => hlast e (by simpa using he)) d hd

theorem lowercase {s : List Char} (H : Trimmed s) : Trimmed (Text.lowercase s) := H.lowercaseAfter []

end Trimmed

/-! ## Normal forms -/

theorem trimmed_normalize (text : String) : Trimmed (normalize text).toList := by
  rw [normalize, String.toList_ofList]
  exact (trimmed_trim _).lowercase

/-- Normalizing twice is normalizing once. -/
theorem normalize_normalize (text : String) : normalize (normalize text) = normalize text := by
  have h := (trimmed_normalize text).trim_eq
  rw [normalize, h, normalize, String.toList_ofList, lowercase_lowercase]

theorem normalize?_eq_some_iff {text key : String} :
    normalize? text = some key ↔ normalize text = key ∧ key ≠ "" := by
  simp only [normalize?]
  split
  · rename_i h
    exact ⟨nofun, fun ⟨he, hn⟩ => (hn (he ▸ h)).elim⟩
  · rename_i h
    exact ⟨fun he => ⟨Option.some.inj he, Option.some.inj he ▸ h⟩, fun ⟨he, _⟩ => congrArg some he⟩

theorem normalize?_normalize (text : String) : normalize? (normalize text) = normalize? text := by
  rw [normalize?, normalize?, normalize_normalize]

/-- A normal form is found under itself. -/
theorem normalize?_of_eq_some {text key : String} (h : normalize? text = some key) :
    normalize? key = some key := by
  obtain ⟨rfl, hne⟩ := normalize?_eq_some_iff.1 h
  exact normalize?_eq_some_iff.2 ⟨normalize_normalize text, hne⟩

theorem lowercaseAfter_eq_nil_iff {before s : List Char} : lowercaseAfter before s = [] ↔ s = [] := by
  cases s with
  | nil => exact ⟨fun _ => rfl, fun _ => rfl⟩
  | cons c rest =>
    rw [lowercaseAfter_cons, List.append_eq_nil_iff]
    exact ⟨fun h => (formAt_ne_nil before c rest h.1).elim, nofun⟩

/-- A name is empty in normal form if nothing of it is left by trimming, and only then. -/
theorem normalize_eq_empty_iff {text : String} : normalize text = "" ↔ trimmed text = "" := by
  rw [normalize, trimmed, String.ofList_eq_empty_iff, String.ofList_eq_empty_iff]
  exact lowercaseAfter_eq_nil_iff

theorem trim_eq_nil_iff {s : List Char} : trim s = [] ↔ ∀ c ∈ s, isBlank c = true := by
  constructor
  · intro h
    have hblank : ∀ c ∈ trimStart s, isBlank c = true := by
      rw [trim, trimEnd, List.reverse_eq_nil_iff, List.dropWhile_eq_nil_iff] at h
      simpa using h
    have hstart : trimStart s = [] := by
      cases hs : trimStart s with
      | nil => rfl
      | cons c rest =>
        have hfirst := head?_trimStart s c (hs ▸ rfl)
        exact absurd (hfirst.symm.trans (hblank c (hs ▸ List.mem_cons_self))) Bool.false_ne_true
    exact List.dropWhile_eq_nil_iff.1 hstart
  · intro h
    have hstart : trimStart s = [] := List.dropWhile_eq_nil_iff.2 h
    rw [trim, hstart]
    rfl

/-- Blank texts, and only they, have no normal form. -/
theorem normalize?_eq_none_iff {text : String} :
    normalize? text = none ↔ ∀ c ∈ text.toList, isBlank c = true := by
  rw [← trim_eq_nil_iff, ← String.ofList_eq_empty_iff, ← trimmed, ← normalize_eq_empty_iff, normalize?]
  simp

theorem trimmed_trimmed (text : String) : trimmed (trimmed text) = trimmed text := by
  rw [trimmed, trimmed, String.toList_ofList, (trimmed_trim _).trim_eq]

end DeviceNaming.Text
