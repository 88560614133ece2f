import DeviceNaming.Settings.Environment
import DeviceNaming.Proofs.Settings.Merging
import Mathlib

/-!
# Names of settings and paths

The layers are laid over each other first and over the defaults after that, so the names at their top are read as
paths twice. The second time they lead to themselves (`Flat`): lowercase forms have no dots and brackets that were
not there (`not_mem_lowercase`), and the name at the start of a path has none. So the second time a tree is merged
entry by entry (`Tree.layAll_eq_mergeAll`).
-/

namespace DeviceNaming.Settings

open Text (Settled lowercase lowercaseAfter lowerChar lowerForm lowercaseRuns CaseRun formAt)

/-! ## Lowercase names -/

/-- A character that the table moves goes to one of the images of the table. -/
theorem lowerChar_image (c : Char) : lowerChar c = c ∨ (lowerChar c).toNat ∈ lowercaseRuns.flatMap CaseRun.images := by
  unfold lowerChar
  split
  · rename_i r hr
    obtain ⟨hmem, hhas⟩ := CaseRun.find?_some hr
    have himage : ((c.toNat : Int) + r.shift).toNat ∈ lowercaseRuns.flatMap CaseRun.images :=
      List.mem_flatMap.2 ⟨r, hmem, List.mem_map.2 ⟨_, CaseRun.mem_points hhas, rfl⟩⟩
    refine .inr ?_
    rw [Char.ofNat, dif_pos (Text.images_valid _ himage)]
    exact himage
  · exact .inl rfl

theorem mem_lowercaseAfter {d : Char} {s before : List Char} (h : d ∈ lowercaseAfter before s) :
    ∃ c ∈ s, ∃ b r, d ∈ formAt b c r := by
  induction s generalizing before with
  | nil => cases h
  | cons c rest ih =>
    rw [Text.lowercaseAfter_cons] at h
    rcases List.mem_append.1 h with h | h
    · exact ⟨c, List.mem_cons_self, _, _, h⟩
    · obtain ⟨c', hc', hform⟩ := ih h
      exact ⟨c', List.mem_cons_of_mem _ hc', hform⟩

/-- The characters that structure a path. -/
def pathMarks : List Char := ['.', '[']

theorem pathMarks_not_image {x : Char} (hx : x ∈ pathMarks) :
    x ∉ ['ς', 'σ', 'i', '\u0307'] ∧ x.toNat ∉ lowercaseRuns.flatMap CaseRun.images := by
  simp only [pathMarks, List.mem_cons, List.not_mem_nil, or_false] at hx
  rcases hx with rfl | rfl <;> exact ⟨by decide, by decide +kernel⟩

/-- Lowercase forms have no structure that was not there. -/
theorem not_mem_lowercase {x : Char} (hx : x ∈ pathMarks) {s : List Char} (h : x ∉ s) : x ∉ lowercase s := by
  intro hmem
  obtain ⟨c, hc, b, r, hform⟩ := mem_lowercaseAfter hmem
  obtain ⟨hspecial, himage⟩ := pathMarks_not_image hx
  unfold formAt at hform
  split at hform
  · refine hspecial ?_
    split at hform <;> simp [List.mem_singleton.1 hform]
  · unfold lowerForm at hform
    split at hform
    · refine hspecial ?_
      simp only [List.mem_cons, List.not_mem_nil, or_false] at hform ⊢
      exact .inr (.inr hform)
    · obtain rfl := List.mem_singleton.1 hform
      rcases lowerChar_image c with heq | hmoved
      · rw [heq] at h
        exact h hc
      · exact himage hmoved

theorem isNameChar_lt {c : Char} (hc : isNameChar c = true) : c.toNat < 128 := by
  simp only [isNameChar, Char.isAlphanum, Char.isAlpha, Char.isUpper, Char.isLower, Char.isDigit, Bool.or_eq_true,
    Bool.and_eq_true, decide_eq_true_eq, ge_iff_le, UInt32.le_iff_toNat_le] at hc
  rcases hc with (((h | h) | rfl) | rfl) | rfl
  · have hupper : 'Z'.val.toNat = 90 := rfl
    have hlower : 'z'.val.toNat = 122 := rfl
    rw [Char.toNat]
    omega
  · have hdigit : '9'.val.toNat = 57 := rfl
    rw [Char.toNat]
    omega
  · decide
  · decide
  · decide

theorem isNameChar_lowerForm_lt : ∀ n < 128, isNameChar (Char.ofNat n) = true →
    Char.ofNat n ≠ 'Σ' ∧ (lowerForm (Char.ofNat n)).all isNameChar = true := by
  decide +kernel

theorem isNameChar_lowercase {s : List Char} (hs : ∀ c ∈ s, isNameChar c = true) :
    ∀ d ∈ lowercase s, isNameChar d = true := by
  intro d hd
  obtain ⟨c, hc, b, r, hform⟩ := mem_lowercaseAfter hd
  obtain ⟨hsigma, hlower⟩ := isNameChar_lowerForm_lt c.toNat (isNameChar_lt (hs c hc))
    (by rw [Char.ofNat_toNat, hs c hc])
  rw [Char.ofNat_toNat] at hsigma hlower
  rw [formAt, if_neg hsigma] at hform
  exact List.all_eq_true.1 hlower d hform

theorem lowercase_ne_nil {s : List Char} (hs : s ≠ []) : lowercase s ≠ [] :=
  mt Text.lowercaseAfter_eq_nil_iff.1 hs

/-! ## Names that are no paths -/

/-- The name leads to itself and no further. -/
def Flat (name : String) : Prop := path? name = none ∨ path? name = some [.child name]

variable {key name : String}

theorem flat_of_nameChars {s : List Char} (hs : ∀ c ∈ s, isNameChar c = true) (hne : s ≠ []) :
    Flat (String.ofList s) := by
  have htake : s.takeWhile isNameChar = s := List.takeWhile_eq_self_iff.2 hs
  have hdrop : s.dropWhile isNameChar = [] := List.dropWhile_eq_nil_iff.2 hs
  refine .inr ?_
  rw [path?, String.toList_ofList, htake, hdrop]
  simp [hne, pathSteps?]

theorem pathSteps?_eq_none {fuel : ℕ} {c : Char} {s : List Char} (hdot : c ≠ '.') (hbracket : c ≠ '[') :
    pathSteps? fuel (c :: s) = none := by
  cases fuel with
  | zero => rfl
  | succ fuel => simp [pathSteps?, hdot, hbracket]

theorem flat_of_not_mem (hdot : '.' ∉ name.toList) (hbracket : '[' ∉ name.toList) : Flat name := by
  have hsplit := List.takeWhile_append_dropWhile (p := isNameChar) (l := name.toList)
  cases hdrop : name.toList.dropWhile isNameChar with
  | nil =>
    have hchars := List.dropWhile_eq_nil_iff.1 hdrop
    by_cases hne : name.toList = []
    · exact .inl (by rw [path?, hne]; rfl)
    · rw [← String.ofList_toList (s := name)]
      exact flat_of_nameChars hchars hne
  | cons c s =>
    rw [hdrop] at hsplit
    have hc : c ∈ name.toList := hsplit ▸ List.mem_append_right _ List.mem_cons_self
    refine .inl ?_
    rw [path?, hdrop, pathSteps?_eq_none (fun h => hdot (h ▸ hc)) (fun h => hbracket (h ▸ hc))]
    simp

/-- A name at the top of a layer: it has no positions, and dots only as a variable has them. -/
def Plain (key : String) : Prop := '[' ∉ key.toList ∧ ('.' ∈ key.toList → Tree.nameOf key = key)

theorem flat_nameOf (hplain : Plain key) (hpath : path? key = none) : Flat (Tree.nameOf key) := by
  by_cases hdot : '.' ∈ key.toList
  · rw [hplain.2 hdot]
    exact .inl hpath
  · refine flat_of_not_mem ?_ ?_ <;> rw [Tree.nameOf, String.toList_ofList]
    · exact not_mem_lowercase (by decide) hdot
    · exact not_mem_lowercase (by decide) hplain.1

theorem flat_nameOf_first {name : String} {names : List String}
    (hpath : path? key = some (List.map .child (name :: names))) : Flat (Tree.nameOf name) := by
  unfold path? at hpath
  dsimp only at hpath
  split at hpath
  · cases hpath
  · rename_i hne
    obtain ⟨steps, -, hsteps⟩ := Option.map_eq_some_iff.1 hpath
    obtain rfl : String.ofList (key.toList.takeWhile isNameChar) = name := by
      have hfirst := (List.cons.inj hsteps).1
      injection hfirst
    have hchars : ∀ c ∈ key.toList.takeWhile isNameChar, isNameChar c = true :=
      fun _ hc => List.mem_takeWhile_imp hc
    rw [Tree.nameOf, String.toList_ofList]
    exact flat_of_nameChars (isNameChar_lowercase hchars) (lowercase_ne_nil (by simpa using hne))

namespace Tree

variable {root v : Tree}

/-- Each name at the top of the tree leads to itself. -/
def Level (t : Tree) : Prop := ∀ n ∈ t.entries.map (·.1), Flat n

theorem Level.put (H : root.Level) (hname : Flat name) (v : Tree) :
    (table (Roster.putItems name v root.entries)).Level := by
  intro n hn
  change n ∈ (Roster.putItems name v root.entries).map (·.1) at hn
  rw [Roster.map_fst_putItems] at hn
  split at hn
  · exact H n hn
  · rcases List.mem_append.1 hn with hn | hn
    · exact H n hn
    · rw [List.mem_singleton.1 hn]
      exact hname

theorem Level.merge (H : root.Level) (hkey : Flat (nameOf key)) (v : Tree) : (merge key v root).Level := by
  cases v <;> exact H.put hkey _

theorem Level.lay (H : root.Level) (hplain : Plain key) (v : Tree) : (lay key v root).Level := by
  unfold Tree.lay
  cases hpath : path? key with
  | none => exact H.merge (flat_nameOf hplain hpath) v
  | some steps =>
    obtain ⟨name, names, rfl⟩ := path?_child hplain.1 hpath
    have hname := flat_nameOf_first hpath
    cases names with
    | nil => exact H.merge hname v
    | cons => exact H.put hname _

theorem isTable_lay (hkey : '[' ∉ key.toList) (v root : Tree) : (Tree.lay key v root).isTable = true := by
  unfold Tree.lay
  cases hpath : path? key with
  | none => exact isTable_merge key v root
  | some steps =>
    obtain ⟨name, names, rfl⟩ := path?_child hkey hpath
    exact isTable_layAt v name names root

theorem lay_of_flat (hname : Flat name) (v root : Tree) : Tree.lay name v root = Tree.merge name v root := by
  unfold Tree.lay
  rcases hname with h | h <;> rw [h]
  rfl

/-- A level layer is merged entry by entry. -/
theorem layAll_eq_mergeAll {layer : List (String × Tree)} (h : ∀ n ∈ layer.map (·.1), Flat n) (root : Tree) :
    layAll layer root = mergeAll layer root := by
  induction layer generalizing root with
  | nil => rfl
  | cons e layer ih =>
    obtain ⟨name, v⟩ := e
    obtain ⟨hname, hlayer⟩ := List.forall_mem_cons.1 h
    rw [mergeAll, ← lay_of_flat hname, ← ih hlayer]
    rfl

end Tree

/-! ## Variables -/

theorem mem_replacePhrase {phrase by_ s : List Char} {size skip : ℕ} {c : Char}
    (h : c ∈ Text.replacePhrase phrase by_ size skip s) : c ∈ by_ ∨ c ∈ s := by
  fun_induction Text.replacePhrase phrase by_ size skip s with
  | case1 => cases h
  | case2 skip d text ih => exact (ih h).imp_right (List.mem_cons_of_mem d)
  | case3 d text hprefix ih =>
    rcases List.mem_append.1 h with h | h
    · exact .inl h
    · exact (ih h).imp_right (List.mem_cons_of_mem d)
  | case4 d text hprefix ih =>
    rcases List.mem_cons.1 h with rfl | h
    · exact .inr List.mem_cons_self
    · exact (ih h).imp_right (List.mem_cons_of_mem d)

/-- A variable names a setting in lowercase, and without positions if its own name has none. -/
theorem plain_of_key? {variable_ : String} (hname : '[' ∉ variable_.toList)
    (h : Environment.key? variable_ = some key) : Plain key := by
  unfold Environment.key? at h
  dsimp only at h
  split at h
  · cases h
    have hmem {c : Char} (hc : c ∈ Text.replaceChars ['_', '_'] ['.']
        ((lowercase variable_.toList).drop Environment.marker.length)) : c = '.' ∨ c ∈ lowercase variable_.toList := by
      rcases mem_replacePhrase hc with hc | hc
      · exact .inl (List.mem_singleton.1 hc)
      · exact .inr (List.mem_of_mem_drop hc)
    refine ⟨fun hc => ?_, fun _ => ?_⟩
    · rw [String.toList_ofList] at hc
      rcases hmem hc with heq | hc
      · cases heq
      · exact not_mem_lowercase (by decide) hname hc
    · rw [Tree.nameOf, String.toList_ofList, lowercase, Text.lowercaseAfter_of_settled]
      intro c hc
      rcases hmem hc with rfl | hc
      · exact ⟨by decide, by decide +kernel⟩
      · exact Text.settled_of_mem_lowercaseAfter hc
  · cases h

end DeviceNaming.Settings
