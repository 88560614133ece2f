import DeviceNaming.Settings.Document
import DeviceNaming.Settings.Tree
import DeviceNaming.Proofs.Json.Members
import DeviceNaming.Proofs.Number.Integers
import DeviceNaming.Proofs.Settings.Layers

/-!
# Documents of settings

A document of settings has fields under their names and sections as objects of their fields (`Documented`). Its tree
has the same form (`Documented.shaped`), so it is tidy and has a value at each field. A value that is decoded and the
one that is read into the tree agree (`Agrees`): texts, numbers, time limits that may be null, and similarities. An
integer is a similarity only if it is minus one, zero or one, and then the two ways to round it give the same.
-/

namespace DeviceNaming.Settings

open Json
open DeviceNaming.Settings.Tree (at? Fits)

variable {α : Type} {room : ℕ} {ms ms' : List (String × Draft)} {es es₀ : List (String × Tree)} {x : Draft}
  {v w : Tree} {k name : String}

/-! ## Objects as tables -/

theorem ofMembers?_cons (key : String) (x : Draft) (ms : List (String × Draft)) (es₀ : List (String × Tree)) :
    Tree.ofMembers? room (Draft.named ((key, x) :: ms)) es₀ =
      (Tree.ofDraft? room x).bind fun v => Tree.ofMembers? room (Draft.named ms) (Roster.putItems key v es₀) := by
  change Tree.ofMembers? room ((.ok key, x) :: Draft.named ms) es₀ = _
  rw [Tree.ofMembers?]
  rfl

/-- A member of distinct ones has an entry, with the tree of its value. -/
theorem lookup_ofMembers? (hnodup : (ms.map (·.1)).Nodup) (h : Tree.ofMembers? room (Draft.named ms) es₀ = some es)
    (k : String) : (ms.lookup k).elim (es.lookup k = es₀.lookup k) fun x =>
      ∃ v, es.lookup k = some v ∧ Tree.ofDraft? room x = some v := by
  induction ms generalizing es₀ with
  | nil =>
    cases h
    rfl
  | cons m ms ih =>
    obtain ⟨key, x⟩ := m
    obtain ⟨hkey, hnodup⟩ := List.nodup_cons.1 hnodup
    rw [ofMembers?_cons] at h
    obtain ⟨v, hv, h⟩ := Option.bind_eq_some_iff.1 h
    have ih := ih hnodup h
    rw [Roster.lookup_putItems] at ih
    rw [Roster.lookup_cons_ite]
    by_cases hk : k = key
    · have hnone : ms.lookup k = none :=
        List.lookup_eq_none_iff.2 fun m hm => bne_iff_ne.2 fun heq => hkey (List.mem_map.2 ⟨m, hm, heq.symm.trans hk⟩)
      rw [hnone, if_pos hk] at ih
      rw [if_pos hk]
      exact ⟨v, ih, hv⟩
    · rw [if_neg hk] at ih ⊢
      exact ih

theorem forall_mem_putItems {P : String × Tree → Prop} (hP : ∀ e ∈ es, P e) (hv : P (k, v)) :
    ∀ e ∈ Roster.putItems k v es, P e := by
  induction es with
  | nil => exact List.forall_mem_singleton.2 hv
  | cons e es ih =>
    obtain ⟨key, w⟩ := e
    obtain ⟨hfirst, hP⟩ := List.forall_mem_cons.1 hP
    rw [Roster.putItems]
    split
    · rename_i hkey
      exact List.forall_mem_cons.2 ⟨hkey ▸ hv, hP⟩
    · exact List.forall_mem_cons.2 ⟨hfirst, ih hP⟩

/-- What is true of each member with the tree of its value is true of the entries, and their names are distinct. -/
theorem ofMembers?_induct {P : String × Tree → Prop} (hms : ∀ m ∈ ms, ∀ v, Tree.ofDraft? room m.2 = some v → P (m.1, v))
    (h : Tree.ofMembers? room (Draft.named ms) es₀ = some es) (hnodup : (es₀.map (·.1)).Nodup) (hP : ∀ e ∈ es₀, P e) :
    (es.map (·.1)).Nodup ∧ ∀ e ∈ es, P e := by
  induction ms generalizing es₀ with
  | nil =>
    cases h
    exact ⟨hnodup, hP⟩
  | cons m ms ih =>
    obtain ⟨key, x⟩ := m
    obtain ⟨hfirst, hms⟩ := List.forall_mem_cons.1 hms
    rw [ofMembers?_cons] at h
    obtain ⟨v, hv, h⟩ := Option.bind_eq_some_iff.1 h
    exact ih hms h (Roster.nodup_keys_put (r := ⟨es₀⟩) hnodup key v) (forall_mem_putItems hP (hfirst v hv))

theorem ofDraft?_object (h : Tree.ofDraft? room (.object (Draft.named ms) .closed) = some w) :
    ∃ room' es, w = .table es ∧ Tree.ofMembers? room' (Draft.named ms) [] = some es := by
  rw [Tree.ofDraft?] at h
  split at h
  · cases h
  · obtain ⟨es, hes, rfl⟩ := Option.map_eq_some_iff.1 h
    exact ⟨_, es, rfl, hes⟩

/-! ## Documents of settings -/

/-- The value is no list and no object. -/
def IsScalar : Draft → Prop
  | .array .. | .object .. => False
  | _ => True

/-- The document has fields under their names, and sections as objects of their fields. -/
def Documented (ms : List (String × Draft)) : Prop :=
  ∀ m ∈ ms, (∃ f : Field, f.path = [m.1]) ∧ IsScalar m.2 ∨
    (∃ (f : Field) (n : String), f.path = [m.1, n]) ∧ ∃ ms', m.2 = .object (Draft.named ms') .closed ∧
      ∀ m' ∈ ms', (∃ f : Field, f.path = [m.1, m'.1]) ∧ IsScalar m'.2

/-- There is a section for the query cache, and it has no time limit. -/
def OmitsQueryTtl (ms : List (String × Draft)) : Prop :=
  ∃ ms', ms.lookup "query_cache" = some (.object (Draft.named ms') .closed) ∧ ms'.lookup "ttl_secs" = none

/-- A field under its name, or a section with distinct fields. -/
def IsEntry (e : String × Tree) : Prop :=
  (∃ f : Field, f.path = [e.1]) ∧ e.2.isTable = false ∨
    (∃ (f : Field) (n : String), f.path = [e.1, n]) ∧ ∃ es', e.2 = .table es' ∧ (es'.map (·.1)).Nodup ∧
      ∀ e' ∈ es', (∃ f : Field, f.path = [e.1, e'.1]) ∧ e'.2.isTable = false

/-- The entries have the form of a document of settings. -/
structure Shaped (es : List (String × Tree)) : Prop where
  nodup : (es.map (·.1)).Nodup
  entries : ∀ e ∈ es, IsEntry e

theorem isTable_of_isScalar (hx : IsScalar x) (h : Tree.ofDraft? room x = some v) : v.isTable = false := by
  cases x with
  | null => cases h; rfl
  | bool b => cases h; rfl
  | number n =>
    rw [Tree.ofDraft?] at h
    split at h
    · cases h
      split <;> rfl
    · cases h; rfl
    · cases h; rfl
    · cases h
  | text c =>
    cases c with
    | ok s => cases h; rfl
    | error f => cases h
  | array => exact hx.elim
  | object => exact hx.elim
  | broken => cases h

theorem Documented.shaped (H : Documented ms) (h : Tree.ofMembers? room (Draft.named ms) [] = some es) :
    Shaped es := by
  have hentry : ∀ m ∈ ms, ∀ v, Tree.ofDraft? room m.2 = some v → IsEntry (m.1, v) := by
    intro m hm v hv
    rcases H m hm with ⟨hf, hscalar⟩ | ⟨hf, ms', hobject, hms'⟩
    · exact .inl ⟨hf, isTable_of_isScalar hscalar hv⟩
    · rw [hobject] at hv
      obtain ⟨room', es', rfl, hes'⟩ := ofDraft?_object hv
      refine .inr ⟨hf, es', rfl, ?_⟩
      exact ofMembers?_induct (fun m' hm' v' hv' => ⟨(hms' m' hm').1, isTable_of_isScalar (hms' m' hm').2 hv'⟩) hes'
        List.nodup_nil fun _ he => absurd he List.not_mem_nil
  obtain ⟨hnodup, hentries⟩ := ofMembers?_induct hentry h List.nodup_nil fun _ he => absurd he List.not_mem_nil
  exact ⟨hnodup, hentries⟩

/-- The names of fields and sections are in lowercase and no paths. -/
theorem Field.names_plain (f : Field) : ∀ n ∈ f.path, Tree.nameOf n = n ∧ '.' ∉ n.toList ∧ '[' ∉ n.toList := by
  cases f <;> decide +kernel

/-- No field has more names than another one that begins with all of them. -/
theorem Field.rest_eq {f g : Field} {path rest : List String} (hf : f.path = path) (hg : g.path = path ++ rest) :
    rest = [] := by
  have hprefix : f.path <+: g.path := by
    rw [hf, hg]
    exact List.prefix_append path rest
  rw [← Field.eq_of_prefix f g hprefix, hf] at hg
  exact List.self_eq_append_right.1 hg

theorem tidy_of_not_isTable (h : v.isTable = false) : v.Tidy := by
  cases v <;> first | exact trivial | cases h

theorem IsEntry.tidy {e : String × Tree} (H : IsEntry e) : Tree.nameOf e.1 = e.1 ∧ e.2.Tidy := by
  rcases H with ⟨⟨f, hf⟩, hvalue⟩ | ⟨⟨f, n, hf⟩, es', htable, hnodup, hentries⟩
  · exact ⟨(f.names_plain e.1 (by simp [hf])).1, tidy_of_not_isTable hvalue⟩
  · refine ⟨(f.names_plain e.1 (by simp [hf])).1, ?_⟩
    rw [htable]
    refine ⟨hnodup, Tree.tidyAll_iff.2 fun e' he' => ?_⟩
    obtain ⟨⟨g, hg⟩, hvalue⟩ := hentries e' he'
    exact ⟨(g.names_plain e'.1 (by simp [hg])).1, tidy_of_not_isTable hvalue⟩

theorem IsEntry.plain {e : String × Tree} (H : IsEntry e) : '.' ∉ e.1.toList ∧ '[' ∉ e.1.toList := by
  rcases H with ⟨⟨f, hf⟩, -⟩ | ⟨⟨f, n, hf⟩, -⟩ <;> exact (f.names_plain e.1 (by simp [hf])).2

namespace Shaped

variable (H : Shaped es)
include H

theorem tidy : (Tree.table es).Tidy := ⟨H.nodup, Tree.tidyAll_iff.2 fun e he => (H.entries e he).tidy⟩

theorem mem_of_lookup (h : es.lookup k = some v) : (k, v) ∈ es :=
  (Roster.find?_eq_some_iff (r := ⟨es⟩) H.nodup).1 h

theorem fits (f : Field) : Fits f.path (.table es) := by
  obtain ⟨n, path, hpath⟩ := exists_path_cons f
  rw [hpath]
  intro v hv
  rcases H.entries _ (H.mem_of_lookup hv) with ⟨⟨g, hg⟩, hvalue⟩ | ⟨⟨g, m, hg⟩, es', rfl, hnodup, hentries⟩
  · obtain rfl := Field.rest_eq hg hpath
    exact ⟨fun h => absurd rfl h, hvalue⟩
  · cases path with
    | nil => cases Field.rest_eq hpath hg
    | cons n' path =>
      refine ⟨fun _ => rfl, fun w hw => ?_⟩
      obtain ⟨⟨g', hg'⟩, hvalue⟩ := hentries _ ((Roster.find?_eq_some_iff (r := ⟨es'⟩) hnodup).1 hw)
      obtain rfl := Field.rest_eq hg' hpath
      exact ⟨fun h => absurd rfl h, hvalue⟩

end Shaped

/-! ## Values -/

theorem refuse_ne_ok {expected : String} {a : α} : Decoder.refuse expected x ≠ .ok a := by
  fun_cases Decoder.refuse expected x <;> exact fun h => nomatch h

/-- A value that is decoded has a tree, and the two are related. -/
def Agrees (dec : Decoder α) (rel : α → Tree → Prop) : Prop :=
  ∀ ⦃room : ℕ⦄ ⦃x : Draft⦄ ⦃a : α⦄, dec x = .ok a → ∃ v, Tree.ofDraft? room x = some v ∧ rel a v

def IsWordOf (s : String) (v : Tree) : Prop := v = .text s

/-- The value is the number, if that fits in 64 bits with a sign. -/
def IsNumberOf (n : ℕ) (v : Tree) : Prop := n < Width.signedBound → v = .int n

def IsLimitOf : Option ℕ → Tree → Prop
  | none, v => v = .null
  | some n, v => IsNumberOf n v

/-- The value is a number and stands for the similarity, if it stands for one. -/
def IsThresholdOf (a : Binary32) (v : Tree) : Prop :=
  ((∃ n, v = .int n) ∨ ∃ x, v = .float x) ∧ (thresholdInRange v.similarity = true → v.similarity = a)

theorem agrees_text : Agrees Decoder.text IsWordOf := by
  intro room x s h
  rw [Decoder.text.eq_def] at h
  split at h
  · cases h
    exact ⟨_, rfl, rfl⟩
  · exact absurd h refuse_ne_ok

theorem agrees_natural (expected : String) : Agrees (Decoder.natural expected) IsNumberOf := by
  intro room x n h
  rw [Decoder.natural.eq_def] at h
  split at h
  · rename_i numeral
    split at h
    · rename_i k hread
      cases h
      rw [Tree.ofDraft?, hread]
      exact ⟨_, rfl, fun hn => if_pos hn⟩
    all_goals cases h
  · exact absurd h refuse_ne_ok

theorem agrees_nullable (expected : String) : Agrees (Decoder.nullable (Decoder.natural expected)) IsLimitOf := by
  intro room x o h
  rw [Decoder.nullable.eq_def] at h
  split at h
  · cases h
    exact ⟨_, rfl, rfl⟩
  · cases hn : Decoder.natural expected x with
    | error f => rw [hn] at h; cases h
    | ok n =>
      rw [hn] at h
      cases h
      exact agrees_natural expected hn

theorem float_ne_negative {negative : Bool} {significand n : ℕ} {e : ℤ} :
    Numeral.float negative significand e ≠ .ok (.negative n) := by
  rw [Numeral.float]
  split <;> exact fun h => nomatch h

/-- Zero with a sign is no integer. -/
theorem read_negative_ne {numeral : Numeral} {n : ℕ} (h : numeral.read = .ok (.negative n)) : n ≠ 0 := by
  rw [Numeral.read] at h
  dsimp only at h
  split at h
  · rw [Numeral.integer] at h
    split at h
    · cases h
    · split at h
      · cases h
      · rename_i hn
        cases h
        exact fun hzero => hn (.inl hzero)
  · split at h
    · exact absurd h float_ne_negative
    · split at h
      · exact absurd h float_ne_negative
      · split at h <;> cases h

/-- Of the natural numbers only zero and one are similarities. -/
theorem ofFloat_ofNat {n : ℕ} (h : thresholdInRange (Binary32.ofFloat (Float.ofNat n)) = true) :
    Binary32.ofFloat (Float.ofNat n) = Binary32.ofNat n := by
  rw [thresholdInRange, Bool.and_eq_true] at h
  have hn : n < 2 := by
    by_contra hn
    cases h.2.symm.trans (Rounding.not_le_one_ofNat (by omega))
  interval_cases n <;> decide +kernel

/-- Of the negative integers only minus one is a similarity. -/
theorem ofFloat_neg_ofNat {n : ℕ} (hne : n ≠ 0)
    (h : thresholdInRange (Binary32.ofFloat (-(Float.ofNat n))) = true) :
    Binary32.ofFloat (-(Float.ofNat n)) = ⟨(Binary32.ofNat n).bits ||| 0x80000000⟩ := by
  rw [thresholdInRange, Bool.and_eq_true] at h
  have hn : n < 2 := by
    by_contra hn
    cases h.1.symm.trans (Rounding.not_neg_one_le_neg_ofNat (by omega))
  obtain rfl : n = 1 := by omega
  decide +kernel

theorem agrees_binary32 : Agrees Decoder.binary32 IsThresholdOf := by
  intro room x a h
  rw [Decoder.binary32.eq_def] at h
  split at h
  · rename_i numeral
    split at h
    · rename_i n hread
      cases h
      rw [Tree.ofDraft?, hread]
      dsimp only
      split
      · have hvalue : (Tree.int n).similarity = Binary32.ofFloat (Float.ofNat n) := rfl
        exact ⟨_, rfl, .inl ⟨n, rfl⟩, fun h => hvalue ▸ ofFloat_ofNat (hvalue ▸ h)⟩
      · exact ⟨_, rfl, .inr ⟨_, rfl⟩, ofFloat_ofNat⟩
    · rename_i n hread
      cases h
      rw [Tree.ofDraft?, hread]
      have hne := read_negative_ne hread
      have hvalue : (Tree.int (-(n : ℤ))).similarity = Binary32.ofFloat (-(Float.ofNat n)) := by
        rw [Tree.similarity, Tree.binary32?, Tree.float?, if_pos (by omega), Int.natAbs_neg, Int.natAbs_natCast]
        rfl
      exact ⟨_, rfl, .inl ⟨_, rfl⟩, fun h => hvalue ▸ ofFloat_neg_ofNat hne (hvalue ▸ h)⟩
    · rename_i y hread
      cases h
      rw [Tree.ofDraft?, hread]
      exact ⟨_, rfl, .inr ⟨y, rfl⟩, fun _ => rfl⟩
    · cases h
  · exact absurd h refuse_ne_ok

end DeviceNaming.Settings
