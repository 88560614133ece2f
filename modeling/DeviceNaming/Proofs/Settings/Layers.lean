import DeviceNaming.Settings.Loading
import DeviceNaming.Proofs.Settings.Keys

/-!
# Settings are layered field by field

A layer assigns values to fields (`assigned`). Where all of them have the type of their field (`Typed`), the value
that the layers assign to a field last is what the merged tree has at the path of the field (`lays_layers`), the
defaults are below all of them, and the tree is read as these values (`settings?_eq`, `load_of_layers`). In layers
that assign each field at most once the last value is the one of the highest layer that has one, so loading gives the
settings that are merged field by field, if these are usable (`load_layered`).
-/

namespace DeviceNaming.Settings

open DeviceNaming.Settings.Tree (at? assignments Fits Lays)

/-! ## Fields -/

/-- The fields of the settings. -/
inductive Field where
  | logLevel
  | timeoutMs
  | embeddingSize
  | embeddingTtl
  | querySize
  | queryTtl
  | indexTtl
  | threshold
  | defaultLimit
deriving DecidableEq

/-- The names that lead to a field. -/
def Field.path : Field → List String
  | logLevel => ["log_level"]
  | timeoutMs => ["embedding", "timeout_ms"]
  | embeddingSize => ["embedding_cache", "max_size"]
  | embeddingTtl => ["embedding_cache", "ttl_secs"]
  | querySize => ["query_cache", "max_size"]
  | queryTtl => ["query_cache", "ttl_secs"]
  | indexTtl => ["index_cache", "ttl_secs"]
  | threshold => ["areas", "semantic_threshold"]
  | defaultLimit => ["search", "default_limit"]

namespace Tree

/-- A natural number in 64 bits with a sign. -/
def IsCount (v : Tree) : Prop := ∃ n : ℕ, n < Width.signedBound ∧ v = .int n

/-- The number of which a size or a time consists. -/
def count : Tree → ℕ
  | int n => n.toNat
  | _ => 0

/-- The time limit for which a value stands; null is none. -/
def limit : Tree → Option ℕ
  | null => none
  | v => some v.count

def word : Tree → String
  | text s => s
  | _ => ""

/-- The similarity for which a number stands. -/
def similarity (v : Tree) : Binary32 := v.binary32?.getD .zero

end Tree

/-- The values of the type of a field. -/
def Field.Accepts : Field → Tree → Prop
  | logLevel, v => ∃ s, v = .text s
  | threshold, v => (∃ n, v = .int n) ∨ ∃ x, v = .float x
  | embeddingTtl, v => v = .null ∨ v.IsCount
  | queryTtl, v => v = .null ∨ v.IsCount
  | timeoutMs, v | embeddingSize, v | querySize, v | indexTtl, v | defaultLimit, v => v.IsCount

/-- The settings of which some fields have a value of their type, and the others their default. -/
def settingsOf (given : Field → Option Tree) : Settings where
  logLevel := ((given .logLevel).map Tree.word).getD default.logLevel
  timeoutMs := ((given .timeoutMs).map Tree.count).getD default.timeoutMs
  embeddingCache :=
    ⟨((given .embeddingSize).map Tree.count).getD CacheSettings.embeddingDefault.maxSize,
      ((given .embeddingTtl).map Tree.limit).getD CacheSettings.embeddingDefault.ttlSecs⟩
  queryCache :=
    ⟨((given .querySize).map Tree.count).getD CacheSettings.queryDefault.maxSize,
      ((given .queryTtl).map Tree.limit).getD CacheSettings.queryDefault.ttlSecs⟩
  indexTtlSecs := ((given .indexTtl).map Tree.count).getD default.indexTtlSecs
  semanticThreshold := ((given .threshold).map Tree.similarity).getD default.semanticThreshold
  defaultLimit := ((given .defaultLimit).map Tree.count).getD default.defaultLimit

/-! ## Reading a tree -/

variable {α : Type} {f : Field} {t v : Tree}

theorem Field.Accepts.isTable (H : f.Accepts v) : v.isTable = false := by
  cases f <;> simp only [Field.Accepts, Tree.IsCount] at H
  case logLevel => obtain ⟨s, rfl⟩ := H; rfl
  case threshold => obtain ⟨n, rfl⟩ | ⟨x, rfl⟩ := H <;> rfl
  case embeddingTtl => obtain rfl | ⟨n, -, rfl⟩ := H <;> rfl
  case queryTtl => obtain rfl | ⟨n, -, rfl⟩ := H <;> rfl
  all_goals obtain ⟨n, -, rfl⟩ := H; rfl

theorem natural?_of_isCount (H : v.IsCount) : v.natural? = some v.count := by
  obtain ⟨n, -, rfl⟩ := H
  rfl

theorem nullable_natural? (H : v = .null ∨ v.IsCount) : Tree.nullable? Tree.natural? v = some v.limit := by
  obtain rfl | ⟨n, -, rfl⟩ := H <;> rfl

theorem binary32?_of_number (H : (∃ n, v = .int n) ∨ ∃ x, v = .float x) : v.binary32? = some v.similarity := by
  obtain ⟨n, rfl⟩ | ⟨x, rfl⟩ := H <;> rfl

theorem fieldOr_eq (read : Tree → Option α) (i : ℕ) (name : String) (default : α) (ht : t.isTable = true) :
    Tree.fieldOr read i name default t =
      match t.entries.lookup name with
      | some v => read v
      | none => some default := by
  cases t with
  | table es =>
    rw [Tree.fieldOr, Tree.field?, Tree.entries]
    cases es.lookup name <;> rfl
  | _ => cases ht

theorem at?_singleton (n : String) (t : Tree) : at? [n] t = t.entries.lookup n := by
  rw [at?]
  cases t.entries.lookup n <;> rfl

theorem at?_pair (n m : String) (t : Tree) : at? [n, m] t = (t.entries.lookup n).bind fun w => w.entries.lookup m := by
  rw [at?]
  exact congrArg _ (funext (at?_singleton m))

/-- A field of a section has the value that is there, or its default. -/
theorem fieldOr_section (read : Tree → Option α) {value : Tree → α} {section_ name : String} (i j : ℕ) (default : α)
    (ht : t.isTable = true) (hfits : Fits [section_, name] t)
    (hread : ∀ v, at? [section_, name] t = some v → read v = some (value v)) :
    Tree.fieldOr (Tree.fieldOr read j name default) i section_ default t =
      some (((at? [section_, name] t).map value).getD default) := by
  rw [fieldOr_eq _ _ _ _ ht]
  rw [at?_pair] at hread ⊢
  cases hw : t.entries.lookup section_ with
  | none => rfl
  | some w =>
    rw [hw] at hread
    dsimp only [Option.bind_some] at hread ⊢
    rw [fieldOr_eq _ _ _ _ ((hfits w hw).1 (List.cons_ne_nil _ _))]
    cases hv : w.entries.lookup name with
    | none => rfl
    | some v => exact hread v hv

/-- The bounds of a cache are there as soon as its size is. -/
theorem fieldOr_cache {section_ : String} (i : ℕ) (default : CacheSettings) (ht : t.isTable = true)
    (hfits : Fits [section_, "max_size"] t)
    (hsize : ∃ v, at? [section_, "max_size"] t = some v ∧ v.IsCount)
    (httl : ∀ v, at? [section_, "ttl_secs"] t = some v → v = .null ∨ v.IsCount) :
    Tree.fieldOr Tree.cacheSettings? i section_ default t =
      some ⟨((at? [section_, "max_size"] t).map Tree.count).getD default.maxSize,
        ((at? [section_, "ttl_secs"] t).map Tree.limit).getD none⟩ := by
  obtain ⟨v, hv, hcount⟩ := hsize
  rw [fieldOr_eq _ _ _ _ ht]
  rw [at?_pair] at hv httl ⊢
  rw [at?_pair]
  obtain ⟨w, hw, hv⟩ := Option.bind_eq_some_iff.1 hv
  have htable := (hfits w hw).1 (List.cons_ne_nil _ _)
  rw [hw] at httl ⊢
  dsimp only [Option.bind_some] at httl ⊢
  have hlimit : Tree.fieldOr (Tree.nullable? Tree.natural?) 1 "ttl_secs" none w =
      some (((w.entries.lookup "ttl_secs").map Tree.limit).getD none) := by
    rw [fieldOr_eq _ _ _ _ htable]
    cases hlookup : w.entries.lookup "ttl_secs" with
    | none => rfl
    | some u => exact nullable_natural? (httl u hlookup)
  have hfield : w.field? 0 "max_size" = some (some v) := by
    cases w with
    | table es => exact congrArg some hv
    | _ => cases htable
  rw [Tree.cacheSettings?, hfield, hv, hlimit]
  dsimp only [bind, Option.bind]
  rw [natural?_of_isCount hcount]
  rfl

/-- A tree with a value of its type at each field that it has is read as these values. -/
theorem settings?_eq (ht : t.isTable = true) (hfits : ∀ f : Field, Fits f.path t)
    (haccepts : ∀ (f : Field) v, at? f.path t = some v → f.Accepts v)
    (hembedding : (at? Field.embeddingSize.path t).isSome = true)
    (hquery : (at? Field.querySize.path t).isSome = true)
    (httl : (at? Field.queryTtl.path t).isSome = true) :
    t.settings? = some (settingsOf fun f => at? f.path t) := by
  have hlog : Tree.fieldOr Tree.text? 0 "log_level" default.logLevel t =
      some (settingsOf fun f => at? f.path t).logLevel := by
    rw [fieldOr_eq _ _ _ _ ht, settingsOf]
    have haccepts := haccepts .logLevel
    rw [Field.path, at?_singleton] at haccepts ⊢
    cases hlookup : t.entries.lookup "log_level" with
    | none => rfl
    | some v =>
      obtain ⟨s, rfl⟩ := haccepts v hlookup
      rfl
  have htimeout := fieldOr_section Tree.natural? 1 0 default.timeoutMs ht (hfits .timeoutMs)
    fun v hv => natural?_of_isCount (haccepts .timeoutMs v hv)
  have hindex := fieldOr_section Tree.natural? 4 0 default.indexTtlSecs ht (hfits .indexTtl)
    fun v hv => natural?_of_isCount (haccepts .indexTtl v hv)
  have hlimit := fieldOr_section Tree.natural? 6 0 default.defaultLimit ht (hfits .defaultLimit)
    fun v hv => natural?_of_isCount (haccepts .defaultLimit v hv)
  have hthreshold := fieldOr_section Tree.binary32? 5 0 defaultThreshold ht (hfits .threshold)
    fun v hv => binary32?_of_number (haccepts .threshold v hv)
  have hembedding := fieldOr_cache 2 .embeddingDefault ht (hfits .embeddingSize) (by
    obtain ⟨v, hv⟩ := Option.isSome_iff_exists.1 hembedding
    exact ⟨v, hv, haccepts .embeddingSize v hv⟩) (haccepts .embeddingTtl)
  have hquery := fieldOr_cache 3 .queryDefault ht (hfits .querySize) (by
    obtain ⟨v, hv⟩ := Option.isSome_iff_exists.1 hquery
    exact ⟨v, hv, haccepts .querySize v hv⟩) (haccepts .queryTtl)
  rw [Tree.settings?, hlog, htimeout, hembedding, hquery, hindex, hthreshold, hlimit]
  obtain ⟨v, hv⟩ := Option.isSome_iff_exists.1 httl
  have hlast : ((at? Field.queryTtl.path t).map Tree.limit).getD none =
      ((at? Field.queryTtl.path t).map Tree.limit).getD CacheSettings.queryDefault.ttlSecs := by
    rw [hv]
    rfl
  rw [settingsOf, ← hlast]
  rfl

/-! ## Layers -/

/-- What a layer assigns to a field. -/
def assigned (layer : List (String × Tree)) (f : Field) : Option Tree := (assignments layer).lookup f.path

/-- What layers, lowest first, assign to a field last. -/
def assignedLast (layers : List (List (String × Tree))) (f : Field) : Option Tree :=
  Tree.latest f.path (layers.flatMap assignments) none

/-- What the layer assigns to a field has its type. What it assigns besides is no section, and is neither on the way
to a field nor below one. -/
structure Typed (layer : List (String × Tree)) : Prop where
  accepts : ∀ a ∈ assignments layer, ∀ f : Field, a.1 = f.path → f.Accepts a.2
  apart : ∀ a ∈ assignments layer, ∀ f : Field, a.1 ≠ f.path → ¬f.path <+: a.1 ∧ (a.1 <+: f.path → a.2 = .table [])

/-- Besides, the layer assigns to each field once or not at all. -/
structure Proper (layer : List (String × Tree)) : Prop extends Typed layer where
  once : ∀ f : Field, ((assignments layer).map (·.1)).count f.path ≤ 1

variable {layer : List (String × Tree)} {layers : List (List (String × Tree))}

theorem Typed.respects (H : Typed layer) (f : Field) : ∀ a ∈ assignments layer, a.Respects f.path := by
  intro a ha
  rw [Tree.Assignment.Respects]
  split
  · exact (H.accepts a ha f ‹_›).isTable
  · exact H.apart a ha f ‹_›

theorem accepts_assignedLast (htyped : ∀ layer ∈ layers, Typed layer) (h : assignedLast layers f = some v) :
    f.Accepts v := by
  rcases Tree.mem_of_latest h with hmem | h
  · obtain ⟨layer, hlayer, hmem⟩ := List.mem_flatMap.1 hmem
    exact (htyped layer hlayer).accepts _ hmem f rfl
  · cases h

/-- Of what a layer assigns at most once there is no order. -/
theorem Proper.latest (H : Proper layer) (f : Field) (before : Option Tree) :
    Tree.latest f.path (assignments layer) before = (assigned layer f).or before :=
  Tree.latest_of_count_le (H.once f) before

theorem exists_path_cons (f : Field) : ∃ n path, f.path = n :: path := by
  cases f <;> exact ⟨_, _, rfl⟩

/-- Layers that are laid over each other assign one after the other. -/
theorem lays_layers (htyped : ∀ layer ∈ layers, Typed layer) (hplain : ∀ layer ∈ layers, ∀ e ∈ layer, Plain e.1)
    (f : Field) (root : Tree) :
    Lays f.path (layers.flatMap assignments) root (layers.foldl (fun t layer => Tree.layAll layer t) root) := by
  obtain ⟨n, path, hpath⟩ := exists_path_cons f
  induction layers generalizing root with
  | nil => exact .refl _ _
  | cons layer layers ih =>
    obtain ⟨hfirst, htyped⟩ := List.forall_mem_cons.1 htyped
    obtain ⟨hkeys, hplain⟩ := List.forall_mem_cons.1 hplain
    refine .trans ?_ (ih htyped hplain _)
    have hrespects := hfirst.respects f
    rw [hpath] at hrespects ⊢
    exact Tree.lays_layAll (fun e he => (hkeys e he).1) root hrespects

theorem tidy_layAll (hkeys : ∀ e ∈ layer, Plain e.1) {root : Tree} (hroot : root.Tidy) (hlevel : root.Level)
    (ht : root.isTable = true) :
    (Tree.layAll layer root).Tidy ∧ (Tree.layAll layer root).Level ∧ (Tree.layAll layer root).isTable = true := by
  induction layer generalizing root with
  | nil => exact ⟨hroot, hlevel, ht⟩
  | cons e layer ih =>
    obtain ⟨hkey, hkeys⟩ := List.forall_mem_cons.1 hkeys
    exact ih hkeys (hroot.lay hkey.1 e.2) (hlevel.lay hkey e.2) (Tree.isTable_lay hkey.1 e.2 root)

/-- What is laid over a tidy table of flat names is one. -/
theorem tidy_layers (hplain : ∀ layer ∈ layers, ∀ e ∈ layer, Plain e.1) {root : Tree} (hroot : root.Tidy)
    (hlevel : root.Level) (ht : root.isTable = true) :
    (layers.foldl (fun t layer => Tree.layAll layer t) root).Tidy ∧
      (layers.foldl (fun t layer => Tree.layAll layer t) root).Level ∧
      (layers.foldl (fun t layer => Tree.layAll layer t) root).isTable = true := by
  induction layers generalizing root with
  | nil => exact ⟨hroot, hlevel, ht⟩
  | cons layer layers ih =>
    obtain ⟨hkeys, hplain⟩ := List.forall_mem_cons.1 hplain
    obtain ⟨htidy, hlevel, ht⟩ := tidy_layAll hkeys hroot hlevel ht
    exact ih hplain htidy hlevel ht

/-- The fields that the defaults have. -/
theorem settingsOf_or_default (given : Field → Option Tree) :
    (settingsOf fun f => (given f).or (at? f.path defaultTree)) = settingsOf given := by
  have hfield {α : Type} (f : Field) {value : Tree → α} (default : α)
      (hdefault : ((at? f.path defaultTree).map value).getD default = default) :
      (((given f).or (at? f.path defaultTree)).map value).getD default = ((given f).map value).getD default := by
    cases given f with
    | none => exact hdefault
    | some v => rfl
  rw [settingsOf, settingsOf, hfield .logLevel default.logLevel rfl, hfield .timeoutMs default.timeoutMs rfl,
    hfield .embeddingSize CacheSettings.embeddingDefault.maxSize rfl,
    hfield .embeddingTtl CacheSettings.embeddingDefault.ttlSecs rfl,
    hfield .querySize CacheSettings.queryDefault.maxSize rfl,
    hfield .queryTtl CacheSettings.queryDefault.ttlSecs rfl, hfield .indexTtl default.indexTtlSecs rfl,
    hfield .threshold default.semanticThreshold (by decide +kernel), hfield .defaultLimit default.defaultLimit rfl]

theorem fits_defaultTree (f : Field) : Fits f.path defaultTree := by
  cases f
  case logLevel =>
    intro v hv
    cases hv
    exact ⟨fun h => absurd rfl h, rfl⟩
  all_goals
    intro v hv
    cases hv
    refine ⟨fun _ => rfl, fun w hw => ?_⟩
    cases hw <;> exact ⟨fun h => absurd rfl h, rfl⟩

theorem accepts_defaultTree (h : at? f.path defaultTree = some v) : f.Accepts v := by
  cases f <;> cases h
  case logLevel => exact ⟨"info", rfl⟩
  case queryTtl => exact .inr ⟨300, by decide, rfl⟩
  case threshold => exact .inr ⟨_, rfl⟩
  all_goals exact ⟨_, by decide, rfl⟩

/-- Loading reads what the layers have at the fields, once they are laid over each other, and the defaults. -/
theorem load_of_tree {s : Sources} {u : Tree} {values : Field → Option Tree} (hlayers : s.layers? = some layers)
    (hplain : ∀ layer ∈ layers, ∀ e ∈ layer, Plain e.1)
    (hu : layers.foldl (fun t layer => Tree.layAll layer t) (.table []) = u)
    (hvalues : ∀ f : Field, at? f.path u = values f) (hfits : ∀ f : Field, Fits f.path u)
    (haccepts : ∀ (f : Field) v, values f = some v → f.Accepts v) :
    load s = match (settingsOf values).invalid? with
      | some rule => .error (.invalid rule)
      | none => .ok (settingsOf values) := by
  obtain rfl : (fun f : Field => at? f.path u) = values := funext hvalues
  have hlevel : (Tree.table []).Level := fun n hn => absurd hn List.not_mem_nil
  obtain ⟨htidy, hulevel, hutable⟩ := tidy_layers hplain Tree.tidy_empty hlevel rfl
  rw [hu] at htidy hulevel hutable
  obtain ⟨t, ht⟩ : ∃ t, Tree.layAll u.entries defaultTree = t := ⟨_, rfl⟩
  have htree : s.tree? = some t := by
    rw [Sources.tree?, hlayers, Option.map_some, hu, ht]
  rw [Tree.layAll_eq_mergeAll hulevel] at ht
  have hvalue (f : Field) : at? f.path t = (at? f.path u).or (at? f.path defaultTree) ∧ Fits f.path t := by
    obtain ⟨n, path, hpath⟩ := exists_path_cons f
    have hfits := hfits f
    have hdefault := fits_defaultTree f
    rw [hpath] at hfits hdefault ⊢
    obtain ⟨hat, hfits'⟩ := Tree.at?_mergeAll htidy hutable hfits defaultTree
    rw [ht] at hat hfits'
    exact ⟨hat, hfits' hdefault⟩
  have htable : t.isTable = true := ht ▸ Tree.isTable_mergeAll rfl
  have hsettings : t.settings? = some (settingsOf fun f => at? f.path u) := by
    have hor : (fun f => at? f.path t) = fun f => (at? (Field.path f) u).or (at? f.path defaultTree) :=
      funext fun f => (hvalue f).1
    rw [← settingsOf_or_default, ← hor]
    refine settings?_eq htable (fun f => (hvalue f).2) (fun f v hv => ?_) ?_ ?_ ?_
    · rw [(hvalue f).1] at hv
      rcases Option.or_eq_some_iff.1 hv with hv | ⟨-, hv⟩
      · exact haccepts f v hv
      · exact accepts_defaultTree hv
    all_goals
      rw [(hvalue _).1, Option.isSome_or, Bool.or_eq_true]
      exact .inr rfl
  rewrite [load, htree, Option.bind_some, hsettings]
  rfl

/-- Loading reads the values that the layers assign last. -/
theorem load_of_layers {s : Sources} (hlayers : s.layers? = some layers) (htyped : ∀ layer ∈ layers, Typed layer)
    (hplain : ∀ layer ∈ layers, ∀ e ∈ layer, Plain e.1) :
    load s = match (settingsOf (assignedLast layers)).invalid? with
      | some rule => .error (.invalid rule)
      | none => .ok (settingsOf (assignedLast layers)) := by
  obtain ⟨u, hu⟩ : ∃ u, layers.foldl (fun t layer => Tree.layAll layer t) (Tree.table []) = u := ⟨_, rfl⟩
  have hlays (f : Field) := hu ▸ lays_layers htyped hplain f (.table [])
  have hvalues (f : Field) : at? f.path u = assignedLast layers f := by
    have hempty : at? f.path (.table []) = none := by cases f <;> rfl
    rw [(hlays f).value, hempty, assignedLast]
  have hfits (f : Field) : Fits f.path u :=
    (hlays f).fits (by cases f <;> exact fun _ h => nomatch h)
  exact load_of_tree hlayers hplain hu hvalues hfits fun f v => accepts_assignedLast htyped

/-! ## Layering -/

theorem Field.eq_of_prefix : ∀ f g : Field, f.path <+: g.path → f = g := by
  intro f g
  cases f <;> cases g <;> decide

theorem proper_singleton (h : assignments layer = [(f.path, v)]) (hv : f.Accepts v) : Proper layer := by
  refine ⟨⟨fun a ha g hg => ?_, fun a ha g hg => ?_⟩, fun g => ?_⟩
  · obtain rfl := List.mem_singleton.1 (h ▸ ha)
    rw [← Field.eq_of_prefix f g (hg ▸ List.prefix_rfl)]
    exact hv
  · obtain rfl := List.mem_singleton.1 (h ▸ ha)
    have hne : f ≠ g := fun heq => hg (congrArg Field.path heq)
    exact ⟨fun hprefix => hne (Field.eq_of_prefix g f hprefix).symm,
      fun hprefix => absurd (Field.eq_of_prefix f g hprefix) hne⟩
  · rw [h]
    exact List.count_le_length

/-- Settings are layered field by field: each field has the value of the environment, else of the named file, else of
the file of the user, else its default. Loading fails only if the settings so merged break a rule. -/
theorem load_layered (s : Sources) (user named : List (String × Tree))
    (hlayers : s.layers? = some [user, named, Environment.layer s.environment])
    (huser : Proper user) (hnamed : Proper named) (henv : Proper (Environment.layer s.environment))
    (hkeys : ∀ e ∈ user ++ named, '.' ∉ e.1.toList ∧ '[' ∉ e.1.toList)
    (hvariables : ∀ e ∈ s.environment, '[' ∉ e.1.toList) :
    let merged := settingsOf fun f =>
      (assigned (Environment.layer s.environment) f).or ((assigned named f).or (assigned user f))
    load s = match merged.invalid? with
      | some rule => .error (.invalid rule)
      | none => .ok merged := by
  have hplain : ∀ e ∈ user ++ named, Plain e.1 := fun e he => ⟨(hkeys e he).2, fun h => absurd h (hkeys e he).1⟩
  have henvPlain : ∀ e ∈ Environment.layer s.environment, Plain e.1 := by
    intro e he
    obtain ⟨⟨name, text⟩, hmem, hkey⟩ := List.mem_filterMap.1 he
    obtain ⟨key, hname, rfl⟩ := Option.map_eq_some_iff.1 hkey
    exact plain_of_key? (hvariables _ hmem) hname
  have hgiven : assignedLast [user, named, Environment.layer s.environment] = fun f =>
      (assigned (Environment.layer s.environment) f).or ((assigned named f).or (assigned user f)) := by
    funext f
    simp only [assignedLast, List.flatMap_cons, List.flatMap_nil, List.append_nil, Tree.latest_append, huser.latest,
      hnamed.latest, henv.latest, Option.or_none]
  intro merged
  obtain ⟨huserPlain, hnamedPlain⟩ := List.forall_mem_append.1 hplain
  have hload := load_of_layers hlayers
    (by simp only [List.forall_mem_cons]; exact ⟨huser.toTyped, hnamed.toTyped, henv.toTyped, fun _ h => nomatch h⟩)
    (by simp only [List.forall_mem_cons]; exact ⟨huserPlain, hnamedPlain, henvPlain, fun _ h => nomatch h⟩)
  rw [hgiven] at hload
  exact hload

def queryDocument : String := "\x7b\"query_cache\": \x7b\"ttl_secs\": 60\x7d\x7d"

theorem load_layered_three :
    load ⟨some "log_level = \"debug\"", some ⟨"settings.json", some queryDocument⟩,
      [("RESOLVER_SEARCH__DEFAULT_LIMIT", "9")]⟩ =
      .ok ⟨"debug", 2000, ⟨1000, none⟩, ⟨500, some 60⟩, 3600, defaultThreshold, 9⟩ := by
  have huser : Toml.parse? "log_level = \"debug\"" = some [("log_level", .text "debug")] := by
    cbv
  have hnamed : Tree.ofDocument? queryDocument = some [("query_cache", .table [("ttl_secs", .int 60)])] := by
    cbv
  have hlayer : NamedFile.layer? ⟨"settings.json", some queryDocument⟩ =
      some [("query_cache", .table [("ttl_secs", .int 60)])] := by
    have hextension : extension "settings.json" = ['j', 's', 'o', 'n'] := by decide
    simp [NamedFile.layer?, hextension, hnamed]
  have henv : Environment.layer [("RESOLVER_SEARCH__DEFAULT_LIMIT", "9")] = [("search.default_limit", .int 9)] := by
    rfl
  have hlayers : Sources.layers? ⟨some "log_level = \"debug\"", some ⟨"settings.json", some queryDocument⟩,
      [("RESOLVER_SEARCH__DEFAULT_LIMIT", "9")]⟩ =
      some [[("log_level", .text "debug")], [("query_cache", .table [("ttl_secs", .int 60)])],
        Environment.layer [("RESOLVER_SEARCH__DEFAULT_LIMIT", "9")]] := by
    simp [Sources.layers?, huser, hlayer]
  have huser : Proper [("log_level", .text "debug")] := by
    have hname : Tree.namesOf "log_level" = ["log_level"] := by decide +kernel
    refine proper_singleton (f := .logLevel) (v := .text "debug") ?_ ⟨_, rfl⟩
    simp [assignments, hname, Tree.leaves, Tree.Assignment.under, Field.path]
  have hnamed : Proper [("query_cache", .table [("ttl_secs", .int 60)])] := by
    have hname : Tree.namesOf "query_cache" = ["query_cache"] := by decide +kernel
    have hfield : Tree.nameOf "ttl_secs" = "ttl_secs" := by decide +kernel
    refine proper_singleton (f := .queryTtl) (v := .int 60) ?_ (.inr ⟨60, by decide, rfl⟩)
    simp [assignments, hname, hfield, Tree.leaves, Tree.leavesAll, Tree.Assignment.under, Field.path]
  have hproper : Proper (Environment.layer [("RESOLVER_SEARCH__DEFAULT_LIMIT", "9")]) := by
    have hname : Tree.namesOf "search.default_limit" = ["search", "default_limit"] := by decide +kernel
    rw [henv]
    refine proper_singleton (f := .defaultLimit) (v := .int 9) ?_ ⟨9, by decide, rfl⟩
    simp [assignments, hname, Tree.leaves, Tree.Assignment.under, Field.path]
  have hload := load_layered _ _ _ hlayers huser hnamed hproper (by decide) (by decide)
  dsimp only at hload
  rw [henv] at hload
  have hmerged : (settingsOf fun f => (assigned [("search.default_limit", .int 9)] f).or
      ((assigned [("query_cache", .table [("ttl_secs", .int 60)])] f).or
        (assigned [("log_level", .text "debug")] f))) =
      ⟨"debug", 2000, ⟨1000, none⟩, ⟨500, some 60⟩, 3600, defaultThreshold, 9⟩ := by
    decide +kernel
  rw [hload, hmerged]
  decide +kernel

end DeviceNaming.Settings
