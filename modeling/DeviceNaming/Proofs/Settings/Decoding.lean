import DeviceNaming.Proofs.Json.Source
import DeviceNaming.Proofs.Settings.Documents

/-!
# Settings that are decoded and settings that are loaded

Settings are decoded from a document by its sections, and loaded from it as a tree that is laid over the defaults. The
tree of a document carries the settings that are decoded from it (`Documented.carries`): section by section a field
has the decoded value, or is left out and decoded as a default. The defaults of both ways are the same, except for the
time limit of a query cache with a section. So the settings agree, except for that (`load_eq_decoded`).
-/

namespace DeviceNaming.Settings

open Json
open DeviceNaming.Settings.Tree (at? Fits)

variable {α : Type} {room : ℕ} {ms ms' : List (String × Draft)} {es : List (String × Tree)} {v w : Tree} {k : String}

/-! ## Sections -/

variable {dec : Decoder α} {rel : α → Tree → Prop} {a d : α} {section_ field : String}

/-- A member that is decoded, or replaced by a default, and its entry. -/
theorem Agrees.lookup (H : Agrees dec rel) (hms : (ms.map (·.1)).Nodup)
    (hes : Tree.ofMembers? room (Draft.named ms) [] = some es) (h : (ms.lookup k).elim (.ok d) dec = .ok a) :
    (es.lookup k).elim (a = d) (rel a) := by
  have hlookup := lookup_ofMembers? hms hes k
  cases hx : ms.lookup k with
  | none =>
    rw [hx] at h hlookup
    rw [show es.lookup k = none from hlookup]
    cases h
    rfl
  | some x =>
    rw [hx] at h hlookup
    obtain ⟨v, hv, hdraft⟩ := hlookup
    obtain ⟨v', hv', hrel⟩ := @H room x a h
    cases hdraft.symm.trans hv'
    rw [hv]
    exact hrel

theorem lookup_eq_none_iff (hms : (ms.map (·.1)).Nodup) (hes : Tree.ofMembers? room (Draft.named ms) [] = some es) :
    es.lookup k = none ↔ ms.lookup k = none := by
  have hlookup := lookup_ofMembers? hms hes k
  cases hx : ms.lookup k with
  | none =>
    rw [hx] at hlookup
    exact iff_of_true hlookup rfl
  | some x =>
    rw [hx] at hlookup
    obtain ⟨v, hv, -⟩ := hlookup
    rw [hv]
    exact iff_of_false (Option.some_ne_none v) (Option.some_ne_none x)

/-- A section with one field. -/
theorem Agrees.ofSection (H : Agrees dec rel) (hms : ∀ m ∈ ms, m.1 = field)
    (h : sectionDecoder section_ field dec d (.object (Draft.named ms) .closed) = .ok a)
    (hw : Tree.ofDraft? room (.object (Draft.named ms) .closed) = some w) :
    (w.entries.lookup field).elim (a = d) (rel a) := by
  have hknows : (Layout.mk section_ [.of field dec]).Knows ms := by
    intro m hm
    simp [Layout.field?, FieldCheck.of, hms m hm]
  obtain ⟨hnodup, hbuild⟩ := Decoder.record_eq_ok hknows h
  obtain ⟨room', es, rfl, hes⟩ := ofDraft?_object hw
  rw [Fields.optional_named] at hbuild
  exact H.lookup hnodup hes hbuild

theorem knows_cacheSettings (hms : ∀ m ∈ ms, m.1 = "max_size" ∨ m.1 = "ttl_secs") :
    CacheSettings.layout.Knows ms := by
  intro m hm
  rcases hms m hm with h | h <;> rw [h] <;> rfl

theorem bind_eq_ok {ε β : Type} {r : Except ε α} {f : α → Except ε β} {b : β} (h : (r >>= f) = .ok b) :
    ∃ a, r = .ok a ∧ f a = .ok b := by
  cases r with
  | error e => cases h
  | ok a => exact ⟨a, rfl, h⟩

/-- The bounds of a cache. -/
theorem agrees_cacheSettings {c : CacheSettings} (hms : ∀ m ∈ ms, m.1 = "max_size" ∨ m.1 = "ttl_secs")
    (h : CacheSettings.decoder (.object (Draft.named ms) .closed) = .ok c)
    (hw : Tree.ofDraft? room (.object (Draft.named ms) .closed) = some w) :
    (∃ v, w.entries.lookup "max_size" = some v ∧ IsNumberOf c.maxSize v) ∧
      (w.entries.lookup "ttl_secs").elim (c.ttlSecs = none) (IsLimitOf c.ttlSecs) ∧
      (w.entries.lookup "ttl_secs" = none ↔ ms.lookup "ttl_secs" = none) := by
  obtain ⟨hnodup, hbuild⟩ := Decoder.record_eq_ok (knows_cacheSettings hms) h
  obtain ⟨room', es, rfl, hes⟩ := ofDraft?_object hw
  obtain ⟨size, hsize, hbuild⟩ := bind_eq_ok hbuild
  obtain ⟨ttl, httl, hbuild⟩ := bind_eq_ok hbuild
  cases hbuild
  rw [Fields.required_named] at hsize
  rw [Fields.optional_named] at httl
  refine ⟨?_, (agrees_nullable "u64").lookup hnodup hes httl, lookup_eq_none_iff hnodup hes⟩
  have hlookup := lookup_ofMembers? hnodup hes "max_size"
  cases hx : ms.lookup "max_size" with
  | none =>
    rw [hx] at hsize
    cases hsize
  | some x =>
    rw [hx] at hsize hlookup
    obtain ⟨v, hv, hdraft⟩ := hlookup
    obtain ⟨v', hv', hnumber⟩ := @agrees_natural "usize" room' _ _ hsize
    cases hdraft.symm.trans hv'
    exact ⟨v, hv, hnumber⟩

/-! ## Documents -/

theorem mem_of_lookup {β : Type} {l : List (String × β)} {b : β} (h : l.lookup k = some b) : (k, b) ∈ l := by
  obtain ⟨l₁, l₂, hl, -⟩ := List.lookup_eq_some_iff.1 h
  exact hl ▸ List.mem_append_right _ List.mem_cons_self

/-- A section of a document is not there, or it is there in the document and in its tree. -/
theorem Documented.section_cases (H : Documented ms) (hms : (ms.map (·.1)).Nodup)
    (hes : Tree.ofMembers? room (Draft.named ms) [] = some es) {f : Field} {n : String} (hf : f.path = [k, n]) :
    ms.lookup k = none ∧ es.lookup k = none ∨
      ∃ ms' w, ms.lookup k = some (.object (Draft.named ms') .closed) ∧ es.lookup k = some w ∧
        Tree.ofDraft? room (.object (Draft.named ms') .closed) = some w ∧
          ∀ m' ∈ ms', ∃ g : Field, g.path = [k, m'.1] := by
  have hlookup := lookup_ofMembers? hms hes k
  cases hx : ms.lookup k with
  | none =>
    rw [hx] at hlookup
    exact .inl ⟨rfl, hlookup⟩
  | some x =>
    rw [hx] at hlookup
    obtain ⟨v, hv, hdraft⟩ := hlookup
    rcases H _ (mem_of_lookup hx) with ⟨⟨g, hg⟩, -⟩ | ⟨-, ms', rfl, hms'⟩
    · cases Field.rest_eq hg hf
    · exact .inr ⟨ms', v, rfl, hv, hdraft, fun m' hm' => (hms' m' hm').1⟩

theorem Agrees.at? (H : Agrees dec rel) (hdoc : Documented ms) (hms : (ms.map (·.1)).Nodup)
    (hes : Tree.ofMembers? room (Draft.named ms) [] = some es) {f : Field} (hf : f.path = [k, field])
    (honly : ∀ g : Field, g.path.headD "" = k → g.path.getLastD "" = field)
    (h : (ms.lookup k).elim (.ok d) (sectionDecoder section_ field dec d) = .ok a) :
    (Tree.at? f.path (.table es)).elim (a = d) (rel a) := by
  rw [hf, at?_pair]
  rcases hdoc.section_cases hms hes hf with ⟨hx, hv⟩ | ⟨ms', w, hx, hv, hdraft, hnames⟩
  · rw [hx] at h
    rw [Tree.entries, hv]
    cases h
    rfl
  · rw [hx] at h
    rw [Tree.entries, hv]
    refine H.ofSection (fun m' hm' => ?_) h hdraft
    obtain ⟨g, hg⟩ := hnames m' hm'
    have hfield := honly g
    rw [hg] at hfield
    exact hfield rfl

/-- The bounds of a cache, which are the default only if there is no section for it. -/
theorem Documented.cache_cases (H : Documented ms) (hms : (ms.map (·.1)).Nodup)
    (hes : Tree.ofMembers? room (Draft.named ms) [] = some es) {c c₀ : CacheSettings} {f g : Field}
    (hf : f.path = [k, "max_size"]) (hg : g.path = [k, "ttl_secs"])
    (honly : ∀ g : Field, g.path.headD "" = k → g.path.getLastD "" = "max_size" ∨ g.path.getLastD "" = "ttl_secs")
    (h : (ms.lookup k).elim (.ok c₀) CacheSettings.decoder = .ok c) :
    (at? f.path (.table es)).elim (c.maxSize = c₀.maxSize) (IsNumberOf c.maxSize) ∧
      (ms.lookup k = none ∧ at? g.path (.table es) = none ∧ c = c₀ ∨
        ∃ ms', ms.lookup k = some (.object (Draft.named ms') .closed) ∧
          (at? g.path (.table es)).elim (c.ttlSecs = none) (IsLimitOf c.ttlSecs) ∧
            (at? g.path (.table es) = none ↔ ms'.lookup "ttl_secs" = none)) := by
  rw [hf, hg, at?_pair, at?_pair, Tree.entries]
  rcases H.section_cases hms hes hf with ⟨hx, hv⟩ | ⟨ms', w, hx, hv, hdraft, hnames⟩
  · rw [hx] at h
    rw [hv]
    cases h
    exact ⟨rfl, .inl ⟨hx, rfl, rfl⟩⟩
  · rw [hx] at h
    rw [hv]
    obtain ⟨⟨v, hsize, hnumber⟩, httl, hnone⟩ := agrees_cacheSettings (fun m' hm' => by
      obtain ⟨g, hg⟩ := hnames m' hm'
      have hfield := honly g
      rw [hg] at hfield
      exact hfield rfl) h hdraft
    refine ⟨?_, .inr ⟨ms', hx, httl, hnone⟩⟩
    rw [Option.bind_some, hsize]
    exact hnumber

theorem named_injective : Function.Injective Draft.named :=
  List.map_injective_iff.2 fun m m' h => by
    obtain ⟨hname, hvalue⟩ := Prod.mk.inj h
    exact Prod.ext (Except.ok.inj hname) hvalue

theorem isSome_field? {f : Field} {path : List String} (hf : f.path = k :: path) : (layout.field? k).isSome = true := by
  have hfield : (layout.field? (f.path.headD "")).isSome = true := by
    cases f <;> rfl
  rwa [hf] at hfield

theorem Documented.knows (H : Documented ms) : layout.Knows ms := by
  intro m hm
  rcases H m hm with ⟨⟨f, hf⟩, -⟩ | ⟨⟨f, n, hf⟩, -⟩ <;> exact isSome_field? hf

/-- What is decoded from a document is decoded from its members. -/
theorem decoder_eq_ok {direct : Settings} (H : Documented ms)
    (h : decoder (.object (Draft.named ms) .closed) = .ok direct) :
    (ms.map (·.1)).Nodup ∧
      (ms.lookup "log_level").elim (.ok default.logLevel) Decoder.text = .ok direct.logLevel ∧
      (ms.lookup "embedding").elim (.ok default.timeoutMs) embeddingDecoder = .ok direct.timeoutMs ∧
      (ms.lookup "embedding_cache").elim (.ok default.embeddingCache) CacheSettings.decoder =
        .ok direct.embeddingCache ∧
      (ms.lookup "query_cache").elim (.ok default.queryCache) CacheSettings.decoder = .ok direct.queryCache ∧
      (ms.lookup "index_cache").elim (.ok default.indexTtlSecs) indexCacheDecoder = .ok direct.indexTtlSecs ∧
      (ms.lookup "areas").elim (.ok defaultThreshold) areasDecoder = .ok direct.semanticThreshold ∧
      (ms.lookup "search").elim (.ok default.defaultLimit) searchDecoder = .ok direct.defaultLimit := by
  obtain ⟨hnodup, hbuild⟩ := Decoder.record_eq_ok H.knows h
  simp only [Fields.optional_named] at hbuild
  obtain ⟨logLevel, h₁, hbuild⟩ := bind_eq_ok hbuild
  obtain ⟨timeoutMs, h₂, hbuild⟩ := bind_eq_ok hbuild
  obtain ⟨embeddingCache, h₃, hbuild⟩ := bind_eq_ok hbuild
  obtain ⟨queryCache, h₄, hbuild⟩ := bind_eq_ok hbuild
  obtain ⟨indexTtlSecs, h₅, hbuild⟩ := bind_eq_ok hbuild
  obtain ⟨semanticThreshold, h₆, hbuild⟩ := bind_eq_ok hbuild
  obtain ⟨defaultLimit, h₇, hbuild⟩ := bind_eq_ok hbuild
  cases hbuild
  exact ⟨hnodup, h₁, h₂, h₃, h₄, h₅, h₆, h₇⟩

/-! ## Two ways to read settings -/

/-- The tree has the fields of the settings, and for those that it has not the settings have the default. But a
section for the query cache without a time limit stands for no time limit. -/
structure Carries (ms : List (String × Draft)) (direct : Settings) (t : Tree) : Prop where
  logLevel : (at? Field.logLevel.path t).elim (direct.logLevel = default.logLevel) (IsWordOf direct.logLevel)
  timeoutMs : (at? Field.timeoutMs.path t).elim (direct.timeoutMs = default.timeoutMs) (IsNumberOf direct.timeoutMs)
  embeddingSize : (at? Field.embeddingSize.path t).elim
    (direct.embeddingCache.maxSize = CacheSettings.embeddingDefault.maxSize) (IsNumberOf direct.embeddingCache.maxSize)
  embeddingTtl : (at? Field.embeddingTtl.path t).elim
    (direct.embeddingCache.ttlSecs = CacheSettings.embeddingDefault.ttlSecs) (IsLimitOf direct.embeddingCache.ttlSecs)
  querySize : (at? Field.querySize.path t).elim
    (direct.queryCache.maxSize = CacheSettings.queryDefault.maxSize) (IsNumberOf direct.queryCache.maxSize)
  queryTtl : ¬OmitsQueryTtl ms → (at? Field.queryTtl.path t).elim
    (direct.queryCache.ttlSecs = CacheSettings.queryDefault.ttlSecs) (IsLimitOf direct.queryCache.ttlSecs)
  queryTtl_omitted : OmitsQueryTtl ms → at? Field.queryTtl.path t = none ∧ direct.queryCache.ttlSecs = none
  indexTtl : (at? Field.indexTtl.path t).elim (direct.indexTtlSecs = default.indexTtlSecs)
    (IsNumberOf direct.indexTtlSecs)
  threshold : (at? Field.threshold.path t).elim (direct.semanticThreshold = defaultThreshold)
    (IsThresholdOf direct.semanticThreshold)
  defaultLimit : (at? Field.defaultLimit.path t).elim (direct.defaultLimit = default.defaultLimit)
    (IsNumberOf direct.defaultLimit)

theorem Documented.carries (H : Documented ms) {direct : Settings}
    (h : decoder (.object (Draft.named ms) .closed) = .ok direct)
    (hes : Tree.ofMembers? room (Draft.named ms) [] = some es) : Carries ms direct (.table es) := by
  obtain ⟨hms, hlog, htimeout, hembedding, hquery, hindex, hthreshold, hlimit⟩ := decoder_eq_ok H h
  obtain ⟨hembeddingSize, hembeddingTtl⟩ := H.cache_cases hms hes (f := .embeddingSize) (g := .embeddingTtl) rfl rfl
    (by intro g; cases g <;> decide) hembedding
  obtain ⟨hquerySize, hqueryTtl⟩ := H.cache_cases hms hes (f := .querySize) (g := .queryTtl) rfl rfl
    (by intro g; cases g <;> decide) hquery
  refine ⟨?_, ?_, hembeddingSize, ?_, hquerySize, ?_, ?_, ?_, ?_, ?_⟩
  · rw [Field.path, at?_singleton]
    exact agrees_text.lookup hms hes hlog
  · exact (agrees_natural "u64").at? H hms hes rfl (by intro g; cases g <;> decide) htimeout
  · rcases hembeddingTtl with ⟨-, hnone, hc⟩ | ⟨ms', -, httl, -⟩
    · rw [hnone, hc]
      rfl
    · exact httl
  · intro homits
    rcases hqueryTtl with ⟨-, hnone, hc⟩ | ⟨ms', hx, httl, hnone⟩
    · rw [hnone, hc]
      rfl
    · cases hv : at? Field.queryTtl.path (.table es) with
      | none => exact absurd ⟨ms', hx, hnone.1 hv⟩ homits
      | some v =>
        rw [hv] at httl
        exact httl
  · rintro ⟨ms', hx, hnone⟩
    rcases hqueryTtl with ⟨hx', -⟩ | ⟨ms'', hx', httl, hnone'⟩
    · cases hx.symm.trans hx'
    · have hobject := Option.some.inj (hx.symm.trans hx')
      injection hobject with hnamed
      have hnone := hnone'.2 (named_injective hnamed ▸ hnone)
      rw [hnone] at httl
      exact ⟨hnone, httl⟩
  · exact (agrees_natural "u64").at? H hms hes rfl (by intro g; cases g <;> decide) hindex
  · exact agrees_binary32.at? H hms hes rfl (by intro g; cases g <;> decide) hthreshold
  · exact (agrees_natural "usize").at? H hms hes rfl (by intro g; cases g <;> decide) hlimit

/-- The sizes and the times of the settings fit in 64 bits with a sign. -/
structure Narrow (s : Settings) : Prop where
  timeoutMs : s.timeoutMs < Width.signedBound
  embeddingSize : s.embeddingCache.maxSize < Width.signedBound
  embeddingTtl : ∀ n ∈ s.embeddingCache.ttlSecs, n < Width.signedBound
  querySize : s.queryCache.maxSize < Width.signedBound
  queryTtl : ∀ n ∈ s.queryCache.ttlSecs, n < Width.signedBound
  indexTtl : s.indexTtlSecs < Width.signedBound
  defaultLimit : s.defaultLimit < Width.signedBound

theorem isCount_of_isNumberOf {n : ℕ} (hn : n < Width.signedBound) (H : IsNumberOf n v) : v.IsCount := ⟨n, hn, H hn⟩

theorem accepts_of_isLimitOf {o : Option ℕ} (ho : ∀ n ∈ o, n < Width.signedBound) (H : IsLimitOf o v) :
    v = .null ∨ v.IsCount := by
  cases o with
  | none => exact .inl H
  | some n => exact .inr (isCount_of_isNumberOf (ho n rfl) H)

theorem word_of_isWordOf {s : String} (H : IsWordOf s v) : v.word = s := by
  rw [show v = .text s from H]
  rfl

theorem count_of_isNumberOf {n : ℕ} (hn : n < Width.signedBound) (H : IsNumberOf n v) : v.count = n := by
  rw [H hn]
  rfl

theorem limit_of_isLimitOf {o : Option ℕ} (ho : ∀ n ∈ o, n < Width.signedBound) (H : IsLimitOf o v) :
    v.limit = o := by
  cases o with
  | none =>
    rw [show v = .null from H]
    rfl
  | some n =>
    rw [show v = .int n from H (ho n rfl)]
    rfl

theorem getD_map_of_elim {o : Option Tree} {value : Tree → α} (h : o.elim (a = d) (rel a))
    (hvalue : ∀ v, o = some v → rel a v → value v = a) : (o.map value).getD d = a := by
  cases o with
  | none => exact h.symm
  | some v => exact hvalue v rfl h

theorem of_elim_some {o : Option Tree} {p : Prop} {q : Tree → Prop} (h : o.elim p q) (hv : o = some v) : q v := by
  subst hv
  exact h

namespace Carries

variable {direct : Settings} {t : Tree} (H : Carries ms direct t) (hnarrow : direct.Narrow)
include H hnarrow

theorem accepts (f : Field) (v : Tree) (hv : at? f.path t = some v) : f.Accepts v := by
  cases f with
  | logLevel =>
    have hword : IsWordOf _ v := of_elim_some H.logLevel hv
    exact ⟨_, hword⟩
  | timeoutMs => exact isCount_of_isNumberOf hnarrow.timeoutMs (of_elim_some H.timeoutMs hv)
  | embeddingSize => exact isCount_of_isNumberOf hnarrow.embeddingSize (of_elim_some H.embeddingSize hv)
  | embeddingTtl => exact accepts_of_isLimitOf hnarrow.embeddingTtl (of_elim_some H.embeddingTtl hv)
  | querySize => exact isCount_of_isNumberOf hnarrow.querySize (of_elim_some H.querySize hv)
  | queryTtl =>
    by_cases homits : OmitsQueryTtl ms
    · cases hv.symm.trans (H.queryTtl_omitted homits).1
    · exact accepts_of_isLimitOf hnarrow.queryTtl (of_elim_some (H.queryTtl homits) hv)
  | indexTtl => exact isCount_of_isNumberOf hnarrow.indexTtl (of_elim_some H.indexTtl hv)
  | threshold => exact (of_elim_some H.threshold hv).1
  | defaultLimit => exact isCount_of_isNumberOf hnarrow.defaultLimit (of_elim_some H.defaultLimit hv)

/-- Read with the defaults of loading, the tree stands for the settings, except for the time limit of the query
cache. -/
theorem settingsOf_eq (hrange : thresholdInRange (settingsOf fun f => at? f.path t).semanticThreshold = true) :
    (settingsOf fun f => at? f.path t) = { direct with
      queryCache := ⟨direct.queryCache.maxSize,
        ((at? Field.queryTtl.path t).map Tree.limit).getD CacheSettings.queryDefault.ttlSecs⟩ } := by
  have hlog := getD_map_of_elim H.logLevel fun v _ => word_of_isWordOf
  have htimeout := getD_map_of_elim H.timeoutMs fun v _ => count_of_isNumberOf hnarrow.timeoutMs
  have hembeddingSize := getD_map_of_elim H.embeddingSize fun v _ => count_of_isNumberOf hnarrow.embeddingSize
  have hembeddingTtl := getD_map_of_elim H.embeddingTtl fun v _ => limit_of_isLimitOf hnarrow.embeddingTtl
  have hquerySize := getD_map_of_elim H.querySize fun v _ => count_of_isNumberOf hnarrow.querySize
  have hindex := getD_map_of_elim H.indexTtl fun v _ => count_of_isNumberOf hnarrow.indexTtl
  have hlimit := getD_map_of_elim H.defaultLimit fun v _ => count_of_isNumberOf hnarrow.defaultLimit
  have hthreshold := getD_map_of_elim H.threshold fun v hv hthreshold => hthreshold.2 (by
    rwa [settingsOf, hv] at hrange)
  rw [settingsOf, hlog, htimeout, hembeddingSize, hembeddingTtl, hquerySize, hindex, hlimit]
  exact congrArg (fun x => Settings.mk _ _ _ _ _ x _) hthreshold

theorem settingsOf_eq_direct (hrange : thresholdInRange (settingsOf fun f => at? f.path t).semanticThreshold = true)
    (homits : ¬OmitsQueryTtl ms) : (settingsOf fun f => at? f.path t) = direct := by
  rw [H.settingsOf_eq hnarrow hrange,
    getD_map_of_elim (H.queryTtl homits) fun v _ => limit_of_isLimitOf hnarrow.queryTtl]

end Carries

theorem thresholdInRange_of_invalid? {s : Settings} (h : s.invalid? = none) :
    thresholdInRange s.semanticThreshold = true := by
  rw [invalid?] at h
  split at h
  · cases h
  · have h := (Option.or_eq_none_iff.1 (Option.or_eq_none_iff.1 h).2).2
    split at h
    · cases h
    · simpa using ‹¬(!thresholdInRange s.semanticThreshold) = true›

/-- What a document is decoded to. -/
theorem decoder_of_ofBytes? {text : String} {d : Draft} {direct : Settings}
    (htext : Draft.ofTokens (tokens (Source.ofText text)) = (d, [])) (h : ofBytes? text.toUTF8 = .ok direct) :
    decoder d = .ok direct := by
  rw [ofBytes?, decode, Source.ofBytes_toUTF8, htext] at h
  dsimp only at h
  obtain ⟨v, hv, h⟩ := bind_eq_ok h
  rw [hv]
  exact h

theorem IsEntry.isPlain {e : String × Tree} (H : IsEntry e) : Plain e.1 :=
  ⟨H.plain.2, fun h => absurd h H.plain.1⟩

/-- Over nothing, a document is laid as it is. -/
theorem Shaped.at?_layAll (H : Shaped es) (f : Field) :
    at? f.path (Tree.layAll es (.table [])) = at? f.path (.table es) ∧ Fits f.path (Tree.layAll es (.table [])) := by
  have hflat : ∀ n ∈ es.map (·.1), Flat n := by
    refine List.forall_mem_map.2 fun e he => ?_
    obtain ⟨hdot, hbracket⟩ := (H.entries e he).plain
    exact flat_of_not_mem hdot hbracket
  have hempty : at? f.path (.table []) = none := by cases f <;> rfl
  have hempty' : Fits f.path (.table []) := by cases f <;> exact fun _ h => nomatch h
  have hfits := H.fits f
  obtain ⟨n, path, hpath⟩ := exists_path_cons f
  rw [Tree.layAll_eq_mergeAll hflat]
  rw [hpath] at hempty hempty' hfits ⊢
  obtain ⟨hat, hfits'⟩ := Tree.at?_mergeAll H.tidy rfl hfits (.table [])
  exact ⟨hat.trans (by rw [hempty, Option.or_none]), hfits' hempty'⟩

theorem layers?_document {name : String} (hname : extension name = ['j', 's', 'o', 'n']) (text : String) :
    Sources.layers? ⟨none, some ⟨name, some text⟩, []⟩ = (Tree.ofDocument? text).map fun es => [[], es, []] := by
  have hlayer : NamedFile.layer? ⟨name, some text⟩ = Tree.ofDocument? text := by
    simp [NamedFile.layer?, hname]
  simp only [Sources.layers?, hlayer, bind, Option.bind_some]
  cases Tree.ofDocument? text <;> rfl

/-- The tree of a document is that of its members. -/
theorem ofMembers?_of_ofDocument? {text : String}
    (htext : Draft.ofTokens (tokens (Source.ofText text)) = (.object (Draft.named ms) .closed, []))
    (h : Tree.ofDocument? text = some es) : ∃ room, Tree.ofMembers? room (Draft.named ms) [] = some es := by
  rw [Tree.ofDocument?, htext] at h
  dsimp only at h
  split at h
  · rename_i es' hdraft _
    cases h
    obtain ⟨room, es', htable, hes⟩ := ofDraft?_object hdraft
    cases htable
    exact ⟨room, hes⟩
  · cases h

/-- From a document alone the settings are loaded that its tree has, if they are usable. -/
theorem load_document {text name : String} (hdoc : Documented ms)
    (htext : Draft.ofTokens (tokens (Source.ofText text)) = (.object (Draft.named ms) .closed, []))
    (hname : extension name = ['j', 's', 'o', 'n']) {direct loaded : Settings} (hnarrow : direct.Narrow)
    (hdirect : decoder (.object (Draft.named ms) .closed) = .ok direct)
    (hload : load ⟨none, some ⟨name, some text⟩, []⟩ = .ok loaded) :
    ∃ t, Carries ms direct t ∧ loaded = (settingsOf fun f => at? f.path t) ∧ loaded.invalid? = none := by
  have hlayers := layers?_document hname text
  cases hdocument : Tree.ofDocument? text with
  | none =>
    rw [hdocument] at hlayers
    rw [load, Sources.tree?, hlayers] at hload
    cases hload
  | some es =>
    rw [hdocument] at hlayers
    obtain ⟨room, hes⟩ := ofMembers?_of_ofDocument? htext hdocument
    have hshaped := hdoc.shaped hes
    have hcarries := hdoc.carries hdirect hes
    have hplain : ∀ layer ∈ [[], es, []], ∀ e ∈ layer, Plain e.1 := by
      intro layer hlayer e he
      simp only [List.mem_cons, List.not_mem_nil, or_false] at hlayer
      rcases hlayer with rfl | rfl | rfl
      · cases he
      · exact (hshaped.entries e he).isPlain
      · cases he
    have hresult := load_of_tree hlayers hplain rfl (fun f => (hshaped.at?_layAll f).1)
      (fun f => (hshaped.at?_layAll f).2) (hcarries.accepts hnarrow)
    rw [hload] at hresult
    split at hresult
    · cases hresult
    · rename_i husable
      cases hresult
      exact ⟨.table es, hcarries, rfl, husable⟩

/-- Settings that are decoded from a document are the ones that are loaded from it, except that loading gives a time
limit to a query cache that has a section without one. -/
theorem load_eq_decoded {text name : String} (hdoc : Documented ms)
    (htext : Draft.ofTokens (tokens (Source.ofText text)) = (.object (Draft.named ms) .closed, []))
    (hname : extension name = ['j', 's', 'o', 'n']) {direct loaded : Settings}
    (hdirect : ofBytes? text.toUTF8 = .ok direct) (hnarrow : direct.Narrow)
    (hload : load ⟨none, some ⟨name, some text⟩, []⟩ = .ok loaded) :
    (¬OmitsQueryTtl ms → loaded = direct) ∧
      (OmitsQueryTtl ms → direct.queryCache.ttlSecs = none ∧
        loaded = { direct with queryCache := ⟨direct.queryCache.maxSize, some 300⟩ }) := by
  have hdecoder := decoder_of_ofBytes? htext hdirect
  obtain ⟨t, hcarries, rfl, husable⟩ := load_document hdoc htext hname hnarrow hdecoder hload
  have hrange := thresholdInRange_of_invalid? husable
  refine ⟨hcarries.settingsOf_eq_direct hnarrow hrange, fun homits => ?_⟩
  obtain ⟨hnone, httl⟩ := hcarries.queryTtl_omitted homits
  refine ⟨httl, ?_⟩
  rw [hcarries.settingsOf_eq hnarrow hrange, hnone]
  rfl

/-- A document with a time limit for the query cache. -/
def limitedDocument : String :=
  "\x7b\"query_cache\": \x7b\"max_size\": 50, \"ttl_secs\": 60\x7d, " ++
    "\"areas\": \x7b\"semantic_threshold\": 1\x7d\x7d"

def limitedMembers : List (String × Draft) := [
  ("query_cache", .object (Draft.named [
    ("max_size", .number ⟨false, [5, 0], none, none⟩), ("ttl_secs", .number ⟨false, [6, 0], none, none⟩)]) .closed),
  ("areas", .object (Draft.named [("semantic_threshold", .number ⟨false, [1], none, none⟩)]) .closed)]

theorem ofTokens_limitedDocument :
    Draft.ofTokens (tokens (Source.ofText limitedDocument)) = (.object (Draft.named limitedMembers) .closed, []) := by
  cbv

theorem load_eq_decoded_limited :
    let direct : Settings := ⟨"info", 2000, ⟨1000, none⟩, ⟨50, some 60⟩, 3600, .one, 5⟩
    Documented limitedMembers ∧ ofBytes? limitedDocument.toUTF8 = .ok direct ∧ direct.Narrow ∧
      load ⟨none, some ⟨"settings.json", some limitedDocument⟩, []⟩ = .ok direct := by
  intro direct
  have hdoc : Documented limitedMembers := by
    refine List.forall_mem_cons.2 ⟨.inr ⟨⟨.querySize, "max_size", rfl⟩, _, rfl, ?_⟩,
      List.forall_mem_singleton.2 (.inr ⟨⟨.threshold, "semantic_threshold", rfl⟩, _, rfl, ?_⟩)⟩
    · exact List.forall_mem_cons.2 ⟨⟨⟨.querySize, rfl⟩, trivial⟩,
        List.forall_mem_singleton.2 ⟨⟨.queryTtl, rfl⟩, trivial⟩⟩
    · exact List.forall_mem_singleton.2 ⟨⟨.threshold, rfl⟩, trivial⟩
  have hdirect : ofBytes? limitedDocument.toUTF8 = .ok direct := by
    rw [ofBytes?, decode, Source.ofBytes_toUTF8, ofTokens_limitedDocument]
    rfl
  have hnarrow : direct.Narrow := by
    constructor <;> decide
  have hload : load ⟨none, some ⟨"settings.json", some limitedDocument⟩, []⟩ =
      .ok ⟨"info", 2000, ⟨1000, none⟩, ⟨50, some 60⟩, 3600, .one, 5⟩ := by
    decide +kernel
  have hlimited := (load_eq_decoded hdoc ofTokens_limitedDocument (by decide) hdirect hnarrow hload).1 (by
    rintro ⟨ms', hlookup, hnone⟩
    injection Option.some.inj hlookup with hnamed
    rw [← named_injective hnamed] at hnone
    cases hnone)
  exact ⟨hdoc, hdirect, hnarrow, hlimited ▸ hload⟩

/-- A document without a time limit for the query cache. -/
def unlimitedDocument : String := "\x7b\"query_cache\": \x7b\"max_size\": 50\x7d\x7d"

def unlimitedMembers : List (String × Draft) :=
  [("query_cache", .object (Draft.named [("max_size", .number ⟨false, [5, 0], none, none⟩)]) .closed)]

/-- Without a time limit in its section the query cache has none, or it has the default. -/
theorem load_ne_decoded :
    Draft.ofTokens (tokens (Source.ofText unlimitedDocument)) =
        (.object (Draft.named unlimitedMembers) .closed, []) ∧ Documented unlimitedMembers ∧
      ofBytes? unlimitedDocument.toUTF8 = .ok ⟨"info", 2000, ⟨1000, none⟩, ⟨50, none⟩, 3600, defaultThreshold, 5⟩ ∧
      load ⟨none, some ⟨"settings.json", some unlimitedDocument⟩, []⟩ =
        .ok ⟨"info", 2000, ⟨1000, none⟩, ⟨50, some 300⟩, 3600, defaultThreshold, 5⟩ := by
  have hmembers : Draft.ofTokens (tokens (Source.ofText unlimitedDocument)) =
      (.object (Draft.named unlimitedMembers) .closed, []) := by
    cbv
  refine ⟨hmembers, ?_, ?_, by decide +kernel⟩
  · exact List.forall_mem_singleton.2 (.inr ⟨⟨.querySize, "max_size", rfl⟩, _, rfl,
      List.forall_mem_singleton.2 ⟨⟨.querySize, rfl⟩, trivial⟩⟩)
  · rw [ofBytes?, decode, Source.ofBytes_toUTF8, hmembers]
    rfl

end DeviceNaming.Settings
