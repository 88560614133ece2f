/-!
# Rosters

A roster is a map: it keeps values under distinct keys. Writing to a key that is present changes its value and not
its place, and a key that was erased goes to the end when it comes back; who needs an order to rely on keeps a list
of keys beside the roster. `Postings` are rosters of lists of ids, none of them empty: who bears a name, who lies in
an area.

Main facts: `find?_put` and `find?_erase` say what is found after a change, `keys_put` and `keys_erase` where;
`mem_ids_link` and `mem_ids_unlink` are the same for the ids of postings.
-/

namespace DeviceNaming

/-- Values under keys, in the order in which the keys arrived. -/
structure Roster (α : Type) where
  items : List (String × α)
deriving Repr, DecidableEq

namespace Roster

variable {α : Type}

def empty : Roster α := ⟨[]⟩

def find? (r : Roster α) (key : String) : Option α := r.items.lookup key

def contains (r : Roster α) (key : String) : Bool := (r.find? key).isSome

/-- The keys in order of arrival. -/
def keys (r : Roster α) : List String := r.items.map (·.1)

/-- The values in order of arrival of their keys. -/
def values (r : Roster α) : List α := r.items.map (·.2)

def size (r : Roster α) : Nat := r.items.length

/-- Writes a value in the place of its key, or at the end. -/
def putItems (key : String) (v : α) : List (String × α) → List (String × α)
  | [] => [(key, v)]
  | (k, w) :: rest => if k = key then (k, v) :: rest else (k, w) :: putItems key v rest

def put (r : Roster α) (key : String) (v : α) : Roster α := ⟨putItems key v r.items⟩

def erase (r : Roster α) (key : String) : Roster α := ⟨r.items.filter fun p => p.1 ≠ key⟩

@[simp] theorem find?_empty (k : String) : (empty : Roster α).find? k = none := rfl

theorem lookup_cons_ite (k j : String) (w : α) (rest : List (String × α)) :
    ((j, w) :: rest).lookup k = if k = j then some w else rest.lookup k := by
  by_cases h : k = j
  · simp [h]
  · have hb : (k == j) = false := beq_eq_false_iff_ne.2 h
    simp [List.lookup_cons, hb, h]

theorem lookup_putItems (key : String) (v : α) (items : List (String × α)) (k : String) :
    (putItems key v items).lookup k = if k = key then some v else items.lookup k := by
  induction items with
  | nil => simp [putItems, lookup_cons_ite]
  | cons p rest ih =>
    obtain ⟨j, w⟩ := p
    by_cases hj : j = key
    · subst hj
      by_cases h : k = j <;> simp [putItems, lookup_cons_ite, h]
    · by_cases h : k = j
      · subst h
        simp [putItems, hj]
      · simp [putItems, lookup_cons_ite, hj, h, ih]

@[simp] theorem find?_put (r : Roster α) (key : String) (v : α) (k : String) :
    (r.put key v).find? k = if k = key then some v else r.find? k :=
  lookup_putItems key v r.items k

theorem map_fst_putItems (key : String) (v : α) (items : List (String × α)) :
    (putItems key v items).map (·.1) =
      if key ∈ items.map (·.1) then items.map (·.1) else items.map (·.1) ++ [key] := by
  induction items with
  | nil => simp [putItems]
  | cons p rest ih =>
    obtain ⟨j, w⟩ := p
    by_cases hj : j = key
    · simp [putItems, hj]
    · have hne : key ≠ j := fun h => hj h.symm
      simp only [putItems, if_neg hj, List.map_cons, ih, List.mem_cons, hne, false_or]
      split <;> rfl

/-- A key that is present keeps its place, a new one goes to the end. -/
theorem keys_put (r : Roster α) (key : String) (v : α) :
    (r.put key v).keys = if key ∈ r.keys then r.keys else r.keys ++ [key] :=
  map_fst_putItems key v r.items

@[simp] theorem find?_erase (r : Roster α) (key k : String) :
    (r.erase key).find? k = if k = key then none else r.find? k := by
  obtain ⟨items⟩ := r
  simp only [find?, erase]
  induction items with
  | nil => simp
  | cons p rest ih =>
    obtain ⟨j, w⟩ := p
    by_cases hj : j = key
    · subst hj
      by_cases h : k = j <;> simpa [lookup_cons_ite, h] using ih
    · by_cases h : k = j
      · subst h
        simp [hj]
      · simpa [lookup_cons_ite, hj, h] using ih

theorem keys_erase (r : Roster α) (key : String) :
    (r.erase key).keys = r.keys.filter fun k => k ≠ key := by
  simp [keys, erase, List.filter_map, Function.comp_def]

theorem isSome_find? (r : Roster α) (k : String) : (r.find? k).isSome ↔ k ∈ r.keys := by
  obtain ⟨items⟩ := r
  simp only [find?, keys]
  induction items with
  | nil => simp
  | cons p rest ih =>
    obtain ⟨j, w⟩ := p
    by_cases h : k = j
    · simp [h]
    · simp [lookup_cons_ite, h, ih]

theorem nodup_keys_put {r : Roster α} (h : r.keys.Nodup) (key : String) (v : α) :
    (r.put key v).keys.Nodup := by
  rw [keys_put]
  split
  · exact h
  · rename_i hk
    exact List.nodup_append.2 ⟨h, by simp, fun a ha b hb => by
      rw [List.mem_singleton.1 hb]; exact fun e => hk (e ▸ ha)⟩

theorem nodup_keys_erase {r : Roster α} (h : r.keys.Nodup) (key : String) :
    (r.erase key).keys.Nodup := by
  rw [keys_erase]
  exact h.filter _

end Roster

/-- Lists of ids under keys. -/
abbrev Postings := Roster (List String)

namespace Postings

def ids (p : Postings) (key : String) : List String := (p.find? key).getD []

/-- Adds an id under a key unless it is there. -/
def link (p : Postings) (key id : String) : Postings :=
  if id ∈ p.ids key then p else p.put key (p.ids key ++ [id])

/-- Takes an id away from under a key; a key without ids goes. -/
def unlink (p : Postings) (key id : String) : Postings :=
  match p.find? key with
  | none => p
  | some ids =>
      let left := ids.filter fun x => x ≠ id
      if left.isEmpty then p.erase key else p.put key left

theorem ids_put (p : Postings) (key : String) (xs : List String) (k : String) :
    ids (Roster.put p key xs) k = if k = key then xs else p.ids k := by
  by_cases h : k = key <;> simp [ids, h]

theorem ids_erase (p : Postings) (key k : String) :
    ids (Roster.erase p key) k = if k = key then [] else p.ids k := by
  by_cases h : k = key <;> simp [ids, h]

theorem ids_link (p : Postings) (key id k : String) :
    (p.link key id).ids k =
      if k = key ∧ id ∉ p.ids key then p.ids key ++ [id] else p.ids k := by
  unfold link
  split
  · simp [*]
  · by_cases hk : k = key <;> simp [*, ids_put]

theorem mem_ids_link (p : Postings) (key id k x : String) :
    x ∈ (p.link key id).ids k ↔ x ∈ p.ids k ∨ (k = key ∧ x = id) := by
  rw [ids_link]
  by_cases hk : k = key
  · subst hk
    by_cases hm : id ∈ p.ids k
    · simp only [hm, not_true_eq_false, and_false, ↓reduceIte, true_and]
      exact ⟨.inl, fun h => h.elim (fun h => h) fun h => h ▸ hm⟩
    · simp [hm]
  · simp [hk]

theorem ids_unlink (p : Postings) (key id k : String) :
    (p.unlink key id).ids k =
      if k = key then (p.ids key).filter fun x => x ≠ id else p.ids k := by
  unfold unlink
  split
  · rename_i h
    by_cases hk : k = key <;> simp [ids, h, hk]
  · rename_i found h
    have hf : p.ids key = found := by simp [ids, h]
    rw [hf]
    dsimp only
    split
    · rename_i he
      rw [ids_erase, List.isEmpty_iff.1 he]
    · rw [ids_put]

theorem mem_ids_unlink (p : Postings) (key id k x : String) :
    x ∈ (p.unlink key id).ids k ↔ x ∈ p.ids k ∧ ¬(k = key ∧ x = id) := by
  rw [ids_unlink]
  by_cases hk : k = key
  · subst hk
    simp
  · simp [hk]

end Postings

end DeviceNaming
