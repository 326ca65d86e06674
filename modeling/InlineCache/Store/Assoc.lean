namespace InlineCache

/-- A finite map in insertion order: a key keeps its place when its value is replaced. -/
structure Assoc (κ α : Type) where
  entries : List (κ × α)
deriving Inhabited

namespace Assoc

variable {κ α : Type} [DecidableEq κ]

def empty : Assoc κ α := ⟨[]⟩

def size (m : Assoc κ α) : Nat := m.entries.length

/-- The value of a key in a list of pairs, the first one if there are several. -/
def lookup : List (κ × α) → κ → Option α
  | [], _ => none
  | (k, v) :: rest, key => if k = key then some v else lookup rest key

/-- The pairs with the value of a key replaced, or a new pair at the end. -/
def store : List (κ × α) → κ → α → List (κ × α)
  | [], key, v => [(key, v)]
  | (k, w) :: rest, key, v => if k = key then (k, v) :: rest else (k, w) :: store rest key v

def find? (m : Assoc κ α) (key : κ) : Option α := lookup m.entries key

def contains (m : Assoc κ α) (key : κ) : Bool := (m.find? key).isSome

def set (m : Assoc κ α) (key : κ) (v : α) : Assoc κ α := ⟨store m.entries key v⟩

def erase (m : Assoc κ α) (key : κ) : Assoc κ α := ⟨m.entries.filter (·.1 ≠ key)⟩

/-- The map with these pairs, of which later ones replace earlier ones. -/
def ofList (pairs : List (κ × α)) : Assoc κ α := pairs.foldl (fun m p => m.set p.1 p.2) empty

@[simp] theorem find?_empty (key : κ) : (empty : Assoc κ α).find? key = none := rfl

@[simp] theorem find?_set_self (m : Assoc κ α) (key : κ) (v : α) :
    (m.set key v).find? key = some v := by
  obtain ⟨l⟩ := m
  simp only [find?, set]
  induction l with
  | nil => simp [store, lookup]
  | cons p rest ih =>
    obtain ⟨k, w⟩ := p
    by_cases h : k = key <;> simp [store, lookup, h, ih]

theorem find?_set_of_ne (m : Assoc κ α) {key other : κ} (v : α) (h : other ≠ key) :
    (m.set key v).find? other = m.find? other := by
  obtain ⟨l⟩ := m
  simp only [find?, set]
  induction l with
  | nil => simp [store, lookup, h.symm]
  | cons p rest ih =>
    obtain ⟨k, w⟩ := p
    by_cases hk : k = key
    · subst hk; simp [store, lookup, h.symm]
    · simp only [store, if_neg hk, lookup, ih]

private theorem lookup_filter (l : List (κ × α)) (p : κ → Bool) (key : κ) :
    lookup (l.filter fun e => p e.1) key = if p key then lookup l key else none := by
  induction l with
  | nil => simp [lookup]
  | cons e rest ih =>
    obtain ⟨k, v⟩ := e
    by_cases hk : k = key
    · subst hk
      cases hp : p k <;> simp [lookup, hp, ih]
    · cases hp : p k <;> simp [lookup, hp, hk, ih]

@[simp] theorem find?_erase_self (m : Assoc κ α) (key : κ) : (m.erase key).find? key = none := by
  exact (lookup_filter m.entries (fun k => decide (k ≠ key)) key).trans (by simp)

theorem find?_erase_of_ne (m : Assoc κ α) {key other : κ} (h : other ≠ key) :
    (m.erase key).find? other = m.find? other := by
  exact (lookup_filter m.entries (fun k => decide (k ≠ key)) other).trans (by simp [h, find?])

theorem set_set (m : Assoc κ α) (key : κ) (v w : α) : (m.set key v).set key w = m.set key w := by
  obtain ⟨l⟩ := m
  simp only [set, mk.injEq]
  induction l with
  | nil => simp [store]
  | cons p rest ih =>
    obtain ⟨k, u⟩ := p
    by_cases h : k = key <;> simp [store, h, ih]

/-- Storing the value that is there changes nothing. -/
theorem set_of_find? (m : Assoc κ α) {key : κ} {v : α} (h : m.find? key = some v) : m.set key v = m := by
  obtain ⟨l⟩ := m
  simp only [find?] at h
  simp only [set, mk.injEq]
  induction l with
  | nil => cases h
  | cons p rest ih =>
    obtain ⟨k, w⟩ := p
    by_cases hk : k = key
    · simp only [lookup, if_pos hk, Option.some.injEq] at h
      simp [store, hk, h]
    · simp only [lookup, if_neg hk] at h
      simp only [store, if_neg hk, ih h]

/-- A key that is new takes a place of its own. -/
theorem size_set_of_find?_none {m : Assoc κ α} {key : κ} (h : m.find? key = none) (v : α) :
    (m.set key v).size = m.size + 1 := by
  obtain ⟨l⟩ := m
  simp only [find?] at h
  simp only [size, set]
  induction l with
  | nil => simp [store]
  | cons p rest ih =>
    obtain ⟨k, w⟩ := p
    by_cases hk : k = key
    · simp [lookup, hk] at h
    · simp only [lookup, if_neg hk] at h
      simp only [store, if_neg hk, List.length_cons, ih h]

/-- The keys of the pairs are those that have a value. -/
theorem mem_keys_iff (m : Assoc κ α) (key : κ) :
    key ∈ m.entries.map (·.1) ↔ (m.find? key).isSome = true := by
  obtain ⟨l⟩ := m
  simp only [find?]
  induction l with
  | nil => simp [lookup]
  | cons p rest ih =>
    obtain ⟨k, w⟩ := p
    by_cases hk : k = key
    · simp [lookup, hk]
    · simp [lookup, hk, Ne.symm hk, ← ih]

/-- No key occurs twice. -/
def Keyed (m : Assoc κ α) : Prop := (m.entries.map (·.1)).Nodup

omit [DecidableEq κ] in
theorem keyed_empty : (empty : Assoc κ α).Keyed := List.nodup_nil

private theorem mem_keys_store {l : List (κ × α)} {key k : κ} {v : α}
    (h : k ∈ (store l key v).map (·.1)) : k = key ∨ k ∈ l.map (·.1) := by
  induction l with
  | nil => simpa [store] using h
  | cons p rest ih =>
    obtain ⟨k', w⟩ := p
    by_cases hk : k' = key
    · simp only [store, if_pos hk, List.map_cons, List.mem_cons] at h ⊢
      exact .inr h
    · simp only [store, if_neg hk, List.map_cons, List.mem_cons] at h ⊢
      rcases h with rfl | h
      · exact .inr (.inl rfl)
      · exact (ih h).imp_right .inr

theorem Keyed.set {m : Assoc κ α} (h : m.Keyed) (key : κ) (v : α) : (m.set key v).Keyed := by
  obtain ⟨l⟩ := m
  simp only [Keyed, Assoc.set] at h ⊢
  induction l with
  | nil => simp [store]
  | cons p rest ih =>
    obtain ⟨k, w⟩ := p
    obtain ⟨hnot, hrest⟩ := List.nodup_cons.1 h
    by_cases hk : k = key
    · simp only [store, if_pos hk]
      exact h
    · simp only [store, if_neg hk, List.map_cons]
      refine List.nodup_cons.2 ⟨fun hmem => ?_, ih hrest⟩
      exact (mem_keys_store hmem).elim hk hnot

/-- The pairs of a map without repeated keys are its keys with their values. -/
theorem Keyed.mem_iff {m : Assoc κ α} (h : m.Keyed) {key : κ} {v : α} :
    (key, v) ∈ m.entries ↔ m.find? key = some v := by
  obtain ⟨l⟩ := m
  simp only [Keyed, find?] at h ⊢
  induction l with
  | nil => simp [lookup]
  | cons p rest ih =>
    obtain ⟨k, w⟩ := p
    obtain ⟨hnot, hrest⟩ := List.nodup_cons.1 h
    by_cases hk : k = key
    · subst hk
      have hmem : (k, v) ∉ rest := fun hmem => hnot (List.mem_map_of_mem (f := (·.1)) hmem)
      simp [lookup, hmem, eq_comm]
    · simp [lookup, hk, Ne.symm hk, ih hrest]

end Assoc

end InlineCache
