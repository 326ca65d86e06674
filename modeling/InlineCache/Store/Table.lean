namespace InlineCache

/-- An append-only table: rows are numbered from one in the order in which they were added, and a row's
number never changes. -/
structure Table (α : Type) where
  rows : Array α
deriving Inhabited

namespace Table

variable {α : Type}

def empty : Table α := ⟨#[]⟩

def size (t : Table α) : Nat := t.rows.size

/-- The number of the next row to be added. -/
def next (t : Table α) : Nat := t.rows.size + 1

def add (t : Table α) (a : α) : Table α := ⟨t.rows.push a⟩

/-- Row numbers start at one, so there is no row zero. -/
def get? (t : Table α) : Nat → Option α
  | 0 => none
  | n + 1 => t.rows[n]?

/-- A row, or a default row where there is none. -/
def get [Inhabited α] (t : Table α) (n : Nat) : α := (t.get? n).getD default

def modify (t : Table α) (n : Nat) (f : α → α) : Table α :=
  match n with
  | 0 => t
  | n + 1 => ⟨t.rows.modify n f⟩

theorem get?_add_next (t : Table α) (a : α) : (t.add a).get? t.next = some a := by
  simp [add, next, get?]

theorem get?_next (t : Table α) : t.get? t.next = none := by
  simp [next, get?]

/-- The rows are those from one up to the size. -/
theorem isSome_get?_iff (t : Table α) {n : Nat} : (t.get? n).isSome = true ↔ 0 < n ∧ n ≤ t.size := by
  cases n with
  | zero => simp [get?]
  | succ n =>
    have hrow : t.rows[n]?.isSome = true ↔ n < t.rows.size := by simp
    exact hrow.trans ⟨fun hlt => ⟨Nat.succ_pos n, hlt⟩, fun hle => hle.2⟩

theorem get?_add_of_ne (t : Table α) (a : α) {n : Nat} (h : n ≠ t.next) :
    (t.add a).get? n = t.get? n := by
  cases n with
  | zero => rfl
  | succ n =>
    have hn : n ≠ t.rows.size := fun h' => h (by rw [h', next])
    simp [add, get?, Array.getElem?_push, hn]

theorem get?_modify_self (t : Table α) (n : Nat) (f : α → α) :
    (t.modify n f).get? n = (t.get? n).map f := by
  cases n with
  | zero => rfl
  | succ n => simp [modify, get?, Array.getElem?_modify]

theorem get?_modify_of_ne (t : Table α) {n k : Nat} (f : α → α) (h : k ≠ n) :
    (t.modify n f).get? k = t.get? k := by
  cases n with
  | zero => rfl
  | succ n =>
    cases k with
    | zero => rfl
    | succ k =>
      have hk : ¬ n = k := fun h' => h (by rw [h'])
      simp [modify, get?, Array.getElem?_modify, hk]

theorem modify_modify (t : Table α) (n : Nat) (f g : α → α) :
    (t.modify n f).modify n g = t.modify n (g ∘ f) := by
  cases n with
  | zero => rfl
  | succ n =>
    simp only [modify, mk.injEq]
    apply Array.ext_getElem?
    intro i
    simp only [Array.getElem?_modify]
    split <;> simp [Option.map_map]

/-- A change of a row hangs only on what it makes of that row. -/
theorem modify_congr (t : Table α) {n : Nat} {f g : α → α} (h : ∀ a, t.get? n = some a → f a = g a) :
    t.modify n f = t.modify n g := by
  cases n with
  | zero => rfl
  | succ n =>
    simp only [modify, mk.injEq]
    apply Array.ext_getElem?
    intro i
    simp only [Array.getElem?_modify]
    split
    · next hi =>
      subst hi
      exact Option.map_congr fun a ha => h a ha
    · rfl

theorem modify_self (t : Table α) {n : Nat} {f : α → α} (h : ∀ a, t.get? n = some a → f a = a) :
    t.modify n f = t := by
  cases n with
  | zero => rfl
  | succ n =>
    have hrows : t.rows.modify n f = t.rows := by
      apply Array.ext_getElem?
      intro i
      rw [Array.getElem?_modify]
      split
      · next hi =>
        subst hi
        cases hrow : t.rows[n]? with
        | none => rfl
        | some a => rw [Option.map_some, h a hrow]
      · rfl
    rw [modify, hrows]

theorem size_modify (t : Table α) (n : Nat) (f : α → α) : (t.modify n f).size = t.size := by
  cases n <;> simp [modify, size]

@[simp] theorem size_add (t : Table α) (a : α) : (t.add a).size = t.size + 1 := by
  simp [add, size]

section

variable [Inhabited α]

theorem get_add_next (t : Table α) (a : α) : (t.add a).get t.next = a := by
  rw [get, get?_add_next, Option.getD_some]

theorem get_add_of_le (t : Table α) (a : α) {n : Nat} (h : n ≤ t.size) :
    (t.add a).get n = t.get n := by
  rw [get, get?_add_of_ne _ _ (Nat.ne_of_lt (Nat.lt_succ_of_le h)), get]

/-- A row after another one was added is the row of before or the new one. -/
theorem get_add_cases (t : Table α) (a : α) (n : Nat) :
    (t.add a).get n = t.get n ∨ n = t.next ∧ (t.add a).get n = a := by
  by_cases h : n = t.next
  · exact .inr ⟨h, by rw [h, get_add_next]⟩
  · exact .inl (by rw [get, get?_add_of_ne _ _ h, get])

theorem get_of_size_lt (t : Table α) {n : Nat} (h : t.size < n) : t.get n = default := by
  cases n with
  | zero => rfl
  | succ n =>
    have hn : t.rows.size ≤ n := Nat.le_of_lt_succ h
    rw [get, get?, Array.getElem?_eq_none hn, Option.getD_none]

theorem get_modify_of_ne (t : Table α) {n k : Nat} (f : α → α) (h : k ≠ n) :
    (t.modify n f).get k = t.get k := by
  rw [get, get?_modify_of_ne _ _ h, get]

theorem get_modify_self (t : Table α) {n : Nat} (f : α → α) (hpos : 0 < n) (hle : n ≤ t.size) :
    (t.modify n f).get n = f (t.get n) := by
  cases n with
  | zero => exact absurd hpos (Nat.lt_irrefl 0)
  | succ n =>
    have hn : n < t.rows.size := hle
    rw [get, get?_modify_self, get, get?, Array.getElem?_eq_getElem hn]
    rfl

/-- A row after a change is the row of before, or what the change makes of it. -/
theorem get_modify_cases (t : Table α) (n : Nat) (f : α → α) (k : Nat) :
    (t.modify n f).get k = t.get k ∨ (t.modify n f).get k = f (t.get k) := by
  by_cases h : k = n
  · subst h
    rw [get, get?_modify_self, get]
    cases t.get? k with
    | none => exact .inl rfl
    | some a => exact .inr rfl
  · exact .inl (get_modify_of_ne t f h)

end

end Table

end InlineCache
