import InlineCache.Bytecode.CodeUnit

namespace InlineCache.CodeUnit.Draft

/-- A call that builds a unit. -/
inductive Call where
  | name (name : String)
  | function (argCount : UInt16)
  | locals (count : UInt16)
  | intern (name : String)
  | emit (opcode : Opcode)
  | getProp (name : String)
  | setProp (name : String)

def apply (d : Draft) : Call → Draft
  | .name name => { d with name }
  | .function argCount => d.function argCount
  | .locals count => { d with localCount := count }
  | .intern name => (d.intern name).2
  | .emit opcode => d.emit opcode
  | .getProp name => d.getProp name
  | .setProp name => d.setProp name

/-- The draft after a run of calls. -/
def applyAll (d : Draft) (calls : List Call) : Draft := calls.foldl apply d

variable {d d' d'' : Draft}

theorem applyAll_append (d : Draft) (calls calls' : List Call) :
    d.applyAll (calls ++ calls') = (d.applyAll calls).applyAll calls' := List.foldl_append

/-- What a draft has is there later too, in its place. -/
structure Extends (d d' : Draft) : Prop where
  instruction : ∀ (index : Nat) (opcode : Opcode), d.instructions[index]? = some opcode →
    d'.instructions[index]? = some opcode
  name : ∀ (index : Nat) (name : String), d.names[index]? = some name → d'.names[index]? = some name

theorem Extends.refl (d : Draft) : d.Extends d := ⟨fun _ _ h => h, fun _ _ h => h⟩

theorem Extends.trans (h : d.Extends d') (h' : d'.Extends d'') : d.Extends d'' :=
  ⟨fun index opcode hopcode => h'.instruction index opcode (h.instruction index opcode hopcode),
    fun index name hname => h'.name index name (h.name index name hname)⟩

theorem getElem?_push_of_getElem? {α : Type} {items : Array α} {index : Nat} {item : α} (new : α)
    (hitem : items[index]? = some item) : (items.push new)[index]? = some item := by
  obtain ⟨hlt, rfl⟩ := Array.getElem?_eq_some_iff.1 hitem
  exact Array.getElem?_push_lt hlt

private theorem extends_emit (d : Draft) (opcode : Opcode) : d.Extends (d.emit opcode) :=
  ⟨fun _ _ => getElem?_push_of_getElem? opcode, fun _ _ h => h⟩

private theorem intern_of_notMem {name : String} (hnew : name ∉ d.names) :
    d.intern name = (UInt32.ofNat d.names.size, { d with names := d.names.push name }) := by
  have hnone : d.names.findIdx? (· = name) = none := by
    rw [Array.findIdx?_eq_none_iff]
    exact fun other hother => decide_eq_false fun heq => hnew (heq ▸ hother)
  rw [intern, hnone]

/-- A name that is put into the pool stands where its operand says, up to the width of operands. -/
theorem intern_spec (d : Draft) (name : String) :
    d.Extends (d.intern name).2 ∧ (d.intern name).2.instructions = d.instructions ∧
      ∃ index : Nat, (d.intern name).1 = UInt32.ofNat index ∧ (d.intern name).2.names[index]? = some name := by
  unfold intern
  split
  · next index hfind =>
    obtain ⟨hlt, heq, -⟩ := Array.findIdx?_eq_some_iff_getElem.1 hfind
    refine ⟨.refl d, rfl, index, rfl, ?_⟩
    rw [Array.getElem?_eq_getElem hlt, of_decide_eq_true heq]
  · exact ⟨⟨fun _ _ h => h, fun _ _ => getElem?_push_of_getElem? name⟩, rfl, d.names.size, rfl,
      Array.getElem?_push_size⟩

/-- The read or write of a named property is emitted with an operand for the name. -/
theorem emit_intern_spec (d : Draft) (name : String) (opcode : UInt32 → Opcode) :
    d.Extends ((d.intern name).2.emit (opcode (d.intern name).1)) ∧ ∃ index : Nat,
      ((d.intern name).2.emit (opcode (d.intern name).1)).instructions[d.instructions.size]? =
        some (opcode (UInt32.ofNat index)) ∧
      ((d.intern name).2.emit (opcode (d.intern name).1)).names[index]? = some name := by
  obtain ⟨hextends, hinstructions, index, hindex, hname⟩ := d.intern_spec name
  refine ⟨hextends.trans (extends_emit _ _), index, ?_, hname⟩
  rw [emit, hinstructions, hindex, Array.getElem?_push_size]

private theorem extends_apply (d : Draft) (call : Call) : d.Extends (d.apply call) := by
  cases call with
  | name name => exact ⟨fun _ _ h => h, fun _ _ h => h⟩
  | function argCount => exact ⟨fun _ _ h => h, fun _ _ h => h⟩
  | locals count => exact ⟨fun _ _ h => h, fun _ _ h => h⟩
  | intern name => exact (d.intern_spec name).1
  | emit opcode => exact extends_emit d opcode
  | getProp name => exact (d.emit_intern_spec name .getProp).1
  | setProp name => exact (d.emit_intern_spec name .setProp).1

private theorem extends_applyAll (d : Draft) (calls : List Call) : d.Extends (d.applyAll calls) := by
  induction calls generalizing d with
  | nil => exact .refl d
  | cons call rest ih => exact (d.extends_apply call).trans (ih (d.apply call))

/-- Whatever is called before and after, an instruction that is emitted with a name stands where it was
emitted, and its operand stands for the name if it is wide enough for the pool. -/
theorem instruction_of_apply (call : Call) (name : String) (opcode : UInt32 → Opcode)
    (hcall : ∀ d : Draft, d.apply call = (d.intern name).2.emit (opcode (d.intern name).1))
    (before after : List Call) :
    ∃ index : Nat,
      (empty.applyAll (before ++ call :: after)).instructions[(empty.applyAll before).instructions.size]? =
        some (opcode (UInt32.ofNat index)) ∧
      (empty.applyAll (before ++ call :: after)).names[index]? = some name := by
  obtain ⟨-, index, hopcode, hname⟩ := (empty.applyAll before).emit_intern_spec name opcode
  have hextends := extends_applyAll ((empty.applyAll before).apply call) after
  rw [hcall] at hextends
  have happly : empty.applyAll (before ++ call :: after) =
      ((empty.applyAll before).apply call).applyAll after := by
    rw [applyAll_append]
    rfl
  rw [happly, hcall]
  exact ⟨index, hextends.instruction _ _ hopcode, hextends.name _ _ hname⟩

/-- Names that are put into the pool one after the other stand there in this order, if they are not there
yet and no two are the same. -/
theorem names_applyAll_intern (d : Draft) (pool : List String) (hpool : pool.Nodup)
    (hnew : ∀ name ∈ pool, name ∉ d.names) :
    (d.applyAll (pool.map .intern)).names = d.names ++ pool.toArray ∧
      (d.applyAll (pool.map .intern)).instructions = d.instructions := by
  induction pool generalizing d with
  | nil => exact ⟨Array.append_empty.symm, rfl⟩
  | cons name rest ih =>
    obtain ⟨hname, hrest⟩ := List.nodup_cons.1 hpool
    have hintern : d.apply (.intern name) = { d with names := d.names.push name } := by
      rw [apply, intern_of_notMem (hnew name List.mem_cons_self)]
    obtain ⟨hnames, hinstructions⟩ := ih (d.apply (.intern name)) hrest fun other hother hmem => by
      rw [hintern] at hmem
      rcases Array.mem_push.1 hmem with hold | rfl
      · exact hnew other (List.mem_cons_of_mem _ hother) hold
      · exact hname hother
    refine ⟨?_, hinstructions.trans (by rw [hintern])⟩
    rw [List.map_cons, applyAll, List.foldl_cons, ← applyAll, hnames, hintern]
    simp

/-- Operands cannot tell more names apart than there are words: one more name gets the operand of the first. -/
theorem getProp_beyond_pool {pool : List String} (hpool : pool.Nodup) (hlength : pool.length = UInt32.size)
    {name : String} (hnew : name ∉ pool) :
    (empty.applyAll (pool.map .intern)).instructions = #[] ∧
      ((empty.applyAll (pool.map .intern)).getProp name).instructions = #[.getProp 0] ∧
      ((empty.applyAll (pool.map .intern)).getProp name).names = pool.toArray.push name := by
  obtain ⟨hnames, hinstructions⟩ :=
    empty.names_applyAll_intern pool hpool fun _ _ => Array.not_mem_empty _
  have hnames' : (empty.applyAll (pool.map .intern)).names = pool.toArray :=
    hnames.trans Array.empty_append
  have hnew' : name ∉ (empty.applyAll (pool.map .intern)).names := by
    rw [hnames']
    simpa using hnew
  have hintern := intern_of_notMem hnew'
  have hoperand : UInt32.ofNat pool.toArray.size = 0 := by
    rw [List.size_toArray, hlength]
    rfl
  rw [hnames', hoperand] at hintern
  refine ⟨hinstructions, ?_, ?_⟩
  · rw [getProp, hintern]
    simp only [emit, hinstructions]
    rfl
  · rw [getProp, hintern]
    rfl

end InlineCache.CodeUnit.Draft
