import InlineCache.Bytecode.CodeUnit
import Mathlib.Tactic.MkIffOfInductiveProp

namespace InlineCache

namespace Opcode

/-- The place in the pool that an instruction takes a name from. -/
def nameOperand? : Opcode → Option UInt32
  | getProp name | setProp name => some name
  | _ => none

/-- The local slot that an instruction reads or writes. -/
def slotOperand? : Opcode → Option UInt16
  | getLocal slot | setLocal slot | getAliasedVar slot => some slot
  | _ => none

/-- The instruction that an instruction jumps to. -/
def target? : Opcode → Option Offset
  | jump target | jumpIfFalse target => some target
  | _ => none

end Opcode

namespace CodeUnit

variable {unit : CodeUnit} {index : Nat} {opcode : Opcode} {e : BytecodeError}

/-- The number of instructions, in the words that offsets are. -/
def instructionCount (unit : CodeUnit) : UInt32 := UInt32.ofNat unit.instructions.size

theorem instructionCount_toNat (hsize : unit.instructions.size < UInt32.size) :
    unit.instructionCount.toNat = unit.instructions.size := by
  rw [instructionCount, UInt32.toNat_ofNat_of_lt' hsize]

/-- The operand of an instruction points into the unit. -/
@[mk_iff] structure Admits (unit : CodeUnit) (opcode : Opcode) : Prop where
  name : ∀ name ∈ opcode.nameOperand?, name.toNat < unit.names.size
  slot : ∀ slot ∈ opcode.slotOperand?, slot < unit.localCount
  target : ∀ target ∈ opcode.target?, target < unit.instructionCount

/-- What is reported of an instruction whose operand does not point into the unit. -/
@[mk_iff] inductive Fault (unit : CodeUnit) (index : Nat) (opcode : Opcode) :
    BytecodeError → Prop where
  | name {name : UInt32} (hname : name ∈ opcode.nameOperand?) (hout : unit.names.size ≤ name.toNat) :
      Fault unit index opcode (.invalidName name)
  | slot {slot : UInt16} (hslot : slot ∈ opcode.slotOperand?) (hout : unit.localCount ≤ slot) :
      Fault unit index opcode (.invalidLocal slot unit.localCount)
  | target {target : Offset} (htarget : target ∈ opcode.target?)
      (hout : unit.instructionCount ≤ target) :
      Fault unit index opcode (.invalidJump (UInt32.ofNat index) target)

/-- An error is the fault of the first instruction that has one. -/
def FirstFault (unit : CodeUnit) (e : BytecodeError) : Prop :=
  ∃ (index : Nat) (opcode : Opcode),
    unit.instructions[index]? = some opcode ∧ unit.Fault index opcode e ∧
      ∀ earlier < index, ∀ opcode', unit.instructions[earlier]? = some opcode' → unit.Admits opcode'

private theorem instructionError?_eq_none_iff :
    unit.instructionError? index opcode = none ↔ unit.Admits opcode := by
  cases opcode <;>
    simp [instructionError?, admits_iff, Opcode.nameOperand?, Opcode.slotOperand?, Opcode.target?,
      instructionCount]

private theorem instructionError?_eq_some_iff :
    unit.instructionError? index opcode = some e ↔ unit.Fault index opcode e := by
  cases opcode <;>
    simp [instructionError?, fault_iff, Opcode.nameOperand?, Opcode.slotOperand?, Opcode.target?,
      instructionCount, eq_comm]

private theorem firstError?_eq_none_iff :
    unit.firstError? = none ↔ ∀ opcode ∈ unit.instructions, unit.Admits opcode := by
  rw [firstError?, List.findSome?_eq_none_iff]
  constructor
  · intro hnone opcode hmem
    obtain ⟨index, hindex⟩ := List.getElem?_of_mem (Array.mem_toList_iff.2 hmem)
    have herror := hnone (opcode, index) (List.mem_zipIdx_iff_getElem?.2 hindex)
    exact instructionError?_eq_none_iff.1 herror
  · rintro hadmits ⟨opcode, index⟩ hmem
    have hopcode := List.mem_of_getElem? (List.mem_zipIdx_iff_getElem?.1 hmem)
    exact instructionError?_eq_none_iff.2 (hadmits opcode (Array.mem_toList_iff.1 hopcode))

private theorem getElem?_zipIdx_instructions (unit : CodeUnit) (index : Nat) :
    unit.instructions.toList.zipIdx[index]? =
      unit.instructions[index]?.map fun opcode => (opcode, index) := by
  rw [List.getElem?_zipIdx, Array.getElem?_toList, Nat.zero_add]

private theorem firstError?_eq_some_iff : unit.firstError? = some e ↔ unit.FirstFault e := by
  rw [firstError?, List.findSome?_eq_some_iff]
  constructor
  · rintro ⟨before, ⟨opcode, index⟩, after, hsplit, herror, hbefore⟩
    have hhere := getElem?_zipIdx_instructions unit before.length
    rw [hsplit, List.getElem?_append_right (Nat.le_refl _), Nat.sub_self, List.getElem?_cons_zero] at hhere
    obtain ⟨opcode', hopcode, heq⟩ := Option.map_eq_some_iff.1 hhere.symm
    cases heq
    refine ⟨before.length, opcode, hopcode, instructionError?_eq_some_iff.1 herror, ?_⟩
    intro earlier hearlier opcode' hopcode'
    have hthere := getElem?_zipIdx_instructions unit earlier
    rw [hsplit, List.getElem?_append_left hearlier, hopcode'] at hthere
    exact instructionError?_eq_none_iff.1 (hbefore _ (List.mem_of_getElem? hthere))
  · rintro ⟨index, opcode, hopcode, hfault, hearlier⟩
    have hhere := getElem?_zipIdx_instructions unit index
    rw [hopcode] at hhere
    obtain ⟨hlt, hget⟩ := List.getElem?_eq_some_iff.1 hhere
    refine ⟨unit.instructions.toList.zipIdx.take index, (opcode, index),
      unit.instructions.toList.zipIdx.drop (index + 1), ?_, instructionError?_eq_some_iff.2 hfault, ?_⟩
    · have hsplit := List.take_append_drop index unit.instructions.toList.zipIdx
      rw [List.drop_eq_getElem_cons hlt, hget] at hsplit
      exact hsplit.symm
    · intro p hp
      obtain ⟨earlier, hlt', rfl⟩ := List.mem_take_iff_getElem.1 hp
      have hthere := getElem?_zipIdx_instructions unit earlier
      rw [List.getElem?_eq_getElem (Nat.lt_of_lt_of_le hlt' (Nat.min_le_right _ _))] at hthere
      obtain ⟨opcode', hopcode', heq⟩ := Option.map_eq_some_iff.1 hthere.symm
      rw [← heq]
      exact instructionError?_eq_none_iff.2
        (hearlier earlier (Nat.lt_of_lt_of_le hlt' (Nat.min_le_left _ _)) opcode' hopcode')

/-- A unit is accepted as it is, just if all its operands point into it. -/
theorem check_eq_ok_iff :
    unit.check = .ok unit ↔ ∀ opcode ∈ unit.instructions, unit.Admits opcode := by
  rw [← firstError?_eq_none_iff, check]
  cases unit.firstError? <;> simp

/-- What is reported otherwise is the fault of the first instruction that has one. -/
theorem check_eq_error_iff : unit.check = .error e ↔ unit.FirstFault e := by
  rw [← firstError?_eq_some_iff, check]
  cases unit.firstError? <;> simp

end CodeUnit

end InlineCache
