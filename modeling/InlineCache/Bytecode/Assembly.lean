import InlineCache.Bytecode.Encoding

namespace InlineCache.CodeUnit.Draft

/-- One item of the code: an instruction, the read or write of a named property, or a name that is only
put into the pool. -/
def addItem? (d : Draft) (item : Json) : Option Draft :=
  match item.choice? with
  | some ("get_prop", some name) => name.text?.map d.getProp
  | some ("set_prop", some name) => name.text?.map d.setProp
  | some ("intern", some name) => name.text?.map fun name => (d.intern name).2
  | _ => (Opcode.ofJson? item).map d.emit

/-- The draft that a record describes. The record lists the instructions; names stand for themselves, and
nothing but the code has to be given. -/
def ofJson? (j : Json) : Option Draft :=
  let d := { empty with
    name := (j.get "name").text?.getD empty.name
    localCount := UInt16.ofNat ((j.get "locals").natural?.getD 0) }
  let d := ((j.get "function").natural?.map fun n => d.function (UInt16.ofNat n)).getD d
  (j.get "code").items.foldlM addItem? d

end InlineCache.CodeUnit.Draft
