import InlineCache.Bytecode.Encoding
import InlineCache.Inspect.View

namespace InlineCache

instance : View Opcode := ⟨Opcode.toJson⟩

instance : View CodeUnit.Site :=
  ⟨fun s => .array [view s.pc, .text s.opcode.name, .text s.kind.name]⟩

instance : View CodeUnit where
  view u := .record [("id", view u.id), ("name", view u.name), ("args", view u.argCount.toNat),
    ("function", view u.isFunction), ("locals", view u.localCount.toNat), ("sites", view u.sites),
    ("entries", view u.entryCount), ("loops", view u.loopHeaders), ("code", view u.instructions)]

/-- An instruction with the cache it owns. -/
def Opcode.summary (o : Opcode) : Json :=
  .record [("name", .text o.name), ("kind", view (o.siteKind?.map (·.name))),
    ("monitored", view (o.siteKind?.map (·.isMonitored))), ("json", view o)]

/-- The operators, in order. -/
def Opcode.operators : Json :=
  .record [("binary", view (BinaryOp.all.map fun o => (o.name, o.isBitwise))),
    ("unary", view (UnaryOp.all.map (·.name))),
    ("compare", view (CompareOp.all.map fun o => (o.name, o.isEquality)))]

end InlineCache
