import InlineCache.Json.Text

namespace InlineCache

/-- Things that can be shown as JSON. A view shows what can be observed of a thing and no more; things are
shown by their numbers where they only occur in others. -/
class View (α : Type) where
  view : α → Json

export View (view)

instance : View Json := ⟨id⟩

instance : View Unit := ⟨fun _ => .null⟩

instance : View Bool := ⟨.bool⟩

instance : View Nat := ⟨.natural⟩

instance : View Int := ⟨.integer⟩

instance : View UInt32 := ⟨fun n => .natural n.toNat⟩

instance : View String := ⟨.text⟩

section

variable {α β ε : Type} [View α] [View β] [View ε]

instance : View (List α) := ⟨fun l => .array (l.map view)⟩

instance : View (Array α) := ⟨fun a => view a.toList⟩

instance : View (Option α) := ⟨fun o => (o.map view).getD .null⟩

instance : View (α × β) := ⟨fun (a, b) => .array [view a, view b]⟩

/-- Either the result or the error is shown. -/
instance : View (Except ε α) where
  view
    | .ok a => view a
    | .error e => view e

end

namespace View

/-- An error by the name of its kind and its message. -/
def failure (name message : String) : Json :=
  .record [("error", .text name), ("message", .text message)]

/-- A thing that may be missing. -/
def orAbsent {α : Type} [View α] (o : Option α) : Json := (o.map view).getD (.text "absent")

end View

end InlineCache
