import InlineCache.Cache.Code
import InlineCache.Json.Basic

namespace InlineCache

namespace CompileError

/-- The error that a plan names: `"oom"`, or else a signature that is not supported. -/
def ofPlan (how : Json) (signature : Signature) : CompileError :=
  if how.text? = some "oom" then .outOfMemory else .unsupported signature

end CompileError

namespace Compiler

/-- The compiler of a plan. A text is the error of every compilation. A record names the error `with`
which compilations fail, either those of some signatures (`ops`) or all `after` a number of others.
Without a plan nothing fails. -/
def ofPlan : Json → Compiler
  | .string how => fun _ signature => some (.ofPlan (.string how) signature)
  | .object members => fun misses signature =>
    let plan := Json.object members
    let tooLate := (plan.get "after").natural?.any (· ≤ misses)
    let listed := (plan.get "ops").items.any (·.text? == some signature.debugText)
    if tooLate || listed then some (.ofPlan (plan.get "with") signature) else none
  | _ => fun _ _ => none

end Compiler

end InlineCache
