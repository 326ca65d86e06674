import Mathlib.Control.Monad.Basic
import InlineCache.Proofs.Host.Alike

namespace InlineCache

namespace World

variable {σ : Type} {w : World σ} {natives : Natives σ}

/-- With native functions that go by what scripts see, a use gives the answer of its operation in full. -/
theorem dispatch_alike_perform (hw : w.Sound) (hacts : natives.Acts (.fitting True))
    (hblind : natives.Blind) {c : CacheId} {id : EntryId} (hown : (w.cache c).owns id = true)
    {op : SiteOperation} (hrole : ((w.cache c).site id.index).role = .operation op) {ops : Operands}
    {r : Request} (hr : op.request? ops = some r) :
    AnswersAlike (r.perform natives w) (dispatch natives c id ops w) := by
  have hat := hw.linked.at_of_owns hown
  obtain ⟨w₁, hquiet, hanswer, hrest⟩ := dispatch_split hw hacts hown hrole hr
  have hw₁ := hquiet.sound hw hat.hasCache
  have hperform := perform_alike hblind hw hw₁ (hquiet.alike hat.hasCache) r
  have hrole₁ : ((w₁.cache c).site id.index).role = .operation op := by
    rw [hquiet.works.site_eq hat, hrole]
  have hat₁ := (hw₁.at_perform hacts (hat.works hquiet.works) hrole₁ r).2.1
  exact ⟨by rw [hanswer, hperform.answer], hperform.world.trans (hrest.alike hat₁.hasCache)⟩

end World

namespace Machine

/-- In every reachable state a use of an entry gives the answer that its operation gives in full, and leaves
every object and every shape as the operation leaves them. Calls may be nested in it to any depth, and the
functions that are called may use the entry again. -/
theorem dispatch_eq_perform {σ : Type} {m : Machine σ} (hm : m.Reached (.fitting True))
    (bodies : Bodies σ) (depth : Nat) {c : CacheId} {id : EntryId}
    (hown : (m.world.cache c).owns id = true) {op : SiteOperation}
    (hrole : ((m.world.cache c).site id.index).role = .operation op) {ops : Operands} {r : Request}
    (hr : op.request? ops = some r) :
    (World.dispatch (bodies.natives depth) c id ops m.world).1 =
        (r.perform (bodies.natives depth) m.world).1 ∧
      (World.dispatch (bodies.natives depth) c id ops m.world).2.heap.objects =
        (r.perform (bodies.natives depth) m.world).2.heap.objects ∧
      (World.dispatch (bodies.natives depth) c id ops m.world).2.heap.shapes =
        (r.perform (bodies.natives depth) m.world).2.heap.shapes ∧
      (r.perform (bodies.natives depth) m.world).2.Alike
        (World.dispatch (bodies.natives depth) c id ops m.world).2 := by
  have hw : m.world.Sound := ⟨hm.sound.linked.world, hm.sound.fitted⟩
  have h := World.dispatch_alike_perform hw (bodies.acts depth) (bodies.blind depth) hown hrole hr
  exact ⟨h.answer, Heap.objects_eq_of_seen h.world.heap, Heap.shapes_eq_of_seen h.world.heap, h.world⟩

/-- A heap with one native function. -/
def functionHeap : Heap := (Heap.initial.newFunction "f" 1).2

private theorem evolves_functionHeap : Heap.initial.Evolves True functionHeap :=
  Heap.Working.evolves (.newFunction "f" 1 fun _ => rfl)

/-- A function that calls itself through the entry that called it, until no argument is left. -/
def countDown : Bodies Unit := fun _ this args =>
  match args with
  | [] => .done (.ok this)
  | v :: rest => .step (.use 1 ⟨1, 0⟩ (.call (.object 1) v rest)) .done

/-- The function is called, and returns. -/
def callOnce : List (Action Unit) :=
  [.host functionHeap .initial .empty 0 (), .addCache ⟨1, "main", 0, false, 0, #[.call 1], #[]⟩,
    .use 1 ⟨1, 0⟩ (.call (.object 1) .undefined []), .ret (.ok .undefined)]

/-- The machine once the function was called. -/
def calledOnce : Machine Unit := (initial .standard (fun _ _ => none) ()).run callOnce

private theorem calledOnce_reached : calledOnce.Reached (.fitting True) :=
  ⟨.standard, fun _ _ => none, (), callOnce, ⟨evolves_functionHeap, trivial, trivial, trivial, trivial⟩, rfl⟩

/-- The entry has a stub for the function, and a call that is nested twice in itself comes to the last
argument with it as without it. -/
theorem nested_call_through_stub :
    (((calledOnce.world.cache 1).entry 0).chain.stubs (calledOnce.world.cache 1).arena).map
        (fun stub => stub.code.map (·.signature)) = [some .callFunction] ∧
      (World.dispatch (countDown.natives 3) 1 ⟨1, 0⟩
        (.call (.object 1) .undefined [.int32 5, .int32 7]) calledOnce.world).1 = .ok (.int32 7) ∧
      ((Request.call (.object 1) .undefined [.int32 5, .int32 7]).perform (countDown.natives 3)
          calledOnce.world).2.Alike
        (World.dispatch (countDown.natives 3) 1 ⟨1, 0⟩
          (.call (.object 1) .undefined [.int32 5, .int32 7]) calledOnce.world).2 := by
  have hown : (calledOnce.world.cache 1).owns ⟨1, 0⟩ = true := by decide +kernel
  have hrole : ((calledOnce.world.cache 1).site 0).role = .operation .call := by decide +kernel
  obtain ⟨hanswer, -, -, halike⟩ := dispatch_eq_perform calledOnce_reached countDown 3 hown hrole
    (rfl : SiteOperation.call.request?
      (.call (.object 1) .undefined [.int32 5, .int32 7]) = some _)
  refine ⟨by decide +kernel, ?_, halike⟩
  rw [hanswer]
  decide +kernel

end Machine

end InlineCache
