import InlineCache.Collector.Edge

namespace InlineCache

/-- The color of a thing while a mark runs. -/
inductive Color where
  | white
  /-- Reached, and waiting to be scanned. -/
  | gray
  /-- Scanned. -/
  | black
deriving DecidableEq, Inhabited

namespace Color

def name : Color → String
  | white => "White"
  | gray => "Gray"
  | black => "Black"

/-- The color that a byte stands for; all numbers past the second are black. -/
def ofByte : Nat → Color
  | 0 => white
  | 1 => gray
  | _ => black

end Color

/-- The barrier of an incremental mark. While a mark runs, whoever removes an edge first hands the edges of
its owner to the barrier. Things handed over turn gray once and wait in a queue; scanning turns them
black. So everything that was reachable when the mark began is kept until it ends. -/
structure Barrier where
  /-- The colors of the things that were reached. -/
  marks : Assoc Thing Color
  /-- Gray things in the order in which they were reached. -/
  queue : List Thing
deriving Inhabited

namespace Barrier

def empty : Barrier := ⟨.empty, []⟩

/-- The color of a thing, white if it was never reached. -/
def color (b : Barrier) (t : Thing) : Color := (b.marks.find? t).getD .white

def isMarked (b : Barrier) (t : Thing) : Bool := b.color t != .white

/-- The number of things reached. -/
def size (b : Barrier) : Nat := b.marks.size

/-- Turns a thing gray, if it is white. -/
def shade (b : Barrier) (t : Thing) : Barrier :=
  if b.color t = .white then ⟨b.marks.set t .gray, b.queue ++ [t]⟩ else b

def shadeAll (b : Barrier) (edges : List Edge) : Barrier :=
  edges.foldl (fun b e => b.shade e.thing) b

/-- Hands out the gray things and turns them black. -/
def drain (b : Barrier) : List Thing × Barrier :=
  (b.queue, ⟨b.queue.foldl (fun marks t => marks.set t .black) b.marks, []⟩)

end Barrier

/-- The part of the heap that is marked together. -/
structure Zone where
  /-- Whether a mark is running. -/
  marking : Bool
  barrier : Barrier
  /-- How often memory ran out. -/
  oomCount : Nat
deriving Inhabited

namespace Zone

def initial : Zone := ⟨false, .empty, 0⟩

/-- Starts a mark and forgets what an earlier one reached. -/
def beginMark (z : Zone) : Zone := { z with marking := true, barrier := .empty }

/-- Ends the mark: the things that the barrier kept, in ascending order. -/
def finishMark (z : Zone) : List Thing × Zone :=
  (Thing.sorted (z.barrier.marks.entries.map (·.1)), { z with marking := false, barrier := .empty })

/-- Hands over the edges of an owner that is about to lose some of them. -/
def preBarrier (z : Zone) (edges : List Edge) : Zone :=
  if z.marking then { z with barrier := z.barrier.shadeAll edges } else z

/-- Hands out the gray things of the barrier. -/
def drain (z : Zone) : List Thing × Zone :=
  let (things, barrier) := z.barrier.drain
  (things, { z with barrier := barrier })

def reportOom (z : Zone) : Zone := { z with oomCount := z.oomCount + 1 }

end Zone

end InlineCache
