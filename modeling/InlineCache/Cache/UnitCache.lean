import InlineCache.Bytecode.Encoding
import InlineCache.Cache.Attach
import InlineCache.Store.Search

namespace InlineCache

/-- The operation that an entry caches, with what the instruction fixes of it. -/
inductive SiteOperation where
  | toBool
  | unaryArith (op : UnaryOp)
  | binaryArith (op : BinaryOp)
  | compare (op : CompareOp)
  | getProp (key : PropertyKey)
  | setProp (key : PropertyKey)
  | getElem
  | setElem
  | hasProp
  | hasOwn
  | instanceOf
  | call
  | typeOf
  | getIterator
deriving DecidableEq, Inhabited

/-- What an entry is for. -/
inductive SiteRole where
  | operation (op : SiteOperation)
  /-- Watching the types of values that come from elsewhere. -/
  | monitor
  /-- Counting the turns of a loop. -/
  | loopCounter
deriving DecidableEq, Inhabited

namespace SiteRole

def kind : SiteRole → SiteKind
  | operation .toBool => .toBool
  | operation (.unaryArith _) => .unaryArith
  | operation (.binaryArith _) => .binaryArith
  | operation (.compare _) => .compare
  | operation (.getProp _) => .getProp
  | operation (.setProp _) => .setProp
  | operation .getElem => .getElem
  | operation .setElem => .setElem
  | operation .hasProp => .hasProp
  | operation .hasOwn => .hasOwn
  | operation .instanceOf => .instanceOf
  | operation .call => .call
  | operation .typeOf => .typeOf
  | operation .getIterator => .getIterator
  | monitor => .typeMonitor
  | loopCounter => .warmUpCounter

/-- The role of an instruction's entry, if it has one; names are resolved in the unit. -/
def ofOpcode? (unit : CodeUnit) : Opcode → Except BytecodeError (Option SiteRole)
  | .nop | .getLocal _ | .setLocal _ | .jump _ | .ret => .ok none
  | .getAliasedVar _ => .ok (some .monitor)
  | .jumpIfFalse _ => .ok (some (.operation .toBool))
  | .loopEntry => .ok (some .loopCounter)
  | .binary op => .ok (some (.operation (.binaryArith op)))
  | .unary op => .ok (some (.operation (.unaryArith op)))
  | .compare op => .ok (some (.operation (.compare op)))
  | .getProp name => (unit.nameAt name).map fun key => some (.operation (.getProp key))
  | .setProp name => (unit.nameAt name).map fun key => some (.operation (.setProp key))
  | .getElem => .ok (some (.operation .getElem))
  | .setElem => .ok (some (.operation .setElem))
  | .hasProp => .ok (some (.operation .hasProp))
  | .hasOwn => .ok (some (.operation .hasOwn))
  | .instanceOf => .ok (some (.operation .instanceOf))
  | .call _ => .ok (some (.operation .call))
  | .typeOf => .ok (some (.operation .typeOf))
  | .getIterator => .ok (some (.operation .getIterator))

end SiteRole

/-- The fixed part of a cache entry. -/
structure EntrySite where
  pc : Offset
  role : SiteRole
  /-- The name of the instruction, for messages. -/
  label : String
deriving DecidableEq, Inhabited

def EntrySite.kind (s : EntrySite) : SiteKind := s.role.kind

/-- An entry, known by its unit and its place in it. -/
structure EntryId where
  unit : UnitId
  index : Nat
deriving DecidableEq, Inhabited

def EntryId.display (id : EntryId) : String := "ic#" ++ toString id.index

/-- The index of an argument, a word of 64 bits. The receiver's entry comes before those of the arguments, so
the entry of an argument is numbered one higher than the argument, and that number is a word too. -/
abbrev ArgumentIndex := Fin 0xFFFFFFFFFFFFFFFF

def ArgumentIndex.ofNat? (n : Nat) : Option ArgumentIndex :=
  if h : n < 0xFFFFFFFFFFFFFFFF then some ⟨n, h⟩ else none

/-- The caches of a unit: an entry for each place that has one, and the chains of type guards for the
properties written from the unit. A function has an entry for its receiver and one for each argument,
before those of its instructions. -/
structure UnitCache where
  unit : CodeUnit
  sites : Array EntrySite
  arena : Arena
  entries : Array Entry
  /-- The type guards for writes, by group and property. -/
  updates : Assoc (GroupId × PropertyKey) TypeChain
  counters : Counters
deriving Inhabited

namespace UnitCache

/-- The sites of a unit: receiver and arguments of a function, then the instructions with a cache. -/
def sitesOf (unit : CodeUnit) : Except BytecodeError (List EntrySite) := do
  let prologue := List.replicate unit.prologueSize ⟨Offset.prologue, .monitor, "Prologue"⟩
  let instructions ← unit.sites.mapM fun site => do
    let role ← SiteRole.ofOpcode? unit site.opcode
    return role.map fun role => (⟨site.pc, role, site.opcode.name⟩ : EntrySite)
  return prologue ++ instructions.filterMap id

/-- New entries, one for each site. -/
def createEntries : List EntrySite → Arena → List Entry × Arena
  | [], a => ([], a)
  | site :: rest, a =>
    let (entry, a) := Entry.create a site.kind
    let (entries, a) := createEntries rest a
    (entry :: entries, a)

/-- The caches of a unit before its first use. -/
def create (unit : CodeUnit) (config : CacheConfig) : Except CacheError UnitCache :=
  match sitesOf unit with
  | .error e => .error (.bytecode e)
  | .ok sites =>
    let (entries, arena) := createEntries sites (.empty config.arenaLimit)
    .ok ⟨unit, sites.toArray, arena, entries.toArray, .empty, .zero⟩

def site (c : UnitCache) (index : Nat) : EntrySite := c.sites[index]?.getD default

def entry (c : UnitCache) (index : Nat) : Entry := c.entries[index]?.getD default

def setEntry (c : UnitCache) (index : Nat) (e : Entry) : UnitCache :=
  { c with entries := c.entries.setIfInBounds index e }

/-- Whether an entry belongs to the unit. -/
def owns (c : UnitCache) (id : EntryId) : Bool :=
  id.unit == c.unit.id && id.index < c.sites.size

def entryId (c : UnitCache) (index : Nat) : EntryId := ⟨c.unit.id, index⟩

def entryIds (c : UnitCache) : List EntryId := (List.range c.sites.size).map c.entryId

/-- The entry of the instruction at an offset. The instructions stand in the order of their offsets. -/
def entryAt? (c : UnitCache) (pc : Offset) : Option EntryId :=
  let start := c.unit.prologueSize
  (search? (fun index => compare (c.site (start + index)).pc pc) (c.sites.size - start)).map fun index =>
    c.entryId (start + index)

/-- The entry that watches the receiver of a function. -/
def entryOfThis? (c : UnitCache) : Option EntryId :=
  if 0 < c.unit.prologueSize then some (c.entryId 0) else none

/-- The entry that watches an argument of a function. -/
def entryOfArgument? (c : UnitCache) (index : ArgumentIndex) : Option EntryId :=
  if index.val + 1 < c.unit.prologueSize then some (c.entryId (index.val + 1)) else none

/-- The edges of every stub in a chain. -/
def edges (c : UnitCache) : List Edge :=
  c.entries.toList.flatMap (fun e =>
    e.chain.edges c.arena ++ ((e.monitor.map fun m => m.chain.chain.edges c.arena).getD [])) ++
  c.updates.entries.flatMap fun (_, t) => t.chain.edges c.arena

/-- The stubs that watch the writes to a property of a group. -/
def updateStubs (c : UnitCache) (group : GroupId) (key : PropertyKey) : List Stub :=
  ((c.updates.find? (group, key)).map fun t => t.chain.stubs c.arena).getD []

/-- Whether a write to a property of a group would be accepted at once. -/
def updateAccepts (c : UnitCache) (h : Heap) (group : GroupId) (key : PropertyKey) (v : Value) :
    Bool :=
  (c.updates.find? (group, key)).any fun t => t.accepts h c.arena v

/-- The stubs that watch the results of an entry. -/
def monitorStubs (c : UnitCache) (index : Nat) : List Stub :=
  ((c.entry index).monitor.map fun m => m.chain.chain.stubs c.arena).getD []

/-- The guards over the results of an entry. -/
def monitorGuards (c : UnitCache) (index : Nat) : List TypeGuard :=
  ((c.entry index).monitor.map fun m => (m.chain.guards c.arena).map (·.2)).getD []

def monitorAccepts (c : UnitCache) (h : Heap) (index : Nat) (v : Value) : Bool :=
  (c.entry index).monitor.any fun m => m.accepts h c.arena v

def debugText (c : UnitCache) : String :=
  Text.debugRecord "IcScript" [("script", Text.quoted c.unit.name),
    ("entries", toString c.sites.size), ("prologue", toString c.unit.prologueSize)]

end UnitCache

end InlineCache
