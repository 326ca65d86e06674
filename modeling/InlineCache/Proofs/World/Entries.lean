import Mathlib.Data.List.Nodup
import InlineCache.Proofs.Text.ElementKey
import InlineCache.Proofs.UnitCache.Sites
import InlineCache.Proofs.World.Units

namespace InlineCache

namespace World

variable {σ : Type}

open CodeUnit (Draft)

/-- The text of a unit that was accepted is accepted. -/
theorem makeUnit_render (w : World σ) {unit : CodeUnit} (hcheck : unit.check = .ok unit) :
    (w.makeUnit (.text unit.render)).1 = .ok { unit with id := w.freshUnit.1 } :=
  congrArg Prod.fst (w.readUnit_render hcheck)

/-- Whatever unit is accepted, its caches can be prepared. -/
theorem create_of_accepted (w : World σ) {source : UnitSource} {unit : CodeUnit} (config : CacheConfig)
    (haccepted : (w.makeUnit source).1 = .ok unit) :
    ∃ c, UnitCache.create unit config = .ok c ∧ c.unit = unit ∧ c.Sited :=
  UnitCache.create_sited config (CodeUnit.check_eq_ok_iff.1 ((w.makeUnit_spec source).2.2 unit haccepted).1)

/-- For every unit that is accepted, be it built or read from a text, the caches can be prepared, and there
is an entry for each place that needs one: for every instruction that owns a cache, with its offset and of
its kind, and if the unit is a function for the receiver and for each argument. No two places share an entry,
and the list has no more. An instruction that the builder emitted to read or write a property by its name
works on that property, unless the pool has more names than operands can tell apart. -/
theorem accepted_unit_indexed (w : World σ) {source : UnitSource} {unit : CodeUnit} (config : CacheConfig)
    (haccepted : (w.makeUnit source).1 = .ok unit) (hsize : unit.instructions.size < 2 ^ 31) :
    ∃ c, UnitCache.create unit config = .ok c ∧ c.unit = unit ∧ c.Indexed ∧
      ∀ before after name, unit.names.size ≤ UInt32.size →
        (source = .draft (Draft.empty.applyAll (before ++ .getProp name :: after)) →
          ∃ id, c.entryAt? (UInt32.ofNat (Draft.empty.applyAll before).instructions.size) = some id ∧
            (c.site id.index).role = .operation (.getProp name)) ∧
        (source = .draft (Draft.empty.applyAll (before ++ .setProp name :: after)) →
          ∃ id, c.entryAt? (UInt32.ofNat (Draft.empty.applyAll before).instructions.size) = some id ∧
            (c.site id.index).role = .operation (.setProp name)) := by
  obtain ⟨c, hcreate, rfl, hsited⟩ := w.create_of_accepted config haccepted
  have hcheck := ((w.makeUnit_spec source).2.2 _ haccepted).1
  have hadmits := CodeUnit.check_eq_ok_iff.1 hcheck
  have hwords : c.unit.instructions.size ≤ UInt32.size := Nat.le_trans (Nat.le_of_lt hsize) (by decide)
  have hdraft {d : Draft} (hsource : source = .draft d) : c.unit = d.toUnit w.freshUnit.1 := by
    subst hsource
    exact CodeUnit.eq_of_check haccepted
  refine ⟨c, hcreate, rfl, hsited.indexed (UnitCache.create_linked hcreate).2 hadmits hsize,
    fun before after name hnames => ⟨fun hsource => ?_, fun hsource => ?_⟩⟩
  · exact hsited.exists_keyed hwords hadmits hnames (fun _ => rfl)
      (fun operand hname => by rw [SiteRole.ofOpcode?, hname]; rfl) (hdraft hsource)
  · exact hsited.exists_keyed hwords hadmits hnames (fun _ => rfl)
      (fun operand hname => by rw [SiteRole.ofOpcode?, hname]; rfl) (hdraft hsource)

/-- The calls that build a function of one argument, which copies one property to another. -/
def copierCalls : List Draft.Call := [.function 1, .getProp "x", .emit .loopEntry, .setProp "y", .emit .ret]

def copierUnit : CodeUnit :=
  ⟨1, "<anonymous>", 1, true, 0, #[.getProp 0, .loopEntry, .setProp 1, .ret], #["x", "y"]⟩

/-- The function has five entries. That of its write stands for the name of the write, and is none of the
others. -/
theorem copier_indexed :
    ∃ c, UnitCache.create copierUnit .standard = .ok c ∧ c.entries.size = 5 ∧
      (∃ id, c.entryAt? 2 = some id ∧ (c.site id.index).role = .operation (.setProp "y") ∧
        c.entryOfArgument? 0 ≠ some id) ∧
      c.entryAt? 3 = none ∧ (c.entryOfArgument? 0).isSome ∧ ¬ (c.entryOfArgument? 1).isSome := by
  have haccepted : ((create .standard (fun _ _ => none) () : World Unit).makeUnit
      (.draft (Draft.empty.applyAll copierCalls))).1 = .ok copierUnit := by decide +kernel
  obtain ⟨c, hcreate, hunit, hindexed, hkeyed⟩ :=
    accepted_unit_indexed (create .standard (fun _ _ => none) ()) .standard haccepted (by decide)
  have hentries : c.unit.entryCount = 5 := by
    rw [hunit]
    decide
  obtain ⟨id, hid, hrole⟩ := (hkeyed [.function 1, .getProp "x", .emit .loopEntry] [.emit .ret] "y"
    (by decide)).2 rfl
  have hplace : UInt32.ofNat (Draft.empty.applyAll
      [.function 1, .getProp "x", .emit .loopEntry]).instructions.size = 2 := by decide +kernel
  rw [hplace] at hid
  refine ⟨c, hcreate, hindexed.entries.2.trans hentries, ⟨id, hid, hrole, fun hargument => ?_⟩,
    hindexed.absent 3 (by rw [hunit]; rfl), (hindexed.argument 0).2 (by rw [hunit]; decide), fun hsome => ?_⟩
  · cases hindexed.apart (.argument 0) (.instruction 2) id hargument hid
  · have hargument := (hindexed.argument 1).1 hsome
    rw [hunit] at hargument
    exact absurd hargument.2 (by decide)

/-- A program whose text says that it takes an argument. -/
def argumentProgram : CodeUnit := ⟨1, "f", 1, false, 0, #[], #[]⟩

private theorem argumentProgram_checked : argumentProgram.check = .ok argumentProgram := rfl

/-- If the pool has as many names as operands can tell apart, the read of a property of yet another name
works on the first of them. -/
theorem read_beyond_pool (w : World σ) (config : CacheConfig) {pool : List String} (hpool : pool.Nodup)
    (hlength : pool.length = UInt32.size) {name first : String} (hnew : name ∉ pool)
    (hfirst : pool[0]? = some first) :
    ∃ unit c, (w.makeUnit (.draft (Draft.empty.applyAll (pool.map .intern ++ [.getProp name])))).1 = .ok unit ∧
      unit.instructions.size < 2 ^ 31 ∧ UnitCache.create unit config = .ok c ∧
      ∃ id, c.entryAt? (UInt32.ofNat (Draft.empty.applyAll (pool.map .intern)).instructions.size) = some id ∧
        (c.site id.index).role = .operation (.getProp first) := by
  obtain ⟨hbefore, hinstructions, hnames⟩ := Draft.getProp_beyond_pool hpool hlength hnew
  have hdraft : Draft.empty.applyAll (pool.map .intern ++ [.getProp name]) =
      (Draft.empty.applyAll (pool.map .intern)).getProp name := by
    rw [Draft.applyAll_append]
    rfl
  generalize (Draft.empty.applyAll (pool.map .intern)).getProp name = d at hdraft hinstructions hnames
  have hname : d.names[0]? = some first := by
    rw [hnames]
    exact Draft.getElem?_push_of_getElem? name (by rwa [List.getElem?_toArray])
  have hadmits : ∀ opcode ∈ (d.toUnit w.freshUnit.1).instructions,
      (d.toUnit w.freshUnit.1).Admits opcode := by
    intro opcode hmem
    rw [CodeUnit.Draft.toUnit, hinstructions] at hmem
    obtain rfl := Array.mem_singleton.1 hmem
    have hlt : 0 < d.names.size := (Array.getElem?_eq_some_iff.1 hname).1
    exact ⟨fun operand hoperand => Option.mem_some.1 hoperand ▸ hlt, fun _ hnone => (by cases hnone),
      fun _ hnone => (by cases hnone)⟩
  have hcheck : (d.toUnit w.freshUnit.1).check = .ok (d.toUnit w.freshUnit.1) :=
    CodeUnit.check_eq_ok_iff.2 hadmits
  obtain ⟨c, hcreate, hunit, hsited⟩ := UnitCache.create_sited config hadmits
  have hopcode : c.unit.instructions[0]? = some (.getProp 0) := by
    rw [hunit, CodeUnit.Draft.toUnit, hinstructions]
    rfl
  have hrole : SiteRole.ofOpcode? c.unit (.getProp 0) = .ok (some (.operation (.getProp first))) := by
    have hkey : (d.toUnit w.freshUnit.1).nameAt 0 = .ok first :=
      UnitCache.nameAt_toUnit hname (by decide) w.freshUnit.1
    rw [SiteRole.ofOpcode?, hunit, hkey]
    rfl
  have hsize : (d.toUnit w.freshUnit.1).instructions.size = 1 := by
    rw [CodeUnit.Draft.toUnit, hinstructions]
    rfl
  have hadmits' : c.unit.Admits (.getProp 0) := by
    rw [hunit] at hopcode ⊢
    exact hadmits _ (Array.mem_of_getElem? hopcode)
  rw [hdraft, hbefore]
  refine ⟨_, c, hcheck, by rw [hsize]; decide, hcreate, ?_⟩
  exact hsited.exists_role (by rw [hunit, hsize]; decide) hopcode hadmits' hrole

/-- Pools can have any number of names. -/
theorem exists_pool (size : Nat) (hpos : 0 < size) :
    ∃ pool : List String, pool.Nodup ∧ pool.length = size ∧ "length" ∉ pool ∧ pool[0]? = some "0" := by
  refine ⟨(List.range size).map Nat.repr, List.nodup_range.map fun i j => Text.eq_of_repr_eq, ?_, ?_, ?_⟩
  · rw [List.length_map, List.length_range]
  · intro hmem
    obtain ⟨i, -, heq⟩ := List.mem_map.1 hmem
    exact Text.repr_ne_length i heq
  · rw [List.getElem?_map, List.getElem?_range hpos]
    rfl

/-- Two things keep the entries from being as the arguments and the names say. A text may declare arguments
for a program, which has no entries for them; and a pool may have more names than operands can tell apart, so
that the read of one property works on another. -/
theorem entries_not_always_as_declared :
    (∃ c, ((create .standard (fun _ _ => none) () : World Unit).makeUnit
        (.text argumentProgram.render)).1 = .ok argumentProgram ∧
      argumentProgram.instructions.size < 2 ^ 31 ∧ UnitCache.create argumentProgram .standard = .ok c ∧
      0 < argumentProgram.argCount.toNat ∧ c.entryOfArgument? 0 = none) ∧
    ∃ before unit c, ((create .standard (fun _ _ => none) () : World Unit).makeUnit
        (.draft (Draft.empty.applyAll (before ++ [.getProp "length"])))).1 = .ok unit ∧
      unit.instructions.size < 2 ^ 31 ∧ UnitCache.create unit .standard = .ok c ∧
      ∃ id, c.entryAt? (UInt32.ofNat (Draft.empty.applyAll before).instructions.size) = some id ∧
        (c.site id.index).role = .operation (.getProp "0") := by
  constructor
  · have haccepted := makeUnit_render (create .standard (fun _ _ => none) () : World Unit) argumentProgram_checked
    obtain ⟨c, hcreate, hunit, -⟩ := create_of_accepted _ .standard haccepted
    refine ⟨c, haccepted, Nat.two_pow_pos 31, hcreate, Nat.one_pos, ?_⟩
    rw [UnitCache.entryOfArgument?, hunit]
    rfl
  · obtain ⟨pool, hpool, hlength, hnew, hfirst⟩ := exists_pool UInt32.size (by decide)
    exact ⟨_, read_beyond_pool _ .standard hpool hlength hnew hfirst⟩

end World

end InlineCache
