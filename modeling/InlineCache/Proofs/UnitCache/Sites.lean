import Mathlib.Algebra.Ring.Nat
import Mathlib.Data.List.Forall2
import Mathlib.Order.Compare
import InlineCache.Proofs.Bytecode.Check
import InlineCache.Proofs.Bytecode.Draft
import InlineCache.Proofs.UnitCache.Linked

namespace InlineCache

namespace CodeUnit

variable {unit : CodeUnit}

/-- The cache that the instruction at an offset owns, if there is such an instruction and it owns one. -/
def siteKindAt? (unit : CodeUnit) (pc : Offset) : Option SiteKind :=
  (unit.instruction? pc).bind Opcode.siteKind?

private theorem mem_sites_iff {site : Site} :
    site ∈ unit.sites ↔ ∃ index : Nat, unit.instructions[index]? = some site.opcode ∧
      site.opcode.siteKind? = some site.kind ∧ site.pc = UInt32.ofNat index := by
  obtain ⟨pc, opcode, kind⟩ := site
  simp only [sites, List.mem_filterMap, List.mem_zipIdx_iff_getElem?, Prod.exists,
    Option.map_eq_some_iff, Site.mk.injEq, Array.getElem?_toList]
  constructor
  · rintro ⟨opcode, index, hopcode, kind, hkind, rfl, rfl, rfl⟩
    exact ⟨index, hopcode, hkind, rfl⟩
  · rintro ⟨index, hopcode, hkind, rfl⟩
    exact ⟨opcode, index, hopcode, kind, hkind, rfl, rfl, rfl⟩

/-- The sites are in order of their offsets. -/
theorem sites_pairwise (hsize : unit.instructions.size ≤ UInt32.size) :
    unit.sites.Pairwise (·.pc < ·.pc) := by
  have hindices : unit.instructions.toList.zipIdx.Pairwise fun low high =>
      low.2 < high.2 ∧ high.2 < UInt32.size := by
    rw [List.pairwise_iff_getElem]
    intro i j hi hj hij
    simp only [List.getElem_zipIdx, Nat.zero_add]
    simp only [List.length_zipIdx, Array.length_toList] at hj
    omega
  rw [sites, List.pairwise_filterMap]
  refine hindices.imp fun {low high} ⟨hlt, hbound⟩ site hsite site' hsite' => ?_
  obtain ⟨kind, -, rfl⟩ := Option.map_eq_some_iff.1 hsite
  obtain ⟨kind', -, rfl⟩ := Option.map_eq_some_iff.1 hsite'
  rw [UInt32.lt_iff_toNat_lt, UInt32.toNat_ofNat_of_lt' (Nat.lt_trans hlt hbound),
    UInt32.toNat_ofNat_of_lt' hbound]
  exact hlt

private theorem siteKindAt?_eq_some_iff (hsize : unit.instructions.size ≤ UInt32.size) {pc : Offset}
    {kind : SiteKind} :
    unit.siteKindAt? pc = some kind ↔ ∃ site ∈ unit.sites, site.pc = pc ∧ site.kind = kind := by
  simp only [siteKindAt?, instruction?, Option.bind_eq_some_iff, mem_sites_iff]
  constructor
  · rintro ⟨opcode, hopcode, hkind⟩
    exact ⟨⟨pc, opcode, kind⟩, ⟨pc.toNat, hopcode, hkind, (UInt32.ofNat_toNat).symm⟩, rfl, rfl⟩
  · rintro ⟨site, ⟨index, hopcode, hkind, hpc⟩, rfl, rfl⟩
    have hlt : index < UInt32.size := Nat.lt_of_lt_of_le (Array.getElem?_eq_some_iff.1 hopcode).1 hsize
    rw [hpc, UInt32.toNat_ofNat_of_lt' hlt]
    exact ⟨site.opcode, hopcode, hkind⟩

/-- No instruction has the offset that stands for the start of a function. -/
theorem siteKindAt?_prologue (hsize : unit.instructions.size < 2 ^ 31) :
    unit.siteKindAt? .prologue = none := by
  have hbound : unit.instructions.size ≤ Offset.prologue.toNat :=
    Nat.le_trans (Nat.le_of_lt hsize) (by decide)
  rw [siteKindAt?, instruction?, Array.getElem?_eq_none hbound]
  rfl

end CodeUnit

namespace SiteRole

variable {unit : CodeUnit} {opcode : Opcode}

/-- An instruction of a unit has an entry of the kind that its opcode says, if it says one. -/
theorem ofOpcode?_spec (hadmits : unit.Admits opcode) :
    ∃ role?, ofOpcode? unit opcode = .ok role? ∧ role?.map SiteRole.kind = opcode.siteKind? := by
  have hname : ∀ name ∈ opcode.nameOperand?, ∃ key, unit.nameAt name = .ok key := by
    intro name hname
    rw [CodeUnit.nameAt, Array.getElem?_eq_getElem (hadmits.name name hname)]
    exact ⟨_, rfl⟩
  cases opcode with
  | getProp name =>
    obtain ⟨key, hkey⟩ := hname name rfl
    exact ⟨some (.operation (.getProp key)), by rw [ofOpcode?, hkey]; rfl, rfl⟩
  | setProp name =>
    obtain ⟨key, hkey⟩ := hname name rfl
    exact ⟨some (.operation (.setProp key)), by rw [ofOpcode?, hkey]; rfl, rfl⟩
  | _ => exact ⟨_, rfl, rfl⟩

/-- The kind of the site of an entry is the one that the instruction owns. -/
theorem kind_of_ofOpcode? {role : SiteRole} (hadmits : unit.Admits opcode)
    (hrole : ofOpcode? unit opcode = .ok (some role)) : opcode.siteKind? = some role.kind := by
  obtain ⟨role?, hrole', hkind⟩ := ofOpcode?_spec hadmits
  rw [hrole] at hrole'
  cases hrole'
  exact hkind.symm

end SiteRole

namespace UnitCache

variable {unit : CodeUnit} {c : UnitCache} {pc : Offset} {id : EntryId}

/-- The fixed part of an entry is that of the entry of an instruction. -/
structure Resolves (unit : CodeUnit) (site : CodeUnit.Site) (entry : EntrySite) : Prop where
  pc : entry.pc = site.pc
  role : SiteRole.ofOpcode? unit site.opcode = .ok (some entry.role)

/-- Every instruction that owns a cache is given an entry, behind those of receiver and arguments. -/
theorem sitesOf_spec (hadmits : ∀ opcode ∈ unit.instructions, unit.Admits opcode) :
    ∃ entries, sitesOf unit =
        .ok (List.replicate unit.prologueSize ⟨.prologue, .monitor, "Prologue"⟩ ++ entries) ∧
      List.Forall₂ (Resolves unit) unit.sites entries := by
  have hall (sites : List CodeUnit.Site) (hsub : ∀ site ∈ sites, site ∈ unit.sites) :
      ∃ entries : List EntrySite, (sites.mapM fun site => do
          let role ← SiteRole.ofOpcode? unit site.opcode
          return role.map fun role => (⟨site.pc, role, site.opcode.name⟩ : EntrySite)) =
          .ok (entries.map some) ∧ List.Forall₂ (Resolves unit) sites entries := by
    induction sites with
    | nil => exact ⟨[], rfl, .nil⟩
    | cons site rest ih =>
      obtain ⟨entries, hrest, hresolves⟩ := ih fun other hother => hsub other (List.mem_cons_of_mem _ hother)
      obtain ⟨index, hopcode, hkind, -⟩ := CodeUnit.mem_sites_iff.1 (hsub site List.mem_cons_self)
      obtain ⟨role?, hrole, hkind'⟩ := SiteRole.ofOpcode?_spec (hadmits _ (Array.mem_of_getElem? hopcode))
      rw [hkind] at hkind'
      obtain ⟨role, rfl, -⟩ := Option.map_eq_some_iff.1 hkind'
      refine ⟨⟨site.pc, role, site.opcode.name⟩ :: entries, ?_, .cons ⟨rfl, hrole⟩ hresolves⟩
      rw [List.mapM_cons, hrole, hrest]
      rfl
  obtain ⟨entries, hentries, hresolves⟩ := hall unit.sites fun _ hsite => hsite
  refine ⟨entries, ?_, hresolves⟩
  rw [sitesOf, hentries]
  simp [pure, Except.pure, bind, Except.bind, List.filterMap_map]

/-- The sites of the entries of a unit. -/
structure Sited (c : UnitCache) : Prop where
  prologue : ∀ index < c.unit.prologueSize, c.site index = ⟨.prologue, .monitor, "Prologue"⟩
  size : c.sites.size = c.unit.prologueSize + c.unit.sites.length
  resolves : ∀ (index : Nat) (site : CodeUnit.Site), c.unit.sites[index]? = some site →
    Resolves c.unit site (c.site (c.unit.prologueSize + index))

/-- The caches of a unit can be prepared if all operands of the unit point into it. -/
theorem create_sited (config : CacheConfig) (hadmits : ∀ opcode ∈ unit.instructions, unit.Admits opcode) :
    ∃ c, create unit config = .ok c ∧ c.unit = unit ∧ c.Sited := by
  obtain ⟨entries, hsites, hresolves⟩ := sitesOf_spec hadmits
  refine ⟨_, by rw [create, hsites], rfl, ?_, ?_, ?_⟩
  · intro index hlt
    change index < unit.prologueSize at hlt
    simp [site, List.getElem?_append_left, hlt]
  · simp [hresolves.length_eq]
  · intro index site hsite
    obtain ⟨hlt, rfl⟩ := List.getElem?_eq_some_iff.1 hsite
    have hlt' : index < entries.length := hresolves.length_eq ▸ hlt
    simpa [UnitCache.site, hlt'] using hresolves.get hlt hlt'

/-- The offset of an entry behind those of receiver and arguments is that of the instruction. -/
theorem Sited.pc_eq (hc : c.Sited) {index : Nat} {site : CodeUnit.Site}
    (hsite : c.unit.sites[index]? = some site) : (c.site (c.unit.prologueSize + index)).pc = site.pc :=
  (hc.resolves index site hsite).pc

/-- The entry of an offset is found just where the offset stands in the list of the instructions with a
cache. -/
theorem Sited.entryAt?_eq_some_iff (hc : c.Sited) (hsize : c.unit.instructions.size ≤ UInt32.size) :
    c.entryAt? pc = some id ↔ ∃ (index : Nat) (site : CodeUnit.Site),
      c.unit.sites[index]? = some site ∧ site.pc = pc ∧ id = c.entryId (c.unit.prologueSize + index) := by
  have hlength : c.sites.size - c.unit.prologueSize = c.unit.sites.length := by
    rw [hc.size, Nat.add_sub_cancel_left]
  have hpc {index : Nat} (hlt : index < c.unit.sites.length) :
      (c.site (c.unit.prologueSize + index)).pc = c.unit.sites[index].pc :=
    hc.pc_eq (List.getElem?_eq_getElem hlt)
  have hsorted : ∀ low high, low < high → high < c.unit.sites.length →
      compare (c.site (c.unit.prologueSize + high)).pc pc ≠ .gt →
      compare (c.site (c.unit.prologueSize + low)).pc pc = .lt := by
    intro low high hlt hhigh hle
    have hbefore := List.pairwise_iff_getElem.1 (CodeUnit.sites_pairwise hsize) low high (by omega) hhigh hlt
    rw [hpc hhigh, ne_eq, ← Ordering.isLE_iff_ne_gt, Std.LawfulLECmp.isLE_iff_le] at hle
    rw [hpc (Nat.lt_trans hlt hhigh), Std.LawfulLTCmp.eq_lt_iff_lt]
    exact UInt32.lt_of_lt_of_le hbefore hle
  simp only [entryAt?, Option.map_eq_some_iff, hlength, search?_eq_some_iff hsorted]
  constructor
  · rintro ⟨index, ⟨hlt, heq⟩, rfl⟩
    rw [hpc hlt] at heq
    exact ⟨index, _, List.getElem?_eq_getElem hlt, Std.compare_eq_iff_eq.1 heq, rfl⟩
  · rintro ⟨index, site, hsite, rfl, rfl⟩
    exact ⟨index, ⟨(List.getElem?_eq_some_iff.1 hsite).1, Std.compare_eq_iff_eq.2 (hc.pc_eq hsite)⟩, rfl⟩

/-- What an entry can be asked for by: the receiver, an argument, or the offset of an instruction. -/
inductive Place where
  | receiver
  | argument (index : ArgumentIndex)
  | instruction (pc : Offset)

/-- The entry of a place. -/
def entryOf? (c : UnitCache) : Place → Option EntryId
  | .receiver => c.entryOfThis?
  | .argument index => c.entryOfArgument? index
  | .instruction pc => c.entryAt? pc

/-- Where the entry of a place stands. -/
def Place.StandsAt (c : UnitCache) (index : Nat) : Place → Prop
  | .receiver => index = 0 ∧ index < c.unit.prologueSize
  | .argument i => index = i.val + 1 ∧ index < c.unit.prologueSize
  | .instruction pc => c.unit.prologueSize ≤ index ∧ (c.site index).pc = pc

private theorem Place.StandsAt.unique {index : Nat} {place place' : Place} (h : place.StandsAt c index)
    (h' : place'.StandsAt c index) : place = place' := by
  cases place <;> cases place' <;> simp only [Place.StandsAt] at h h' <;> first | omega | skip
  case receiver.receiver => rfl
  case argument.argument i j =>
    obtain rfl : i = j := Fin.ext (by omega)
    rfl
  case instruction.instruction pc pc' => rw [← h.2, ← h'.2]

private theorem Sited.standsAt (hc : c.Sited) (hsize : c.unit.instructions.size ≤ UInt32.size)
    {place : Place} (h : c.entryOf? place = some id) :
    place.StandsAt c id.index ∧ id = c.entryId id.index ∧ id.index < c.sites.size := by
  have hprologue := hc.size
  cases place with
  | receiver =>
    obtain ⟨hlt, heq⟩ := Option.ite_none_right_eq_some.1 h
    cases heq
    exact ⟨⟨rfl, hlt⟩, rfl, by simp only [entryId]; omega⟩
  | argument i =>
    obtain ⟨hlt, heq⟩ := Option.ite_none_right_eq_some.1 h
    cases heq
    exact ⟨⟨rfl, hlt⟩, rfl, by simp only [entryId]; omega⟩
  | instruction pc =>
    obtain ⟨index, site, hsite, rfl, rfl⟩ := (hc.entryAt?_eq_some_iff hsize).1 h
    have hlt := (List.getElem?_eq_some_iff.1 hsite).1
    exact ⟨⟨Nat.le_add_right _ _, hc.pc_eq hsite⟩, rfl, by simp only [entryId]; omega⟩

/-- The entries of the unit, all of them and each for its place. -/
structure Indexed (c : UnitCache) : Prop where
  /-- There are as many entries as the unit says it needs. -/
  entries : c.sites.size = c.unit.entryCount ∧ c.entries.size = c.unit.entryCount
  owned : ∀ place id, c.entryOf? place = some id → c.owns id
  /-- An instruction that owns a cache has an entry, with its offset and of its kind. -/
  found : ∀ pc kind, c.unit.siteKindAt? pc = some kind →
    ∃ id, c.entryAt? pc = some id ∧ (c.site id.index).pc = pc ∧ (c.site id.index).kind = kind
  /-- No other offset has one, be it that of another instruction or of none. -/
  absent : ∀ pc, c.unit.siteKindAt? pc = none → c.entryAt? pc = none
  prologue : c.entryAt? .prologue = none
  receiver : c.entryOfThis?.isSome ↔ c.unit.isFunction = true
  argument : ∀ index, (c.entryOfArgument? index).isSome ↔
    c.unit.isFunction = true ∧ index.val < c.unit.argCount.toNat
  /-- The entries of receiver and arguments watch, and belong to no instruction. -/
  watching : ∀ index < c.unit.prologueSize, (c.site index).role = .monitor ∧ (c.site index).pc = .prologue
  /-- Two places have two entries. -/
  apart : ∀ place place' id, c.entryOf? place = some id → c.entryOf? place' = some id → place = place'

theorem Sited.indexed (hc : c.Sited) (hentries : c.entries.size = c.sites.size)
    (hadmits : ∀ opcode ∈ c.unit.instructions, c.unit.Admits opcode)
    (hsize : c.unit.instructions.size < 2 ^ 31) : c.Indexed := by
  have hwords : c.unit.instructions.size ≤ UInt32.size := Nat.le_trans (Nat.le_of_lt hsize) (by decide)
  have habsent (pc : Offset) (hnone : c.unit.siteKindAt? pc = none) : c.entryAt? pc = none := by
    rw [Option.eq_none_iff_forall_ne_some]
    intro id hid
    obtain ⟨index, site, hsite, hpc, -⟩ := (hc.entryAt?_eq_some_iff hwords).1 hid
    have hsome := (CodeUnit.siteKindAt?_eq_some_iff hwords).2 ⟨site, List.mem_of_getElem? hsite, hpc, rfl⟩
    rw [hnone] at hsome
    cases hsome
  exact {
    entries := ⟨hc.size, hentries.trans hc.size⟩
    owned := fun place id hid => by
      obtain ⟨-, heq, hlt⟩ := hc.standsAt hwords hid
      rw [heq]
      exact Bool.and_eq_true_iff.2 ⟨beq_self_eq_true _, decide_eq_true hlt⟩
    found := fun pc kind hkind => by
      obtain ⟨site, hmem, rfl, rfl⟩ := (CodeUnit.siteKindAt?_eq_some_iff hwords).1 hkind
      obtain ⟨index, hsite⟩ := List.getElem?_of_mem hmem
      obtain ⟨_, hopcode, hsiteKind, -⟩ := CodeUnit.mem_sites_iff.1 hmem
      have hresolves := hc.resolves index site hsite
      have hrole := SiteRole.kind_of_ofOpcode? (hadmits _ (Array.mem_of_getElem? hopcode)) hresolves.role
      rw [hsiteKind] at hrole
      exact ⟨_, (hc.entryAt?_eq_some_iff hwords).2 ⟨index, site, hsite, rfl, rfl⟩, hresolves.pc,
        (Option.some.inj hrole).symm⟩
    absent := habsent
    prologue := habsent _ (CodeUnit.siteKindAt?_prologue hsize)
    receiver := by
      cases hfunction : c.unit.isFunction <;>
        simp [entryOfThis?, CodeUnit.prologueSize, hfunction, Nat.add_comm 1]
    argument := fun index => by
      cases hfunction : c.unit.isFunction <;>
        simp [entryOfArgument?, CodeUnit.prologueSize, hfunction, Nat.add_comm 1]
    watching := fun index hlt => by
      rw [hc.prologue index hlt]
      exact ⟨rfl, rfl⟩
    apart := fun place place' id hid hid' =>
      (hc.standsAt hwords hid).1.unique (hc.standsAt hwords hid').1 }

/-- The entry of an instruction has the role that the instruction says. -/
theorem Sited.exists_role (hc : c.Sited) (hsize : c.unit.instructions.size ≤ UInt32.size)
    {place : Nat} {opcode : Opcode} {role : SiteRole} (hopcode : c.unit.instructions[place]? = some opcode)
    (hadmits : c.unit.Admits opcode) (hrole : SiteRole.ofOpcode? c.unit opcode = .ok (some role)) :
    ∃ id, c.entryAt? (UInt32.ofNat place) = some id ∧ (c.site id.index).role = role := by
  have hmem : ⟨UInt32.ofNat place, opcode, role.kind⟩ ∈ c.unit.sites :=
    CodeUnit.mem_sites_iff.2 ⟨place, hopcode, SiteRole.kind_of_ofOpcode? hadmits hrole, rfl⟩
  obtain ⟨index, hsite⟩ := List.getElem?_of_mem hmem
  have hresolved := (hc.resolves index _ hsite).role
  rw [hrole] at hresolved
  cases hresolved
  exact ⟨_, (hc.entryAt?_eq_some_iff hsize).2 ⟨index, _, hsite, rfl, rfl⟩, rfl⟩

/-- The operand of a name is resolved to it, if it is wide enough. -/
theorem nameAt_toUnit {d : CodeUnit.Draft} {index : Nat} {name : String} (hname : d.names[index]? = some name)
    (hindex : index < UInt32.size) (unit : UnitId) :
    (d.toUnit unit).nameAt (UInt32.ofNat index) = .ok name := by
  simp only [CodeUnit.nameAt, CodeUnit.Draft.toUnit, UInt32.toNat_ofNat_of_lt' hindex, hname]

open CodeUnit (Draft) in
/-- The entry of an instruction that the builder emitted with a name works on the name. -/
theorem Sited.exists_keyed (hc : c.Sited) (hsize : c.unit.instructions.size ≤ UInt32.size)
    (hadmits : ∀ opcode ∈ c.unit.instructions, c.unit.Admits opcode)
    (hnames : c.unit.names.size ≤ UInt32.size) {call : Draft.Call} {name : String}
    {opcode : UInt32 → Opcode} {role : SiteRole} {before after : List Draft.Call} {unit : UnitId}
    (hcall : ∀ d : Draft, d.apply call = (d.intern name).2.emit (opcode (d.intern name).1))
    (hrole : ∀ operand, c.unit.nameAt operand = .ok name →
      SiteRole.ofOpcode? c.unit (opcode operand) = .ok (some role))
    (hunit : c.unit = (Draft.empty.applyAll (before ++ call :: after)).toUnit unit) :
    ∃ id, c.entryAt? (UInt32.ofNat (Draft.empty.applyAll before).instructions.size) = some id ∧
      (c.site id.index).role = role := by
  obtain ⟨index, hopcode, hname⟩ := Draft.instruction_of_apply call name opcode hcall before after
  have hopcode' : c.unit.instructions[(Draft.empty.applyAll before).instructions.size]? =
      some (opcode (UInt32.ofNat index)) := by
    rw [hunit]
    exact hopcode
  have hname' : c.unit.nameAt (UInt32.ofNat index) = .ok name := by
    rw [hunit] at hnames ⊢
    exact nameAt_toUnit hname (Nat.lt_of_lt_of_le (Array.getElem?_eq_some_iff.1 hname).1 hnames) unit
  exact hc.exists_role hsize hopcode' (hadmits _ (Array.mem_of_getElem? hopcode')) (hrole _ hname')

end UnitCache

end InlineCache
