import BytecodeLowering.Lower.Program
import BytecodeLowering.Proofs.Lower.ClassFields
import BytecodeLowering.Proofs.Target.Construction

/-!
# Virtual dispatch

A constructor that has run has bound every slot of its type and of the super
types, each to the last method along the line that takes the slot, and has
written no other field.
-/

namespace BytecodeLowering

/-- The function of the last method along a line that takes a slot. -/
def Image.lastTaking? (image : Image) (chain : List TypeIndex) (slot : Nat) : Option Nat :=
  ((image.prototypes chain).filter (·.slot = (slot : Int))).getLast?.map (·.function)

namespace ObjectLayout

/-! ## Binding slots -/

/-- The field of each slot holds a delegate of the instance over the method of
the function that is bound to the slot. -/
def Bound (method? : Nat → Option MethodId) (table : List (FieldRef × Nat))
    (fields : BuiltFields) : Prop :=
  ∀ (slot : Nat) entry, table[slot]? = some entry → ∃ method,
    method? entry.2 = some method ∧ fields entry.1 = some (.bound method)

variable {method? : Nat → Option MethodId} {fieldOf : TypeIndex × Nat → FieldRef}
  {table whole : List (FieldRef × Nat)} {planned : List PlannedSlot} {stop : Nat}
  {fields : BuiltFields}

theorem Bound.entered {method : PlannedSlot} {field : FieldRef} {target : MethodId}
    (h : Bound method? table fields)
    (hfills : Fills table.length (method :: planned) stop)
    (hdistinct : ((enter fieldOf table method).map Prod.fst).Nodup)
    (hmethod : method? method.prototype.function = some target)
    (hfield : (enter fieldOf table method)[method.slot]?.map Prod.fst = some field) :
    Bound method? (enter fieldOf table method) (fields.store field (.bound target)) := by
  obtain ⟨-, ⟨found, hentered⟩, hothers⟩ := enter_ok fieldOf hfills
  obtain rfl : found = field := by simpa [hentered] using hfield
  intro slot entry hentry
  by_cases hslot : slot = method.slot
  · rw [hslot, hentered] at hentry
    cases hentry
    exact ⟨target, hmethod, fields.store_self _ _⟩
  · have hearlier := hentry
    rw [hothers slot hslot] at hearlier
    obtain ⟨other, hother, hbound⟩ := h slot entry hearlier
    refine ⟨other, hother, (fields.store_other _ ?_).trans hbound⟩
    intro hsame
    have hhere : ((enter fieldOf table method).map Prod.fst)[slot]? = some entry.1 := by
      rw [List.getElem?_map, hentry, Option.map_some]
    have hthere : ((enter fieldOf table method).map Prod.fst)[method.slot]? = some entry.1 := by
      rw [List.getElem?_map, hfield, hsame]
    exact hslot ((List.getElem?_inj (List.getElem?_eq_some_iff.mp hhere).1 hdistinct).mp
      (hhere.trans hthere.symm))

theorem Binds.run (call : MethodId → BuiltFields → Option BuiltFields) {code : List Instr}
    (h : Binds method? whole planned code) (hwhole : planned.foldl (enter fieldOf) table = whole)
    (hfills : Fills table.length planned stop) (hdistinct : (whole.map Prod.fst).Nodup)
    (hbound : Bound method? table fields) (rest : List Instr) :
    ∃ after, buildWith call (code ++ rest) [] fields = buildWith call rest [] after ∧
      Bound method? whole after ∧
      ∀ field, field ∉ whole.map Prod.fst → after field = fields field := by
  -- the fields of the whole table are fixed, and the part that is entered so far is bound
  induction h generalizing table fields with
  | nil =>
      subst hwhole
      exact ⟨fields, rfl, hbound, fun _ _ => rfl⟩
  | @cons method others code target field hmethod hfield _ ih =>
      obtain ⟨hrest, ⟨found, hentered⟩, -⟩ := enter_ok fieldOf hfills
      rw [List.foldl_cons] at hwhole
      have hkept : (enter fieldOf table method).map Prod.fst <+: whole.map Prod.fst := by
        rw [← hwhole, fields_table]
        exact List.prefix_append _ _
      have hplace : (enter fieldOf table method)[method.slot]?.map Prod.fst = some found := by
        rw [hentered, Option.map_some]
      have hsame := getElem?_of_begins hkept ((List.getElem?_map ..).trans hplace)
      rw [List.getElem?_map, hfield] at hsame
      cases hsame
      obtain ⟨after, hrun, hafter, hframe⟩ := ih hwhole hrest
        (hbound.entered hfills (hdistinct.sublist hkept.sublist) hmethod hplace)
      refine ⟨after, ?_, hafter, ?_⟩
      · rw [List.append_assoc, buildWith_bind]
        exact hrun
      · intro other hother
        rw [hframe other hother]
        refine BuiltFields.store_other _ ?_
        rintro rfl
        rw [← List.getElem?_map] at hfield
        exact hother (List.mem_of_getElem? hfield)

end ObjectLayout

/-! ## Whole lines -/

section Lines

open ObjectLayout

variable {image : Image} {registry : Registry} {index : TypeIndex} {chain : List TypeIndex}
  {planned : List ObjectLayout.PlannedSlot} {outline : Outline} {shape : ObjectShape}
  {base code : List Instr}

theorem AllAssembled.slotField_inj (h : AllAssembled image registry)
    {first second : TypeIndex × Nat} {one other : ObjectType}
    (hone : image.object? first.1 = some one) (hother : image.object? second.1 = some other)
    (hsame : image.slotField registry.outline? first = image.slotField registry.outline? second) :
    first = second := by
  obtain ⟨_, _, outline, _, _, _, -, hfirst⟩ := h.assembled first.1 one hone
  obtain ⟨_, _, outline', _, _, _, -, hsecond⟩ := h.assembled second.1 other hother
  obtain ⟨owner, position⟩ := first
  obtain ⟨owner', position'⟩ := second
  simp only [Image.slotField, hfirst.outlined, hsecond.outlined, Option.map_some, Option.getD_some,
    FieldRef.mk.injEq] at hsame
  have hdecl := Registry.decl?_of_outline hfirst.outlined
  rw [hsame.1] at hdecl
  obtain rfl : owner = owner' :=
    h.toLinked.eq_of_decl? hdecl (Registry.decl?_of_outline hsecond.outlined)
  have hposition : position = position' := by omega
  rw [hposition]

theorem AllAssembled.nodup_fields (h : AllAssembled image registry)
    (hassembled : Assembled image registry index chain planned outline shape base code) :
    ((shape.slots.map (·.entry)).map Prod.fst).Nodup := by
  have hplan := planFrom_ok hassembled.plan
  rw [hassembled.table, fields_table, List.map_nil, List.nil_append, List.nodup_iff_pairwise_ne,
    List.pairwise_map]
  refine (hplan.distinct hassembled.line.nodup).imp_of_mem ?_
  intro first second hfirst hsecond hne hsame
  obtain ⟨_, hupper, -⟩ := hassembled.line.above (hplan.places first hfirst)
  obtain ⟨_, hlower, -⟩ := hassembled.line.above (hplan.places second hsecond)
  obtain ⟨one, hone⟩ := hupper.object
  obtain ⟨other, hother⟩ := hlower.object
  exact hne (h.slotField_inj hone hother hsame)

theorem AllAssembled.base_eq (h : AllAssembled image registry)
    (hassembled : Assembled image registry index chain planned outline shape base code)
    {object : ObjectType} (hobject : image.object? index = some object) :
    outline.base = object.super := by
  obtain ⟨_, _, found, _, _, _, hbase, hfound⟩ := h.assembled index object hobject
  obtain rfl : outline = found := Option.some.inj (hassembled.outlined.symm.trans hfound.outlined)
  exact hbase

theorem Assembled.fields_above
    (h : Assembled image registry index chain planned outline shape base code)
    {parent : TypeIndex} {upper : List TypeIndex} {planned' : List PlannedSlot}
    {outline' : Outline} {shape' : ObjectShape} {base' code' : List Instr}
    (hparent : Assembled image registry parent upper planned' outline' shape' base' code')
    (hupper : upper <+: chain) :
    (shape'.slots.map (·.entry)).map Prod.fst <+: (shape.slots.map (·.entry)).map Prod.fst := by
  obtain ⟨lower, rfl⟩ := hupper
  obtain ⟨first, _, rest, hfirst, -, -, rfl⟩ := planFrom_append h.plan
  obtain rfl : planned' = first := Except.ok.inj (hparent.plan.symm.trans hfirst)
  rw [h.table, hparent.table, List.foldl_append, fields_table _ rest]
  exact List.prefix_append _ _

theorem AllAssembled.construct_own (h : AllAssembled image registry) (upper : List TypeIndex)
    {first : List ObjectLayout.PlannedSlot} {depth : Nat} {start fields : BuiltFields}
    (hassembled : Assembled image registry index (upper ++ [index]) planned outline shape base code)
    (hupper : index ∉ upper) (hfirst : ObjectLayout.planSlots image upper = .ok first)
    (hbase : ∀ rest, buildWith (registry.target.construct depth) (base ++ rest) [] start
      = buildWith (registry.target.construct depth) rest [] fields)
    (hbound : Bound registry.method?
      (first.foldl (enter (image.slotField registry.outline?)) []) fields) :
    ∃ after, registry.target.construct (depth + 1) outline.constructor start = some after ∧
      Bound registry.method? (shape.slots.map (·.entry)) after ∧
      ∀ field, field ∉ (shape.slots.map (·.entry)).map Prod.fst → after field = fields field := by
  obtain ⟨found, middle, own, hfound, hfills, hown, rfl⟩ := planFrom_append hassembled.plan
  obtain rfl : first = found := Except.ok.inj (hfirst.symm.trans hfound)
  have hkind : (registry.target.method? outline.constructor).map (·.kind)
      = some .constructor := by
    obtain ⟨declaration, hdeclaration, -, hconstructors⟩ :=
      Registry.declaration_of_outline hassembled.outlined
    exact TargetModule.kind_of_builds?
      (h.constructors index declaration hdeclaration _ (by simp [hconstructors]))
  have hmine : (first ++ own).filter (·.owner = index) = own := by
    have hothers : first.filter (·.owner = index) = [] := by
      refine List.filter_eq_nil_iff.mpr fun method hmethod hindex => hupper ?_
      rw [← of_decide_eq_true hindex]
      exact (planFrom_ok hfirst).owned method hmethod
    have hown : own.filter (·.owner = index) = own := by
      refine List.filter_eq_self.mpr fun method hmethod => decide_eq_true ?_
      exact List.mem_singleton.mp ((planFrom_ok hown).owned method hmethod)
    rw [List.filter_append, hothers, hown, List.nil_append]
  have hbinds := hassembled.binds
  rw [hmine] at hbinds
  have hwhole : own.foldl (enter (image.slotField registry.outline?))
      (first.foldl (enter (image.slotField registry.outline?)) [])
        = shape.slots.map (·.entry) := by
    rw [hassembled.table, List.foldl_append]
  obtain ⟨stop, hownFills⟩ := planFrom_fills hown
  have hlength : (first.foldl (enter (image.slotField registry.outline?)) []).length = middle :=
    length_table _ hfills
  rw [← hlength] at hownFills
  obtain ⟨after, hrun, hafter, hframe⟩ :=
    hbinds.run (registry.target.construct depth) hwhole hownFills (h.nodup_fields hassembled)
      hbound [.ret]
  refine ⟨after, ?_, hafter, hframe⟩
  rw [TargetModule.construct_of_body depth hkind hassembled.body, List.append_assoc, hbase, hrun]
  rfl

/-- A constructor binds the slots of its class and writes no other field. -/
theorem AllAssembled.construct_ok (h : AllAssembled image registry)
    (hassembled : Assembled image registry index chain planned outline shape base code)
    (fields : BuiltFields) :
    ∃ after, registry.target.construct chain.length outline.constructor fields = some after ∧
      Bound registry.method? (shape.slots.map (·.entry)) after ∧
      ∀ field, field ∉ (shape.slots.map (·.entry)).map Prod.fst → after field = fields field := by
  -- along the line: the constructor of the base has bound all slots but the own ones
  have hline := hassembled.line
  induction hline generalizing planned outline shape base code with
  | root hobject hsuper =>
      have hbased := hassembled.based
      rw [h.base_eq hassembled hobject, hsuper] at hbased
      cases hbased
      exact h.construct_own [] hassembled (by simp) rfl (fun _ => rfl) nofun
  | @derived index parent object upper hobject hsuper hparent ih =>
      obtain ⟨source, hsource⟩ := hparent.object
      obtain ⟨found, _, outline', _, _, _, -, hupper⟩ := h.assembled parent source hsource
      obtain rfl : upper = found := hparent.unique hupper.line
      obtain ⟨middle, hmiddle, hbound, hframe⟩ := ih hupper
      have hbased := hassembled.based
      rw [h.base_eq hassembled hobject, hsuper, baseCode?, hupper.outlined] at hbased
      cases hbased
      rw [hupper.table] at hbound
      obtain ⟨after, hafter, hbound, hkept⟩ := h.construct_own upper hassembled
        (hparent.not_mem hassembled.line) hupper.plan (fun rest => buildWith_base rest hmiddle)
        hbound
      rw [List.length_append, List.length_singleton]
      refine ⟨after, hafter, hbound, ?_⟩
      intro field hfield
      have hbegins := hassembled.fields_above hupper (List.prefix_append _ _)
      rw [hkept field hfield, hframe field fun hmem => hfield (hbegins.subset hmem)]

theorem Assembled.function_at
    (h : Assembled image registry index chain planned outline shape base code) (slot : Nat) :
    (shape.slots.map (·.entry))[slot]?.map Prod.snd = image.lastTaking? chain slot := by
  obtain ⟨stop, hfills⟩ := planFrom_fills h.plan
  rw [h.table, functions_table _ [] hfills, Image.lastTaking?, ← (planFrom_ok h.plan).taken slot]
  simp [List.getLast?_map, Function.comp_def]

end Lines

/-- Every slot of a type and of its super types is bound to the last method
along the line that takes it, and other fields are as before. -/
structure Dispatches (image : Image) (registry : Registry) (chain : List TypeIndex)
    (shape : ObjectShape) (before after : BuiltFields) : Prop where
  bound : ∀ parent ∈ chain, ∃ above, registry.object? parent = some above ∧
    ∀ (number : Nat) slot, above.slots[number]? = some slot → ∃ function method,
      image.lastTaking? chain number = some function ∧
      shape.slots[number]?.map (·.function) = some function ∧
      registry.method? function = some method ∧ after slot.field = some (.bound method)
  others : ∀ field, (∀ slot ∈ shape.slots, slot.field ≠ field) → after field = before field

/-- The constructor of every object type comes to an end and binds the slots
of the whole line. -/
theorem TypePasses.dispatches_of_run {image : Image} {settings : Settings} {registry : Registry}
    (h : run image (image.registry settings) = .ok () registry) {index : TypeIndex}
    {object : ObjectType} (hobject : image.object? index = some object) :
    ∃ chain shape, image.Lineage index chain ∧ registry.object? index = some shape ∧
      ∀ fields, ∃ after,
        registry.target.construct chain.length shape.constructor fields = some after ∧
          Dispatches image registry chain shape fields after := by
  have hall : AllAssembled image registry := run_assembled (Registry.create_linked _ _ _) h
  obtain ⟨chain, _, outline, shape, _, _, -, hassembled⟩ := hall.assembled index object hobject
  refine ⟨chain, shape, hassembled.line, hassembled.object, ?_⟩
  intro fields
  obtain ⟨after, hafter, hbound, hframe⟩ := hall.construct_ok hassembled fields
  rw [← Registry.constructor_of_object hassembled.object hassembled.outlined] at hafter
  refine ⟨after, hafter, ?_, ?_⟩
  · intro parent hparent
    obtain ⟨upper, hline, hupper⟩ := hassembled.line.above hparent
    obtain ⟨source, hsource⟩ := hline.object
    obtain ⟨found, _, _, above, _, _, -, habove⟩ := hall.assembled parent source hsource
    obtain rfl : upper = found := hline.unique habove.line
    refine ⟨above, habove.object, ?_⟩
    intro number slot hslot
    -- the slot of the super type has the same number and the same field here
    have hfield : ((above.slots.map (·.entry)).map Prod.fst)[number]? = some slot.field := by
      simp [hslot, MethodSlot.entry]
    replace hfield := getElem?_of_begins (hassembled.fields_above habove hupper) hfield
    rw [List.getElem?_map, List.getElem?_map, Option.map_map] at hfield
    obtain ⟨own, hown, hsame⟩ := Option.map_eq_some_iff.mp hfield
    have hentry : (shape.slots.map (·.entry))[number]? = some own.entry := by
      rw [List.getElem?_map, hown, Option.map_some]
    obtain ⟨method, hmethod, hfound⟩ := hbound number own.entry hentry
    have hlast := hassembled.function_at number
    rw [hentry, Option.map_some] at hlast
    rw [show own.entry.1 = slot.field from hsame] at hfound
    exact ⟨own.function, method, hlast.symm, by rw [hown, Option.map_some], hmethod, hfound⟩
  · intro field hfield
    refine hframe field ?_
    intro hmem
    obtain ⟨entry, hentry, rfl⟩ := List.mem_map.mp hmem
    obtain ⟨slot, hslot, rfl⟩ := List.mem_map.mp hentry
    exact hfield slot hslot rfl

def slotFunction (index : Nat) : FunctionDef where
  index := index
  type := 1
  registers := []
  operations := []
  lines := none
  names := []

/-- A derived type, in front of its base, that fills an inherited slot twice and
introduces another. -/
def overrideImage : Image where
  version := 4
  types := [
    .obj ⟨"Derived", some 2, none, [], [⟨"f", 1, 0⟩, ⟨"g", 0, 1⟩, ⟨"f", 2, 0⟩, ⟨"h", 1, -1⟩], []⟩,
    .func ⟨[2], 3⟩,
    .obj ⟨"Base", none, none, [⟨"x", 3⟩], [⟨"f", 0, 0⟩], []⟩,
    .i32]
  functions := [slotFunction 0, slotFunction 1, slotFunction 2]
  functionTable := FunctionTable.build [0, 1, 2] []

theorem dispatches_of_run_override :
    ∃ registry chain shape,
      TypePasses.run overrideImage (overrideImage.registry {}) = .ok () registry ∧
      (overrideImage.object? 0).isSome ∧ overrideImage.Lineage 0 chain ∧
      registry.object? 0 = some shape ∧ ∀ fields, ∃ after,
        registry.target.construct chain.length shape.constructor fields = some after ∧
          Dispatches overrideImage registry chain shape fields after := by
  have hok : (match TypePasses.run overrideImage (overrideImage.registry {}) with
      | .ok _ _ => true
      | .error _ _ => false) = true := by
    decide +kernel
  cases hrun : TypePasses.run overrideImage (overrideImage.registry {}) with
  | error error registry =>
      rw [hrun] at hok
      cases hok
  | ok result registry =>
      obtain ⟨chain, shape, hline, hshape, hconstruct⟩ :=
        TypePasses.dispatches_of_run hrun (show overrideImage.object? 0 = some _ from rfl)
      exact ⟨registry, chain, shape, rfl, rfl, hline, hshape, hconstruct⟩

end BytecodeLowering
