import BytecodeLowering.Proofs.Lower.Passes
import BytecodeLowering.Proofs.Lower.SlotPlan

/-!
# Constructors behind the type passes

What a layout depends on is fixed when all types are defined, so every
constructor has the code of its own layout in the end, whatever the order of the
types.
-/

namespace BytecodeLowering

/-! ## Layouts -/

/-- The field of a new slot, which comes after the fields that its owner
declares. -/
def Image.slotField (image : Image) (outline? : TypeIndex → Option Outline) :
    TypeIndex × Nat → FieldRef
  | (owner, position) =>
      ⟨((outline? owner).map (·.decl)).getD 0,
        ((image.object? owner).map (·.fields.length)).getD 0 + position⟩

def MethodSlot.entry (slot : MethodSlot) : FieldRef × Nat := (slot.field, slot.function)

namespace ObjectLayout

variable {image : Image} {index : TypeIndex} {registry : Registry}

theorem contribution_ok {owner : TypeIndex} {part : Contribution}
    (h : contribution image registry owner = .ok part) :
    part.owner = owner ∧ ∀ position,
      ⟨part.decl, part.fields.length + position⟩
        = image.slotField registry.outline? (owner, position) := by
  obtain ⟨object, hobject, h⟩ := ok_of_bind h
  obtain ⟨⟨declaration, shape⟩, hdeclaration, h⟩ := ok_of_bind h
  obtain ⟨fields, hfields, h⟩ := ok_of_bind h
  cases h
  have houtline := Registry.outline?_of_declaration (requireObject_ok hdeclaration)
  have hlength := (ok_of_mapM hfields).1
  rw [List.length_zipIdx] at hlength
  refine ⟨rfl, fun position => ?_⟩
  simp [Image.slotField, houtline, sourceObject_ok hobject, hlength]

theorem addSlot_ok {parts : List Contribution}
    (hparts : ∀ part ∈ parts, ∀ position, ⟨part.decl, part.fields.length + position⟩
      = image.slotField registry.outline? (part.owner, position))
    {slots found : List MethodSlot} {planned : PlannedSlot}
    (h : addSlot image registry parts slots planned = .ok found) :
    found.map (·.entry)
      = enter (image.slotField registry.outline?) (slots.map (·.entry)) planned := by
  unfold addSlot at h
  unfold enter PlannedSlot.place?
  cases hnew : planned.newSlot with
  | none =>
      simp only [hnew] at h
      cases h
      exact map_modify MethodSlot.entry (by exact fun _ => rfl) _ _
  | some position =>
      simp only [hnew] at h
      cases hpart : parts.find? (·.owner == planned.owner) with
      | none =>
          simp only [hpart] at h
          cases h
      | some part =>
          simp only [hpart] at h
          obtain ⟨signature, -, h⟩ := ok_of_bind h
          cases h
          have howner : part.owner = planned.owner := by simpa using List.find?_some hpart
          simp only [Option.map_some, List.map_append, List.map_cons, List.map_nil, MethodSlot.entry,
            ← howner, hparts part (List.mem_of_find?_eq_some hpart)]

theorem addSlots_ok {parts : List Contribution}
    (hparts : ∀ part ∈ parts, ∀ position, ⟨part.decl, part.fields.length + position⟩
      = image.slotField registry.outline? (part.owner, position))
    {slots found : List MethodSlot} {planned : List PlannedSlot}
    (h : planned.foldlM (addSlot image registry parts) slots = .ok found) :
    found.map (·.entry)
      = planned.foldl (enter (image.slotField registry.outline?)) (slots.map (·.entry)) := by
  induction planned generalizing slots with
  | nil =>
      cases h
      rfl
  | cons first planned ih =>
      rw [List.foldlM_cons] at h
      obtain ⟨middle, hmiddle, h⟩ := ok_of_bind h
      rw [ih h, addSlot_ok hparts hmiddle]
      rfl

theorem slots_table {chain : List TypeIndex} {parts : List Contribution}
    {planned : List PlannedSlot} {slots : List MethodSlot}
    (hparts : chain.mapM (contribution image registry) = .ok parts)
    (hslots : planned.foldlM (addSlot image registry parts) [] = .ok slots) :
    slots.map (·.entry) = planned.foldl (enter (image.slotField registry.outline?)) [] := by
  refine addSlots_ok ?_ hslots
  intro part hpart
  obtain ⟨owner, -, hcontribution⟩ := mem_of_mapM hparts hpart
  obtain ⟨rfl, hfield⟩ := contribution_ok hcontribution
  exact hfield

/-- Code that binds planned methods one after the other, with the fields of a
table. -/
inductive Binds (method? : Nat → Option MethodId) (table : List (FieldRef × Nat)) :
    List PlannedSlot → List Instr → Prop
  | nil : Binds method? table [] []
  | cons {planned : PlannedSlot} {rest : List PlannedSlot} {code : List Instr} {method : MethodId}
      {field : FieldRef} (hmethod : method? planned.prototype.function = some method)
      (hfield : table[planned.slot]?.map Prod.fst = some field)
      (hrest : Binds method? table rest code) :
      Binds method? table (planned :: rest)
        ([.ldArg 0, .ldArg 0, .newDelegate method true, .stFld field] ++ code)

theorem bindSlots_ok {name : String} {slots : List MethodSlot} {planned : List PlannedSlot}
    {bindings : List (List Instr)}
    (h : planned.mapM (bindSlot registry name slots) = .ok bindings) :
    Binds registry.method? (slots.map (·.entry)) planned bindings.flatten := by
  induction planned generalizing bindings with
  | nil =>
      cases h
      exact .nil
  | cons first planned ih =>
      obtain ⟨code, rest, hcode, hrest, rfl⟩ := ok_of_mapM_cons h
      unfold bindSlot at hcode
      dsimp only at hcode
      cases hmethod : registry.method? first.prototype.function with
      | none =>
          simp only [hmethod] at hcode
          cases hcode
      | some method =>
          cases hslot : slots[first.slot]? with
          | none =>
              simp only [hmethod, hslot] at hcode
              cases hcode
          | some slot =>
              simp only [hmethod, hslot] at hcode
              cases hcode
              exact .cons hmethod (by simp [hslot, MethodSlot.entry]) (ih hrest)

end ObjectLayout

def baseCode? (outline? : TypeIndex → Option Outline) : Option TypeIndex → Option (List Instr)
  | none => some []
  | some parent =>
      (outline? parent).map fun outline => [.ldArg 0, .call (.method outline.constructor)]

theorem ObjectLayout.callBase_ok {registry : Registry} {base : Option TypeIndex}
    {code : List Instr} (h : callBase registry base = .ok code) :
    baseCode? registry.outline? base = some code := by
  unfold callBase at h
  cases base with
  | none =>
      cases h
      rfl
  | some parent =>
      obtain ⟨⟨declaration, shape⟩, hfound, h⟩ := ok_of_bind h
      cases h
      rw [baseCode?, Registry.outline?_of_declaration (requireObject_ok hfound)]
      rfl

/-- A class whose slots are laid out and whose constructor has its code. -/
structure Assembled (image : Image) (registry : Registry) (index : TypeIndex)
    (chain : List TypeIndex) (planned : List ObjectLayout.PlannedSlot) (outline : Outline)
    (shape : ObjectShape) (base code : List Instr) : Prop where
  line : image.Lineage index chain
  plan : ObjectLayout.planSlots image chain = .ok planned
  outlined : registry.outline? index = some outline
  object : registry.object? index = some shape
  table : shape.slots.map (·.entry)
    = planned.foldl (ObjectLayout.enter (image.slotField registry.outline?)) []
  binds : ObjectLayout.Binds registry.method? (shape.slots.map (·.entry))
    (planned.filter (·.owner = index)) code
  based : baseCode? registry.outline? outline.base = some base
  body : (registry.target.method? outline.constructor).map (·.body) = some (base ++ code ++ [.ret])

theorem Registry.method?_of_functions {before after : Registry}
    (h : after.functions = before.functions) : after.method? = before.method? := by
  funext function
  simp only [method?, h]

section Assembling

variable {image : Image} {index : TypeIndex} {before after : Registry}

theorem ObjectLayout.compile_assembled {object : ObjectType} {result : Unit}
    (hbefore : before.Linked) (h : compile image index object before = .ok result after) :
    ∃ chain planned outline shape base code,
      Assembled image after index chain planned outline shape base code := by
  obtain ⟨old, shape, laid, hshape, hlayout, htarget, hchanges⟩ := compile_ok h
  obtain ⟨chain, parts, planned, found, base, bindings, hlaid⟩ := layout_ok hlayout
  -- the layout is computed between the two registries, which have the same outlines
  have houtlines : (before.update index
      fun declaration => { declaration with stage := .compiled }).outline? = after.outline? := by
    funext other
    rw [Registry.outline?_update_stage]
    exact (hchanges.outline? (by simp only [Declaration.outline?, hshape]) other).symm
  obtain ⟨declaration, hfound, hsame⟩ := hlaid.shape_ok
  rw [Registry.declaration?_update, if_pos rfl, hchanges.found] at hfound
  obtain rfl : { old with stage := .compiled } = declaration := Option.some.inj hfound
  obtain rfl : shape = found := Shape.object.inj (hshape.symm.trans hsame)
  have hbuilt : (after.target.method? shape.constructor).map (·.body) = some laid.body := by
    have hbuilds := hbefore.constructors index old hchanges.found shape.constructor
      (by simp [hshape, Shape.constructors])
    obtain ⟨method, hmethod, -⟩ := Option.bind_eq_some_iff.mp hbuilds
    rw [htarget, TargetModule.method?_modifyMethod, if_pos rfl, hmethod]
    rfl
  rw [hlaid.body_eq] at hbuilt
  have hobject : after.object? index
      = some { shape with fields := laid.fields, slots := laid.slots } := by
    simp only [Registry.object?, hchanges.changed]
  refine ⟨chain, planned, _, _, base, bindings.flatten, superChain_ok hlaid.chain_ok,
    hlaid.planned_ok, Registry.outline?_of_declaration ⟨hchanges.changed, rfl⟩, hobject, ?_, ?_, ?_,
    hbuilt⟩
  · rw [← houtlines]
    exact slots_table hlaid.parts_ok hlaid.slots_ok
  · rw [Registry.method?_of_functions hchanges.functions]
    exact bindSlots_ok hlaid.bindings_ok
  · rw [← houtlines]
    exact callBase_ok hlaid.base_ok

theorem Assembled.changes {other : TypeIndex} {chain : List TypeIndex}
    {planned : List ObjectLayout.PlannedSlot} {outline : Outline} {shape : ObjectShape}
    {base code : List Instr} {old new : Declaration}
    (h : Assembled image before other chain planned outline shape base code)
    (hbefore : before.Linked) (hchanges : Registry.Changes index old new before after)
    (hsame : new.outline? = old.outline?) (hother : other ≠ index) :
    Assembled image after other chain planned outline shape base code := by
  have houtlines : after.outline? = before.outline? := funext (hchanges.outline? hsame)
  have hmethods := Registry.method?_of_functions hchanges.functions
  refine ⟨h.line, h.plan, ?_, ?_, ?_, ?_, ?_, ?_⟩
  · rw [houtlines]
    exact h.outlined
  · rw [Registry.object?, hchanges.others other hother]
    exact h.object
  · rw [houtlines]
    exact h.table
  · rw [hmethods]
    exact h.binds
  · rw [houtlines]
    exact h.based
  · obtain ⟨declaration, hdeclaration, -, hconstructors⟩ :=
      Registry.declaration_of_outline h.outlined
    refine hchanges.target.body ?_ h.body
    exact hbefore.not_mem_constructors hchanges.found hdeclaration hother
      (by simp [hconstructors])

/-! ## The passes -/

structure Based (image : Image) (count : Nat) (registry : Registry) : Prop
    extends registry.Linked where
  bases : ∀ index < count, ∀ object, image.object? index = some object →
    ∃ outline, registry.outline? index = some outline ∧ outline.base = object.super

structure Assembling (image : Image) (outline? : TypeIndex → Option Outline) (count : Nat)
    (registry : Registry) : Prop extends registry.Linked where
  outlines : registry.outline? = outline?
  assembled : ∀ index < count, ∀ object, image.object? index = some object →
    ∃ chain planned outline shape base code,
      Assembled image registry index chain planned outline shape base code

theorem TypePasses.resolveAll_linked {result : Unit} (hbefore : before.Linked)
    (h : resolveAll image before = .ok result after) : after.Linked := by
  refine pass_keeps Registry.Linked h (fun _ hold => hold.enter) ?_ hbefore
  intro index source _ before _ after hbefore hstep
  rcases resolveType_ok hstep with rfl | ⟨declaration, hresolves, -⟩
  · exact hbefore
  · exact hbefore.resolves hresolves

theorem Image.lt_of_object {object : ObjectType} (h : image.object? index = some object) :
    index < image.types.length := by
  obtain ⟨source, hsource, -⟩ := Option.bind_eq_some_iff.mp h
  exact (List.getElem?_eq_some_iff.mp hsource).1

theorem Image.object?_of_source {source : SourceType} (h : image.types[index]? = some source) :
    image.object? index = source.object? := by
  rw [Image.object?, Image.type?, h, Option.bind_some]

theorem Image.source_of_object {source : SourceType} {object : ObjectType}
    (hsource : image.types[index]? = some source) (hobject : image.object? index = some object) :
    source = .obj object ∨ source = .struct object := by
  rw [Image.object?_of_source hsource] at hobject
  cases source <;> cases hobject
  · exact Or.inl rfl
  · exact Or.inr rfl

theorem ObjectLayout.define_outline {object : ObjectType} {result : Unit}
    (h : define image index object before = .ok result after) :
    ∃ outline, after.outline? index = some outline ∧ outline.base = object.super := by
  obtain ⟨old, shape, _, _, _, -, -, -, -, -, hchanges⟩ := define_ok h
  exact ⟨_, Registry.outline?_of_declaration ⟨hchanges.changed, rfl⟩, rfl⟩

theorem TypePasses.defineType_based {source : SourceType}
    (hsource : image.types[index]? = some source) {result : Unit}
    (hbefore : Based image index before)
    (h : defineType image (source, index) before = .ok result after) :
    Based image (index + 1) after := by
  have hlinked : after.Linked := by
    rcases defineType_ok h with rfl | ⟨old, new, hchanges⟩
    · exact hbefore.toLinked
    · exact hbefore.toLinked.changes hchanges
  refine ⟨hlinked, ?_⟩
  intro other hother object hobject
  rcases Nat.lt_succ_iff_lt_or_eq.mp hother with hearlier | rfl
  · have hsame : after.outline? other = before.outline? other := by
      rcases defineType_ok h with rfl | ⟨old, new, hchanges⟩
      · rfl
      · simp only [Registry.outline?, hchanges.others other (Nat.ne_of_lt hearlier)]
    rw [hsame]
    exact hbefore.bases other hearlier object hobject
  · rcases Image.source_of_object hsource hobject with rfl | rfl
    · exact ObjectLayout.define_outline h
    · exact ObjectLayout.define_outline h

theorem TypePasses.defineAll_based {result : Unit} (hbefore : before.Linked)
    (h : defineAll image before = .ok result after) : Based image image.types.length after := by
  refine pass_positions (Based image) h ?_ ?_ ⟨hbefore, nofun⟩
  · exact fun registry hold => ⟨hold.toLinked.enter, hold.bases⟩
  · exact fun index source hsource _ _ _ hbefore hstep => defineType_based hsource hbefore hstep

theorem TypePasses.compileType_assembling {source : SourceType}
    {outline? : TypeIndex → Option Outline} (hsource : image.types[index]? = some source)
    {result : Unit} (hbefore : Assembling image outline? index before)
    (h : compileType image (source, index) before = .ok result after) :
    Assembling image outline? (index + 1) after := by
  have hothers {other : TypeIndex} (hother : other < index) {object : ObjectType}
      (hobject : image.object? other = some object) :
      ∃ chain planned outline shape base code,
        Assembled image after other chain planned outline shape base code := by
    obtain ⟨chain, planned, outline, shape, base, code, hassembled⟩ :=
      hbefore.assembled other hother object hobject
    rcases compileType_ok h with rfl | ⟨old, new, -, hchanges, hsame⟩
    · exact ⟨chain, planned, outline, shape, base, code, hassembled⟩
    · exact ⟨chain, planned, outline, shape, base, code,
        hassembled.changes hbefore.toLinked hchanges hsame (Nat.ne_of_lt hother)⟩
  have hlinked : after.Linked ∧ after.outline? = before.outline? := by
    rcases compileType_ok h with rfl | ⟨old, new, -, hchanges, hsame⟩
    · exact ⟨hbefore.toLinked, rfl⟩
    · exact ⟨hbefore.toLinked.changes hchanges, funext (hchanges.outline? hsame)⟩
  refine ⟨hlinked.1, hlinked.2.trans hbefore.outlines, ?_⟩
  intro other hother object hobject
  rcases Nat.lt_succ_iff_lt_or_eq.mp hother with hearlier | rfl
  · exact hothers hearlier hobject
  · rcases Image.source_of_object hsource hobject with rfl | rfl
    · exact ObjectLayout.compile_assembled hbefore.toLinked h
    · exact ObjectLayout.compile_assembled hbefore.toLinked h

structure AllAssembled (image : Image) (registry : Registry) : Prop extends registry.Linked where
  assembled : ∀ index object, image.object? index = some object →
    ∃ chain planned outline shape base code, outline.base = object.super ∧
      Assembled image registry index chain planned outline shape base code

theorem TypePasses.run_assembled {result : Unit} (hbefore : before.Linked)
    (h : run image before = .ok result after) : AllAssembled image after := by
  obtain ⟨resolved, defined, hresolve, hdefine, hcompile⟩ := run_ok h
  have hresolved := resolveAll_linked hbefore hresolve
  have hdefined := defineAll_based hresolved hdefine
  have hcompiled : Assembling image defined.outline? image.types.length after := by
    refine pass_positions (Assembling image defined.outline?) hcompile ?_ ?_
      ⟨hdefined.toLinked, rfl, nofun⟩
    · exact fun registry hold => ⟨hold.toLinked.enter, hold.outlines, nofun⟩
    · exact fun index source hsource _ _ _ hbefore hstep =>
        compileType_assembling hsource hbefore hstep
  refine ⟨hcompiled.toLinked, ?_⟩
  intro index object hobject
  have hindex : index < image.types.length := by
    obtain ⟨source, hsource, -⟩ := Option.bind_eq_some_iff.mp hobject
    exact (List.getElem?_eq_some_iff.mp hsource).1
  obtain ⟨chain, planned, outline, shape, base, code, hassembled⟩ :=
    hcompiled.assembled index hindex object hobject
  obtain ⟨found, hfound, hbase⟩ := hdefined.bases index hindex object hobject
  obtain rfl : outline = found := by
    rw [← hcompiled.outlines, hassembled.outlined] at hfound
    exact Option.some.inj hfound
  exact ⟨chain, planned, outline, shape, base, code, hbase, hassembled⟩

end Assembling

end BytecodeLowering
