import BytecodeLowering.Proofs.Body.Names
import BytecodeLowering.Proofs.Lower.Dispatch
import BytecodeLowering.Proofs.Lower.Separation
import BytecodeLowering.Proofs.Target.ObjectClasses

/-!
# The classes of object types

When the passes over the type table are over, the class of every object type has
a constructor that runs, every field of the flattened layout is a field of the
instances, and different positions of the layout are different fields.
-/

namespace BytecodeLowering

/-! ## Parameters of constructors -/

def Registry.Parameterless (index : TypeIndex) (registry : Registry) : Prop :=
  ∀ declaration, registry.declaration? index = some declaration →
    ∀ constructor ∈ declaration.shape.constructors,
      (registry.target.method? constructor).map (·.signature) = some ⟨[], .void⟩

section Signatures

variable {image : Image} {index : TypeIndex} {object : ObjectType} {before after : Registry}
  {result : Unit}

theorem Registry.Parameterless.keep (h : before.Parameterless index) (hlinked : before.Linked)
    (huntouched : before.Untouched index after) : after.Parameterless index := by
  intro declaration hfound constructor hconstructor
  rw [huntouched.declaration] at hfound
  rw [huntouched.codes _ (hlinked.constructors index declaration hfound constructor hconstructor)]
  exact h declaration hfound constructor hconstructor

theorem Registry.Parameterless.of_changes {old new : Declaration}
    (h : before.Parameterless index) (hchanges : Registry.Changes index old new before after)
    (hcodes : new.shape.constructors = old.shape.constructors)
    (hmethods : ∀ id, (after.target.method? id).map (·.signature)
      = (before.target.method? id).map (·.signature)) : after.Parameterless index := by
  intro declaration hfound constructor hconstructor
  obtain rfl := Option.some.inj (hchanges.changed.symm.trans hfound)
  rw [hmethods]
  exact h old hchanges.found constructor (hcodes ▸ hconstructor)

namespace ObjectLayout

theorem resolve_parameterless (h : resolve index object before = .ok result after) :
    after.Parameterless index := by
  obtain ⟨declaration, hresolves, -⟩ := resolve_ok h
  intro found hfound constructor hconstructor
  rw [Registry.declaration?_of_resolves hresolves, if_pos rfl] at hfound
  cases hfound
  exact (hresolves.constructors constructor hconstructor).2

theorem define_parameterless (hbefore : before.Parameterless index)
    (h : define image index object before = .ok result after) : after.Parameterless index := by
  obtain ⟨old, shape, _, _, _, hshape, -, -, -, htarget, hchanges⟩ := define_ok h
  refine hbefore.of_changes hchanges (by rw [hshape]; rfl) fun id => ?_
  rw [htarget]
  rfl

theorem compile_parameterless (hbefore : before.Parameterless index)
    (h : compile image index object before = .ok result after) : after.Parameterless index := by
  obtain ⟨old, shape, laid, hshape, -, htarget, hchanges⟩ := compile_ok h
  have hrecodes : before.target.Recodes (fun _ => True) after.target := by
    rw [htarget]
    exact .setBody _ _ trivial
  exact hbefore.of_changes hchanges (by rw [hshape]; rfl) hrecodes.signature?

end ObjectLayout

theorem TypePasses.run_parameterless (hobject : image.object? index = some object)
    (hbefore : before.Linked) (h : run image before = .ok result after) :
    after.Parameterless index := by
  obtain ⟨source, hsource, hkind⟩ := Option.bind_eq_some_iff.mp hobject
  obtain ⟨resolved, defined, hresolve, hdefine, hcompile⟩ := run_ok h
  have hkeep (first second : Registry) (hlinked : first.Linked)
      (hapart : first.Untouched index second ∧ second.decl? = first.decl?)
      (hheld : first.Parameterless index) : second.Parameterless index :=
    hheld.keep hlinked hapart.1
  have hresolved : resolved.Linked ∧ resolved.Parameterless index := by
    refine pass_single (fun _ => True) (Registry.Parameterless index) (Registry.Untouched index)
      (fun _ _ _ _ => id) (fun first second hlinked huntouched hheld => hheld.keep hlinked huntouched)
      (fun _ => .enter _) (fun _ _ _ _ _ hlinked hne hstep => resolveType_untouched hlinked hstep hne)
      hsource ?_ ⟨hbefore, trivial⟩ hresolve
    intro first _ second hlinked _ hstep
    refine ⟨?_, ?_⟩
    · rcases resolveType_ok hstep with rfl | ⟨declaration, hresolves, -⟩
      · exact hlinked
      · exact hlinked.resolves hresolves
    · cases source <;> cases hkind <;> exact ObjectLayout.resolve_parameterless hstep
  have hdefined : defined.Linked ∧ defined.Parameterless index := by
    refine pass_single _ _ _ hkeep hkeep (fun _ => ⟨.enter _, rfl⟩)
      (fun _ _ _ _ _ hlinked hne hstep => defineType_untouched hlinked hstep hne) hsource ?_
      hresolved hdefine
    intro first _ second hlinked hheld hstep
    refine ⟨?_, ?_⟩
    · rcases defineType_ok hstep with rfl | ⟨old, new, hchanges⟩
      · exact hlinked
      · exact hlinked.changes hchanges
    · cases source <;> cases hkind <;> exact ObjectLayout.define_parameterless hheld hstep
  refine (pass_single _ _ _ hkeep hkeep (fun _ => ⟨.enter _, rfl⟩)
    (fun _ _ _ _ _ hlinked hne hstep => compileType_untouched hlinked hstep hne) hsource ?_
    hdefined hcompile).2
  intro first _ second hlinked hheld hstep
  refine ⟨?_, ?_⟩
  · rcases compileType_ok hstep with rfl | ⟨old, new, -, hchanges, -⟩
    · exact hlinked
    · exact hlinked.changes hchanges
  · cases source <;> cases hkind <;> exact ObjectLayout.compile_parameterless hheld hstep

end Signatures

/-! ## Lines of classes -/

section Lines

open ObjectLayout

variable {image : Image} {registry : Registry} {index : TypeIndex} {chain : List TypeIndex}
  {planned : List PlannedSlot} {outline : Outline} {shape : ObjectShape} {base code : List Instr}

theorem Registry.Anchored.base? (h : registry.Anchored) {parent : TypeIndex} {above : Outline}
    (houtline : registry.outline? index = some outline) (hbase : outline.base = some parent)
    (habove : registry.outline? parent = some above) :
    registry.target.base? outline.decl = some above.decl := by
  obtain ⟨declaration, hfound, hself⟩ := Option.bind_eq_some_iff.mp houtline
  exact ((h.anchors index declaration hfound).base outline parent hself hbase).trans
    (decl?_of_outline habove)

variable (h : AllAssembled image registry) (hanchored : registry.Anchored)

include h hanchored

/-- The class of a type derives from the classes of its super types. -/
theorem AllAssembled.derivesFrom (hline : image.Lineage index chain) {owner : TypeIndex}
    (howner : owner ∈ chain) {above : Outline} (houtline : registry.outline? index = some outline)
    (habove : registry.outline? owner = some above) :
    registry.target.derivesFrom outline.decl above.decl = true := by
  induction hline generalizing outline with
  | root hobject hsuper =>
      obtain rfl := List.mem_singleton.mp howner
      obtain rfl := Option.some.inj (houtline.symm.trans habove)
      exact TargetModule.derivesFrom_self _
  | @derived index parent object upper hobject hsuper hparent ih =>
      rcases List.mem_append.mp howner with hupper | hself
      · obtain ⟨source, hsource⟩ := hparent.object
        obtain ⟨_, _, next, _, _, _, -, hnext⟩ := h.assembled parent source hsource
        obtain ⟨_, _, found, _, _, _, hbase, hfound⟩ := h.assembled index object hobject
        obtain rfl := Option.some.inj (houtline.symm.trans hfound.outlined)
        have hclass := hanchored.base? houtline (hbase.trans hsuper) hnext.outlined
        exact TargetModule.derivesFrom_trans (TargetModule.derivesFrom_base hclass)
          (ih hupper hnext.outlined)
      · obtain rfl := List.mem_singleton.mp hself
        obtain rfl := Option.some.inj (houtline.symm.trans habove)
        exact TargetModule.derivesFrom_self _

theorem AllAssembled.hasField_slot
    (hassembled : Assembled image registry index chain planned outline shape base code)
    {field : FieldRef} (hfield : field ∈ (shape.slots.map (·.entry)).map Prod.fst) :
    registry.target.hasField outline.decl field = true := by
  obtain ⟨_, hentry, rfl⟩ := List.mem_map.mp hfield
  obtain ⟨slot, hslot, rfl⟩ := List.mem_map.mp hentry
  obtain ⟨decl, -, -, -, hslots⟩ := hanchored.object hassembled.object
  have hsome : (registry.target.field? slot.entry.1).isSome = true := (hslots slot hslot).isSome
  rw [TargetModule.hasField, hsome, Bool.and_true]
  rw [hassembled.table, fields_table, List.map_nil, List.nil_append] at hfield
  obtain ⟨⟨owner, position⟩, hplace, hsame⟩ := List.mem_map.mp hfield
  have howner := (planFrom_ok hassembled.plan).places _ hplace
  obtain ⟨object, hobject⟩ := Option.isSome_iff_exists.mp (hassembled.line.object_of_mem howner)
  obtain ⟨_, _, above, _, _, _, -, habove⟩ := h.assembled owner object hobject
  have hderives := h.derivesFrom hanchored hassembled.line howner hassembled.outlined habove.outlined
  rw [Image.slotField, habove.outlined] at hsame
  rw [← hsame]
  exact hderives

omit h hanchored in
theorem ObjectLayout.Binds.bindings {method? : Nat → Option MethodId}
    {table : List (FieldRef × Nat)} (hbinds : Binds method? table planned code) :
    ∃ bindings, (∀ binding ∈ bindings, binding.1 ∈ table.map Prod.fst) ∧
      code = bindingCode bindings := by
  induction hbinds with
  | nil => exact ⟨[], nofun, rfl⟩
  | @cons method rest code target field _ hfield _ ih =>
      obtain ⟨bindings, hmem, rfl⟩ := ih
      rw [← List.getElem?_map] at hfield
      exact ⟨(field, target) :: bindings,
        List.forall_mem_cons.mpr ⟨List.mem_of_getElem? hfield, hmem⟩, rfl⟩

theorem AllAssembled.initializes
    (hassembled : Assembled image registry index chain planned outline shape base code)
    (hplain : registry.Parameterless index) :
    ∃ method, registry.target.Initializes outline.decl outline.constructor base method := by
  obtain ⟨declaration, hfound, -, hconstructors⟩ :=
    Registry.declaration_of_outline hassembled.outlined
  have hlinks := h.toLinked.links_of_outline hassembled.outlined
  obtain ⟨method, hmethod, hkind⟩ := Option.map_eq_some_iff.mp hlinks.1
  have howner := hlinks.2.1
  have hsignature := hplain declaration hfound outline.constructor (by simp [hconstructors])
  have hbody := hassembled.body
  rw [hmethod] at howner hsignature hbody
  obtain ⟨bindings, hfields, rfl⟩ := hassembled.binds.bindings
  exact ⟨method, hmethod, hkind, howner, Option.some.inj hsignature, bindings,
    fun binding hbinding => h.hasField_slot hanchored hassembled (hfields binding hbinding),
    Option.some.inj hbody⟩

theorem AllAssembled.objectClass (hline : image.Lineage index chain)
    (hplain : ∀ index object, image.object? index = some object → registry.Parameterless index)
    (houtline : registry.outline? index = some outline) :
    registry.target.ObjectClass outline.decl outline.constructor := by
  induction hline generalizing outline with
  | @root index object hobject hsuper =>
      obtain ⟨_, _, found, _, base, _, hbase, hassembled⟩ := h.assembled index object hobject
      obtain rfl := Option.some.inj (houtline.symm.trans hassembled.outlined)
      obtain ⟨method, hinitializes⟩ :=
        h.initializes hanchored hassembled (hplain index object hobject)
      have hbased := hassembled.based
      rw [hbase, hsuper] at hbased
      cases hbased
      exact .root hinitializes
  | @derived index parent object upper hobject hsuper hparent ih =>
      obtain ⟨_, _, found, _, base, _, hbase, hassembled⟩ := h.assembled index object hobject
      obtain rfl := Option.some.inj (houtline.symm.trans hassembled.outlined)
      obtain ⟨method, hinitializes⟩ :=
        h.initializes hanchored hassembled (hplain index object hobject)
      obtain ⟨source, hsource⟩ := hparent.object
      obtain ⟨_, _, above, _, _, _, -, habove⟩ := h.assembled parent source hsource
      have hbased := hassembled.based
      rw [hbase, hsuper, baseCode?, habove.outlined] at hbased
      cases hbased
      exact .derived hinitializes (TargetModule.derivesFrom_base
        (hanchored.base? houtline (hbase.trans hsuper) habove.outlined)) (ih habove.outlined)

end Lines

/-! ## Fields of the layout -/

section Fields

variable {image : Image} {registry : Registry} {index : TypeIndex} {chain : List TypeIndex}

theorem Registry.type?_of_mapType {type : TargetType} (h : registry.mapType image index = .ok type) :
    (image.type? index).isSome := by
  unfold mapType TypeMapping.mapWithin at h
  cases hsource : image.type? index with
  | none =>
      simp only [hsource] at h
      cases h
  | some source => rfl

theorem Registry.placedFields_ok {fields : List FlatField}
    (h : registry.placedFields image index = .ok fields) :
    ∃ decl, registry.decl? index = some decl ∧
      (∀ (i : Nat) field, fields[i]? = some field → field.field = ⟨decl, i⟩) ∧
      ∀ field ∈ fields, (image.type? field.source).isSome := by
  obtain ⟨object, -, h⟩ := ok_of_bind h
  obtain ⟨decl, hdecl, h⟩ := ok_of_bind h
  refine ⟨decl, TypeMapping.declared_eq_ok.mp hdecl, places_of_mapM h ?_, ?_⟩
  · intro item i field hfield
    obtain ⟨type, -, hfield⟩ := ok_of_bind hfield
    cases hfield
    rfl
  · intro field hfield
    obtain ⟨⟨item, i⟩, -, hstep⟩ := mem_of_mapM h hfield
    obtain ⟨type, htype, hstep⟩ := ok_of_bind hstep
    cases hstep
    exact type?_of_mapType htype

theorem Registry.owner_of_placedFields {parts : List (List FlatField)}
    (h : chain.mapM (registry.placedFields image) = .ok parts) {field : FlatField}
    (hfield : field ∈ parts.flatten) :
    (∃ owner ∈ chain, registry.decl? owner = some field.field.owner) ∧
      (image.type? field.source).isSome := by
  obtain ⟨part, hpart, hfield⟩ := List.mem_flatten.mp hfield
  obtain ⟨owner, howner, hplaced⟩ := mem_of_mapM h hpart
  obtain ⟨decl, hdecl, hplaces, hsources⟩ := placedFields_ok hplaced
  obtain ⟨i, hi⟩ := List.mem_iff_getElem?.mp hfield
  exact ⟨⟨owner, howner, by rw [hplaces i field hi, hdecl]⟩, hsources field hfield⟩

/-- Different positions of a layout are different fields. -/
theorem Registry.Linked.nodup_placedFields (h : registry.Linked) (hchain : chain.Nodup)
    {parts : List (List FlatField)} (hparts : chain.mapM (registry.placedFields image) = .ok parts) :
    (parts.flatten.map (·.field)).Nodup := by
  induction chain generalizing parts with
  | nil =>
      cases hparts
      exact List.nodup_nil
  | cons owner chain ih =>
      obtain ⟨part, rest, hpart, hrest, rfl⟩ := ok_of_mapM_cons hparts
      obtain ⟨howner, hchain⟩ := List.nodup_cons.mp hchain
      obtain ⟨decl, hdecl, hplaces, -⟩ := placedFields_ok hpart
      rw [List.flatten_cons, List.map_append, List.nodup_append]
      refine ⟨?_, ih hchain hrest, ?_⟩
      · exact nodup_of_places (fun _ _ hsame => (FieldRef.mk.inj hsame).2) hplaces
      · intro first hfirst second hsecond hsame
        obtain ⟨mine, hmine, rfl⟩ := List.mem_map.mp hfirst
        obtain ⟨other, hother, rfl⟩ := List.mem_map.mp hsecond
        obtain ⟨i, hi⟩ := List.mem_iff_getElem?.mp hmine
        obtain ⟨⟨upper, hupper, hupperDecl⟩, -⟩ := owner_of_placedFields hrest hother
        rw [← hsame, hplaces i mine hi] at hupperDecl
        exact howner (h.eq_of_decl? hdecl hupperDecl ▸ hupper)

end Fields

/-! ## What a compiled object type is -/

/-- An object type with its class: new instances are made by its constructor and
have every field of its layout. -/
structure ObjectShape.Built (image : Image) (registry : Registry) (index : TypeIndex)
    (decl : TypeId) (shape : ObjectShape) : Prop where
  object : registry.object? index = some shape
  made : registry.decl? index = some decl
  constructor : registry.target.ObjectClass decl shape.constructor
  distinct : (shape.fields.map (·.field)).Nodup
  fields : ∀ field ∈ shape.fields, registry.target.hasField decl field.field = true
  sources : ∀ field ∈ shape.fields, (image.type? field.source).isSome

theorem ObjectShape.Built.keep {image : Image} {before after : Registry} {index : TypeIndex}
    {decl : TypeId} {shape : ObjectShape} (h : ObjectShape.Built image before index decl shape)
    (htypes : after.types = before.types) (hclasses : after.target.types = before.target.types)
    (hmethods : before.target.methods <+: after.target.methods) :
    ObjectShape.Built image after index decl shape := by
  have hlook : after.declaration? = before.declaration? := by
    funext other
    rw [Registry.declaration?, htypes, Registry.declaration?]
  refine ⟨?_, ?_, ?_, h.distinct, ?_, h.sources⟩
  · rw [Registry.object?, hlook]
    exact h.object
  · rw [Registry.decl?, hlook]
    exact h.made
  · exact h.constructor.keep hclasses fun id method => getElem?_of_begins hmethods
  · rw [TargetModule.hasField_types hclasses]
    exact h.fields

theorem TypePasses.object_built {image : Image} {settings : Settings} {registry : Registry}
    (h : run image (image.registry settings) = .ok () registry) {index : TypeIndex}
    {object : ObjectType} (hobject : image.object? index = some object) :
    ∃ decl shape, ObjectShape.Built image registry index decl shape := by
  have hlinked : (image.registry settings).Linked := Registry.create_linked _ _ _
  have hall := run_assembled hlinked h
  have hanchored := run_anchored (Registry.create_defining _ _ _) h
  have hflattening := run_flattening hlinked h
  obtain ⟨chain, _, outline, shape, _, _, -, hassembled⟩ := hall.assembled index object hobject
  obtain ⟨found, _, other, parts, _, hflat⟩ :=
    hflattening.flattened index (Image.lt_of_object hobject) object hobject
  obtain rfl := Option.some.inj (hassembled.object.symm.trans hflat.object)
  obtain rfl := hassembled.line.unique hflat.line
  have hclass := hall.objectClass hanchored hassembled.line
    (fun _ _ hsource => run_parameterless hsource hlinked h) hassembled.outlined
  rw [← Registry.constructor_of_object hassembled.object hassembled.outlined] at hclass
  have howner {field : FlatField} (hfield : field ∈ shape.fields) :=
    Registry.owner_of_placedFields hflat.parts_ok (hflat.fields ▸ hfield)
  refine ⟨outline.decl, shape, hassembled.object, Registry.decl?_of_outline hassembled.outlined,
    hclass, ?_, ?_, fun field hfield => (howner hfield).2⟩
  · rw [hflat.fields]
    exact hall.toLinked.nodup_placedFields hflat.line.nodup hflat.parts_ok
  · intro field hfield
    obtain ⟨⟨owner, hupper, hdecl⟩, -⟩ := howner hfield
    obtain ⟨source, hsource⟩ := Option.isSome_iff_exists.mp (hflat.line.object_of_mem hupper)
    obtain ⟨_, _, above, _, _, _, -, habove⟩ := hall.assembled owner source hsource
    have hderives := hall.derivesFrom hanchored hflat.line hupper hassembled.outlined habove.outlined
    have hsame := Option.some.inj (hdecl.symm.trans (Registry.decl?_of_outline habove.outlined))
    rw [TargetModule.hasField, (hflat.declares hflattening.classes hfield).isSome, hsame, hderives]
    rfl

end BytecodeLowering
