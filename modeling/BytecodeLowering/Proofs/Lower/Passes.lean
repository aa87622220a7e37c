import BytecodeLowering.Proofs.Lower.Changes

/-!
# Linked registries

Registries whose declarations hold on to their own classes and constructors, and
that the passes over the type table keep them so.
-/

namespace BytecodeLowering

/-- Every class was made for its declaration, and so was every constructor; the
methods of functions are static. -/
structure Registry.Linked (registry : Registry) : Prop where
  decl : ∀ index declaration, registry.declaration? index = some declaration →
    registry.target.sourceOf? declaration.decl = some index
  constructors : ∀ index declaration, registry.declaration? index = some declaration →
    ∀ constructor ∈ declaration.shape.constructors,
      registry.target.builds? constructor = some index
  distinct : ∀ index declaration, registry.declaration? index = some declaration →
    declaration.shape.constructors.Nodup
  reserved : ∀ function < registry.functions.length,
    (registry.target.method? function).map (·.kind) = some .static
  decls : ∀ index declaration, registry.declaration? index = some declaration →
    ∀ decl ∈ declaration.shape.decls, registry.target.sourceOf? decl = some index
  links : ∀ index declaration, registry.declaration? index = some declaration →
    ∀ link ∈ declaration.stem.links, registry.target.Links link.1 link.2
  index : ∀ index declaration, registry.declaration? index = some declaration →
    ∀ field, declaration.stem.index = some field → field = ⟨declaration.decl, 0⟩
  fresh : ∀ index declaration, registry.declaration? index = some declaration →
    declaration.decl ∉ declaration.shape.decls

/-! ## One declaration -/

structure Declaration.Owns (declaration : Declaration) (module : TargetModule)
    (index : TypeIndex) : Prop where
  decl : module.sourceOf? declaration.decl = some index
  constructors : ∀ constructor ∈ declaration.shape.constructors,
    module.builds? constructor = some index
  distinct : declaration.shape.constructors.Nodup
  decls : ∀ decl ∈ declaration.shape.decls, module.sourceOf? decl = some index
  links : ∀ link ∈ declaration.stem.links, module.Links link.1 link.2
  index : ∀ field, declaration.stem.index = some field → field = ⟨declaration.decl, 0⟩
  fresh : declaration.decl ∉ declaration.shape.decls

namespace Declaration.Owns

variable {module later : TargetModule} {index : TypeIndex} {old new : Declaration}

theorem keeps {free : MethodId → Prop} (h : old.Owns module index)
    (hkeeps : module.Keeps free later) : old.Owns later index where
  decl := hkeeps.sourceOf? h.decl
  constructors := fun constructor hconstructor =>
    hkeeps.builds? (h.constructors constructor hconstructor)
  distinct := h.distinct
  decls := fun decl hdecl => hkeeps.sourceOf? (h.decls decl hdecl)
  links := fun link hlink => hkeeps.links (h.links link hlink)
  index := h.index
  fresh := h.fresh

theorem congr (h : old.Owns module index) (hdecl : new.decl = old.decl)
    (hconstructors : new.shape.constructors = old.shape.constructors)
    (hdecls : new.shape.decls = old.shape.decls) (hstem : new.stem = old.stem) :
    new.Owns module index := by
  refine ⟨?_, ?_, ?_, ?_, ?_, ?_, ?_⟩
  · rw [hdecl]
    exact h.decl
  · rw [hconstructors]
    exact h.constructors
  · rw [hconstructors]
    exact h.distinct
  · rw [hdecls]
    exact h.decls
  · rw [hstem]
    exact h.links
  · rw [hstem, hdecl]
    exact h.index
  · rw [hdecl, hdecls]
    exact h.fresh

end Declaration.Owns

theorem Registry.linked_iff {registry : Registry} :
    registry.Linked ↔
      (∀ index declaration, registry.declaration? index = some declaration →
        declaration.Owns registry.target index) ∧
      ∀ function < registry.functions.length,
        (registry.target.method? function).map (·.kind) = some .static := by
  constructor
  · intro h
    exact ⟨fun index declaration hfound => ⟨h.decl index declaration hfound,
      h.constructors index declaration hfound, h.distinct index declaration hfound,
      h.decls index declaration hfound, h.links index declaration hfound,
      h.index index declaration hfound, h.fresh index declaration hfound⟩, h.reserved⟩
  · rintro ⟨howns, hreserved⟩
    exact ⟨fun index declaration hfound => (howns index declaration hfound).decl,
      fun index declaration hfound => (howns index declaration hfound).constructors,
      fun index declaration hfound => (howns index declaration hfound).distinct, hreserved,
      fun index declaration hfound => (howns index declaration hfound).decls,
      fun index declaration hfound => (howns index declaration hfound).links,
      fun index declaration hfound => (howns index declaration hfound).index,
      fun index declaration hfound => (howns index declaration hfound).fresh⟩

/-! ## Steps on a registry -/

namespace Registry

variable {index : TypeIndex} {before after : Registry}

theorem declaration?_of_resolves {declaration : Declaration}
    (h : Resolves index declaration before after) (other : TypeIndex) :
    after.declaration? other
      = if index = other then some declaration else before.declaration? other := by
  have hlength := (List.getElem?_eq_some_iff.mp h.vacant).1
  simp only [declaration?, h.types, List.getElem?_set]
  by_cases hsame : index = other
  · rw [if_pos hsame, if_pos hsame, if_pos hlength]
    rfl
  · rw [if_neg hsame, if_neg hsame]

theorem Linked.not_mem_constructors (h : before.Linked) {other : TypeIndex}
    {declaration found : Declaration} (hindex : before.declaration? index = some declaration)
    (hother : before.declaration? other = some found) (hne : other ≠ index)
    {constructor : MethodId} (hconstructor : constructor ∈ found.shape.constructors) :
    constructor ∉ declaration.shape.constructors := by
  intro hmem
  have hbuilds := h.constructors index declaration hindex constructor hmem
  rw [h.constructors other found hother constructor hconstructor] at hbuilds
  exact hne (Option.some.inj hbuilds)

theorem Linked.constructor_lt (h : before.Linked) {declaration : Declaration}
    (hfound : before.declaration? index = some declaration) {constructor : MethodId}
    (hconstructor : constructor ∈ declaration.shape.constructors) :
    constructor < before.target.methods.length := by
  obtain ⟨method, hmethod, -⟩ := Option.bind_eq_some_iff.mp
    (h.constructors index declaration hfound constructor hconstructor)
  exact (List.getElem?_eq_some_iff.mp hmethod).1

theorem Linked.keeps {free : MethodId → Prop} (h : before.Linked)
    (htypes : after.types = before.types)
    (hfunctions : after.functions.length = before.functions.length)
    (htarget : before.target.Keeps free after.target) : after.Linked := by
  obtain ⟨howns, hreserved⟩ := linked_iff.mp h
  refine linked_iff.mpr ⟨?_, ?_⟩
  · intro other found hfound
    simp only [declaration?, htypes] at hfound
    exact (howns other found hfound).keeps htarget
  · intro function hfunction
    rw [hfunctions] at hfunction
    exact htarget.kind (hreserved function hfunction)

theorem Linked.enter {stage : Option Stage} (h : before.Linked) :
    Linked { before with pass := stage } :=
  h.keeps rfl rfl (.refl _ : before.target.Keeps (fun _ => False) _)

theorem Resolves.owns {declaration : Declaration} (h : Resolves index declaration before after) :
    declaration.Owns after.target index :=
  ⟨h.decl, fun constructor hconstructor => (h.constructors constructor hconstructor).1, h.distinct,
    h.decls, h.links, h.index, h.fresh⟩

theorem Linked.resolves (h : before.Linked) {declaration : Declaration}
    (hresolves : Resolves index declaration before after) : after.Linked := by
  obtain ⟨howns, hreserved⟩ := linked_iff.mp h
  refine linked_iff.mpr ⟨?_, ?_⟩
  · intro other found hfound
    rw [declaration?_of_resolves hresolves] at hfound
    split at hfound
    case isTrue hsame =>
      cases hfound
      exact hsame ▸ hresolves.owns
    case isFalse => exact (howns other found hfound).keeps hresolves.target
  · intro function hfunction
    rw [hresolves.functions] at hfunction
    exact hresolves.target.kind (hreserved function hfunction)

theorem Linked.changes (h : before.Linked) {old new : Declaration}
    (hchanges : Changes index old new before after) : after.Linked := by
  obtain ⟨howns, hreserved⟩ := linked_iff.mp h
  refine linked_iff.mpr ⟨?_, ?_⟩
  · intro other found hfound
    by_cases hsame : other = index
    · subst hsame
      rw [hchanges.changed] at hfound
      cases hfound
      exact ((howns other old hchanges.found).keeps hchanges.target).congr hchanges.decl
        hchanges.constructors hchanges.decls hchanges.stem
    · rw [hchanges.others other hsame] at hfound
      exact (howns other found hfound).keeps hchanges.target
  · intro function hfunction
    rw [hchanges.functions] at hfunction
    exact hchanges.target.kind (hreserved function hfunction)

theorem Linked.signature_of_changes (h : before.Linked) {old new : Declaration}
    (hchanges : Changes index old new before after) {other : TypeIndex} (hother : other ≠ index)
    {declaration : Declaration} (hfound : before.declaration? other = some declaration)
    {constructor : MethodId} (hconstructor : constructor ∈ declaration.shape.constructors) :
    (after.target.method? constructor).map (·.signature)
      = (before.target.method? constructor).map (·.signature) := by
  obtain ⟨method, hmethod, -⟩ := Option.bind_eq_some_iff.mp
    (h.constructors other declaration hfound constructor hconstructor)
  have hsignature : (before.target.method? constructor).map (·.signature)
      = some method.signature := by
    rw [hmethod, Option.map_some]
  rw [hsignature]
  exact hchanges.target.signature
    (h.not_mem_constructors hchanges.found hfound hother hconstructor) hsignature

theorem create_linked (name : String) (typeCount functionCount : Nat) :
    (create name typeCount functionCount).Linked := by
  refine linked_iff.mpr ⟨?_, ?_⟩
  · intro index declaration hfound
    simp at hfound
  · intro function hfunction
    simp only [create, List.length_replicate] at hfunction
    simp [create, TargetModule.method?, hfunction]

end Registry

/-! ## Outlines -/

structure Outline where
  decl : TypeId
  constructor : MethodId
  base : Option TypeIndex
  deriving DecidableEq, Repr

def Declaration.outline? (declaration : Declaration) : Option Outline :=
  match declaration.shape with
  | .object shape => some ⟨declaration.decl, shape.constructor, shape.base⟩
  | _ => none

def Registry.outline? (registry : Registry) (index : TypeIndex) : Option Outline :=
  (registry.declaration? index).bind (·.outline?)

namespace Registry

variable {index : TypeIndex} {before after : Registry}

theorem outline?_of_declaration {declaration : Declaration} {shape : ObjectShape}
    (h : before.declaration? index = some declaration ∧ declaration.shape = .object shape) :
    before.outline? index = some ⟨declaration.decl, shape.constructor, shape.base⟩ := by
  simp only [outline?, Declaration.outline?, h.1, h.2, Option.bind_some]

theorem declaration_of_outline {outline : Outline} (h : before.outline? index = some outline) :
    ∃ declaration, before.declaration? index = some declaration ∧
      declaration.decl = outline.decl ∧ declaration.shape.constructors = [outline.constructor] := by
  obtain ⟨declaration, hdeclaration, houtline⟩ := Option.bind_eq_some_iff.mp h
  unfold Declaration.outline? at houtline
  split at houtline
  · rename_i hshape
    cases houtline
    exact ⟨declaration, hdeclaration, rfl, by rw [hshape]; rfl⟩
  · cases houtline

theorem constructor_of_object {shape : ObjectShape} {outline : Outline}
    (hobject : before.object? index = some shape)
    (houtline : before.outline? index = some outline) :
    shape.constructor = outline.constructor := by
  unfold object? at hobject
  split at hobject
  · rename_i hfound
    cases hobject
    rw [outline?_of_declaration ⟨hfound, rfl⟩] at houtline
    cases houtline
    rfl
  · cases hobject

theorem Changes.outline? {old new : Declaration} (h : Changes index old new before after)
    (hsame : new.outline? = old.outline?) (other : TypeIndex) :
    after.outline? other = before.outline? other := by
  by_cases hindex : other = index
  · subst hindex
    simp only [Registry.outline?, h.changed, h.found, Option.bind_some, hsame]
  · simp only [Registry.outline?, h.others other hindex]

theorem outline?_update_stage (registry : Registry) (stage : Stage) (other : TypeIndex) :
    (registry.update index fun declaration => { declaration with stage }).outline? other
      = registry.outline? other := by
  simp only [outline?, declaration?_update]
  split
  · cases registry.declaration? other <;> rfl
  · rfl

end Registry

/-! ## The passes -/

namespace TypePasses

variable {image : Image} {index : TypeIndex} {source : SourceType} {before after : Registry}

theorem enterPass_ok {stage : Stage} {result : Unit}
    (h : Registry.enterPass stage before = .ok result after) :
    { before with pass := some stage } = after := by
  have h := Lowering.get_bind h
  split at h
  · cases h
    rfl
  · cases h

theorem advance_changes {stage : Stage} {result : Unit}
    (h : Registry.advance index stage before = .ok result after) :
    ∃ old, before.target.Recodes (· ∈ old.shape.constructors) after.target ∧
      Registry.Changes index old { old with stage } before after := by
  obtain ⟨old, hold, -, rfl⟩ := advance_ok h
  exact ⟨old, .refl _, .of_stage hold rfl rfl (.refl _)⟩

theorem defineType_ok {result : Unit}
    (h : defineType image (source, index) before = .ok result after) :
    before = after ∨ ∃ old new, Registry.Changes index old new before after := by
  cases source with
  | obj object | struct object =>
      obtain ⟨old, _, _, _, _, -, -, -, -, -, hchanges⟩ := ObjectLayout.define_ok h
      exact Or.inr ⟨old, _, hchanges⟩
  | enum variants =>
      obtain ⟨old, _, _, -, -, hchanges⟩ := EnumLayout.define_ok h
      exact Or.inr ⟨old, _, hchanges⟩
  | virtual fields =>
      obtain ⟨old, _, _, -, -, -, hchanges⟩ := VirtualLayout.define_ok h
      exact Or.inr ⟨old, _, hchanges⟩
  | abstract name =>
      obtain ⟨old, -, hchanges⟩ := advance_changes h
      exact Or.inr ⟨old, _, hchanges⟩
  | _ =>
      cases h
      exact Or.inl rfl

theorem compileType_ok {result : Unit}
    (h : compileType image (source, index) before = .ok result after) :
    before = after ∨ ∃ old new, before.target.Recodes (· ∈ old.shape.constructors) after.target ∧
      Registry.Changes index old new before after ∧ new.outline? = old.outline? := by
  cases source with
  | obj object | struct object =>
      obtain ⟨old, shape, laid, hshape, -, htarget, hchanges⟩ := ObjectLayout.compile_ok h
      refine Or.inr ⟨old, _, ?_, hchanges, by simp only [Declaration.outline?, hshape]⟩
      rw [htarget]
      exact .setBody _ _ (by simp [hshape, Shape.constructors])
  | enum variants =>
      obtain ⟨old, hrecodes, hchanges⟩ := EnumLayout.compile_ok h
      exact Or.inr ⟨old, _, hrecodes, hchanges, rfl⟩
  | virtual fields =>
      obtain ⟨old, shape, hshape, htarget, hchanges⟩ := VirtualLayout.compile_ok h
      refine Or.inr ⟨old, _, ?_, hchanges, rfl⟩
      rw [htarget]
      exact .setBody _ _ (by simp [hshape, Shape.constructors])
  | abstract name =>
      obtain ⟨old, hrecodes, hchanges⟩ := advance_changes h
      exact Or.inr ⟨old, _, hrecodes, hchanges, rfl⟩
  | _ =>
      cases h
      exact Or.inl rfl

theorem run_ok {result : Unit} (h : run image before = .ok result after) :
    ∃ resolved defined, resolveAll image before = .ok () resolved ∧
      defineAll image resolved = .ok () defined ∧ compileAll image defined = .ok () after := by
  obtain ⟨_, resolved, hresolved, h⟩ := Lowering.bind_ok h
  obtain ⟨_, defined, hdefined, h⟩ := Lowering.bind_ok h
  exact ⟨resolved, defined, hresolved, hdefined, h⟩

/-- What each type of the table carries from its position to the next, a pass
carries through the table. -/
theorem pass_positions (holds : Nat → Registry → Prop) {stage : Stage}
    {step : SourceType × TypeIndex → Lowering Unit} {result : Unit}
    (h : (do Registry.enterPass stage; image.types.zipIdx.forM step) before = .ok result after)
    (hpass : ∀ registry, holds 0 registry → holds 0 { registry with pass := some stage })
    (hstep : ∀ (index : TypeIndex) source, image.types[index]? = some source →
      ∀ before result after, holds index before → step (source, index) before = .ok result after →
        holds (index + 1) after)
    (hbefore : holds 0 before) : holds image.types.length after := by
  obtain ⟨_, entered, henter, h⟩ := Lowering.bind_ok h
  obtain rfl := enterPass_ok henter
  rw [← Nat.zero_add image.types.length]
  refine Lowering.forM_zipIdx holds ?_ (hpass before hbefore) h
  intro i source hsource
  rw [Nat.zero_add]
  exact hstep i source hsource

theorem pass_keeps (holds : Registry → Prop) {stage : Stage}
    {step : SourceType × TypeIndex → Lowering Unit} {result : Unit}
    (h : (do Registry.enterPass stage; image.types.zipIdx.forM step) before = .ok result after)
    (hpass : ∀ registry, holds registry → holds { registry with pass := some stage })
    (hstep : ∀ (index : TypeIndex) source, image.types[index]? = some source →
      ∀ before result after, holds before → step (source, index) before = .ok result after →
        holds after)
    (hbefore : holds before) : holds after :=
  pass_positions (fun _ => holds) h hpass hstep hbefore

end TypePasses

end BytecodeLowering
