import BytecodeLowering.Proofs.Lower.Frames

/-!
# Declarations and their classes

When all types are defined, every field that a declaration lists is declared in
its class with the same type, every construct of an enum has a constructor that
takes its fields, and the base of a class is the class of the super type.
-/

namespace BytecodeLowering

/-! ## Fields and constructors -/

namespace TargetModule

def Declares (module : TargetModule) (field : FieldRef) (type : TargetType) : Prop :=
  (module.field? field).map (·.type) = some type

def Lists (module : TargetModule) (decl : TypeId) (fields : List FlatField) : Prop :=
  ∀ field ∈ fields, field.field.owner = decl ∧ module.Declares field.field field.type

def Takes (module : TargetModule) (id : MethodId) (count : Nat) : Prop :=
  (module.method? id).map (·.signature.params.length) = some count

variable {module before after : TargetModule}

theorem Declares.isSome {field : FieldRef} {type : TargetType} (h : module.Declares field type) :
    (module.field? field).isSome := by
  obtain ⟨decl, hdecl, -⟩ := Option.map_eq_some_iff.mp h
  rw [hdecl, Option.isSome_some]

theorem Framed.within_of_declares (h : module.Framed) {field : FieldRef} {type : TargetType}
    (hdeclares : module.Declares field type) : type.Within module.types.length := by
  obtain ⟨decl, hdecl, rfl⟩ := Option.map_eq_some_iff.mp hdeclares
  obtain ⟨owner, howner, hfield⟩ := Option.bind_eq_some_iff.mp hdecl
  exact (h.types owner (List.mem_of_getElem? howner)).fields decl (List.mem_of_getElem? hfield)

theorem Declares.keep {field : FieldRef} {type : TargetType} (h : before.Declares field type)
    (hclass : after.type? field.owner = before.type? field.owner) :
    after.Declares field type := by
  rw [Declares, field?, hclass]
  exact h

theorem Lists.keep {decl : TypeId} {fields : List FlatField} (h : before.Lists decl fields)
    (hclass : after.type? decl = before.type? decl) : after.Lists decl fields := by
  intro field hfield
  obtain ⟨rfl, hdeclares⟩ := h field hfield
  exact ⟨rfl, hdeclares.keep hclass⟩

theorem Lists.of_fields {decl : TypeId} {fields : List FlatField}
    (hplaces : ∀ (i : Nat) field, fields[i]? = some field → field.field = ⟨decl, i⟩)
    (hfields : (module.type? decl).map (·.fields)
      = some (fields.map fun field => ⟨field.name, field.type⟩)) : module.Lists decl fields := by
  intro field hfield
  obtain ⟨i, hi⟩ := List.mem_iff_getElem?.mp hfield
  obtain ⟨type, htype, hsame⟩ := Option.map_eq_some_iff.mp hfields
  rw [hplaces i field hi]
  refine ⟨rfl, ?_⟩
  simp [Declares, field?, htype, hsame, hi]

theorem Takes.keep {id : MethodId} {count : Nat} (h : before.Takes id count)
    (hsame : (after.method? id).map (·.signature) = (before.method? id).map (·.signature)) :
    after.Takes id count := by
  have hlength := congrArg (Option.map fun signature : Signature => signature.params.length) hsame
  rw [Option.map_map, Option.map_map] at hlength
  exact hlength.trans h

end TargetModule

def Shape.Placed (module : TargetModule) (decl : TypeId) : Shape → Prop
  | .object shape => (∀ field ∈ shape.fields, module.Declares field.field field.type) ∧
      ∀ slot ∈ shape.slots, module.Declares slot.field (.ofSignature slot.signature)
  | .virtual shape => module.Lists decl shape.fields
  | .enum shape => ∀ construct ∈ shape.constructs, module.Lists construct.decl construct.fields ∧
      module.Takes construct.constructor construct.fields.length
  | .abstract _ => True

def Shape.Unlaid : Shape → Prop
  | .object shape => shape.fields = [] ∧ shape.slots = []
  | _ => True

theorem Shape.Placed.keep {before after : TargetModule} {decl : TypeId} {shape : Shape}
    (h : shape.Placed before decl) (hunlaid : shape.Unlaid ∨ after.types = before.types)
    (hclasses : ∀ id ∈ decl :: shape.decls, after.type? id = before.type? id)
    (hcodes : ∀ id ∈ shape.constructors,
      (after.method? id).map (·.signature) = (before.method? id).map (·.signature)) :
    shape.Placed after decl := by
  cases shape with
  | object shape =>
      rcases hunlaid with ⟨hfields, hslots⟩ | htypes
      · exact ⟨by rw [hfields]; nofun, by rw [hslots]; nofun⟩
      · have hsame (id : TypeId) : after.type? id = before.type? id := by
          simp only [TargetModule.type?, htypes]
        exact ⟨fun field hfield => (h.1 field hfield).keep (hsame _),
          fun slot hslot => (h.2 slot hslot).keep (hsame _)⟩
  | virtual shape => exact TargetModule.Lists.keep h (hclasses decl List.mem_cons_self)
  | enum shape =>
      intro construct hconstruct
      obtain ⟨hlists, htakes⟩ := h construct hconstruct
      exact ⟨hlists.keep (hclasses _ (List.mem_cons_of_mem _ (List.mem_map_of_mem hconstruct))),
        htakes.keep (hcodes _ (List.mem_map_of_mem hconstruct))⟩
  | abstract name => trivial

/-! ## Defined declarations -/

/-- A declaration whose classes have what it says of them. -/
structure Registry.Anchors (registry : Registry) (declaration : Declaration) : Prop where
  placed : declaration.shape.Placed registry.target declaration.decl
  index : ∀ field, declaration.stem.index = some field → (registry.target.field? field).isSome
  base : ∀ outline parent, declaration.outline? = some outline → outline.base = some parent →
    (registry.target.type? outline.decl).bind (·.base) = registry.decl? parent

theorem Declaration.decl_of_outline {declaration : Declaration} {outline : Outline}
    (h : declaration.outline? = some outline) : outline.decl = declaration.decl := by
  unfold outline? at h
  split at h
  · cases h
    rfl
  · cases h

theorem Registry.Anchors.keep {before after : Registry} {declaration : Declaration}
    (h : before.Anchors declaration)
    (hplaced : declaration.shape.Placed after.target declaration.decl)
    (hindex : ∀ field, declaration.stem.index = some field → field = ⟨declaration.decl, 0⟩)
    (hclass : after.target.type? declaration.decl = before.target.type? declaration.decl)
    (hdecls : after.decl? = before.decl?) : after.Anchors declaration := by
  refine ⟨hplaced, ?_, ?_⟩
  · intro field hfield
    have hsome := h.index field hfield
    rw [hindex field hfield, TargetModule.field?] at hsome ⊢
    rwa [hclass]
  · intro outline parent houtline hbase
    have hsame := h.base outline parent houtline hbase
    rw [Declaration.decl_of_outline houtline] at hsame ⊢
    rw [hclass, hdecls, hsame]

/-! ## Defining -/

section Defining

variable {image : Image} {index : TypeIndex} {before after : Registry}

/-- A declaration of the kind that its source type asks for. -/
def Registry.Suited (registry : Registry) (image : Image) : Prop :=
  ∀ index declaration, registry.declaration? index = some declaration →
    (image.types[index]?).bind SourceType.nominal? = some declaration.stem.kind

theorem Registry.Suited.changes (h : before.Suited image) {old new : Declaration}
    (hchanges : Registry.Changes index old new before after) : after.Suited image := by
  intro other found hfound
  by_cases hsame : other = index
  · subst hsame
    rw [hchanges.changed] at hfound
    cases hfound
    rw [hchanges.stem]
    exact h other old hchanges.found
  · rw [hchanges.others other hsame] at hfound
    exact h other found hfound

/-- The declarations of the first types of the table are defined, and the others
are as they were entered. -/
structure Registry.Defining (image : Image) (count : Nat) (registry : Registry) : Prop
    extends registry.Linked where
  hollow : registry.target.Hollow
  suited : registry.Suited image
  anchors : ∀ index < count, ∀ declaration, registry.declaration? index = some declaration →
    registry.Anchors declaration ∧ declaration.shape.Unlaid
  bare : ∀ index ≥ count, ∀ declaration, registry.declaration? index = some declaration →
    declaration.shape.Bare ∧ ∀ constructor ∈ declaration.shape.constructors,
      (registry.target.method? constructor).map (·.signature) = some ⟨[], .void⟩

theorem places_of_mapM {α : Type} {items : List α} {step : α × Nat → Except LoweringError FlatField}
    {flat : List FlatField} (h : items.zipIdx.mapM step = .ok flat) {decl : TypeId}
    (hstep : ∀ item i field, step (item, i) = .ok field → field.field = ⟨decl, i⟩)
    (i : Nat) (field : FlatField) (hfield : flat[i]? = some field) : field.field = ⟨decl, i⟩ := by
  obtain ⟨⟨item, place⟩, hitem, hfound⟩ := (ok_of_mapM h).2 i field hfield
  rw [List.getElem?_zipIdx] at hitem
  obtain ⟨source, -, hsame⟩ := Option.map_eq_some_iff.mp hitem
  cases hsame
  rw [Nat.zero_add] at hfound
  exact hstep _ i field hfound

theorem ObjectLayout.define_anchors {object : ObjectType} {result : Unit}
    (hlinked : before.Linked)
    (hbare : ∀ declaration, before.declaration? index = some declaration → declaration.shape.Bare)
    (h : define image index object before = .ok result after) {declaration : Declaration}
    (hfound : after.declaration? index = some declaration) :
    after.Anchors declaration ∧ declaration.shape.Unlaid := by
  obtain ⟨old, shape, base, own, slots, hshape, hbase, -, -, htarget, hchanges⟩ := define_ok h
  have hold := hbare old hchanges.found
  rw [hchanges.changed] at hfound
  cases hfound
  rw [hshape] at hold
  obtain ⟨-, hfields, hslots⟩ := hold
  refine ⟨⟨⟨by rw [hfields]; nofun, by rw [hslots]; nofun⟩, nofun, ?_⟩, hfields, hslots⟩
  rintro outline parent ⟨⟩ hparent
  obtain ⟨type, htype, -⟩ := Option.bind_eq_some_iff.mp (hlinked.decl index old hchanges.found)
  rw [htarget, TargetModule.type?_modifyType, if_pos rfl, htype, hchanges.decl?,
    ← before.decl?_update_stage index .defined, ← baseOf_decl hbase hparent]
  rfl

theorem VirtualLayout.define_anchors {fields : List Field} {result : Unit}
    (hlinked : before.Linked) (h : define image index fields before = .ok result after)
    {declaration : Declaration} (hfound : after.declaration? index = some declaration) :
    after.Anchors declaration ∧ declaration.shape.Unlaid := by
  obtain ⟨old, shape, flat, hshape, hflat, htarget, hchanges⟩ := define_ok h
  rw [hchanges.changed] at hfound
  cases hfound
  refine ⟨⟨TargetModule.Lists.of_fields ?_ ?_, nofun, nofun⟩, trivial⟩
  · refine places_of_mapM hflat ?_
    intro item i field hfield
    obtain ⟨type, -, hfield⟩ := ok_of_bind hfield
    cases hfield
    rfl
  · obtain ⟨type, htype, -⟩ := Option.bind_eq_some_iff.mp (hlinked.decl index old hchanges.found)
    rw [htarget, TargetModule.type?_modifyType, if_pos rfl, htype]
    rfl

theorem EnumLayout.define_anchors {variants : EnumType} {result : Unit} (hlinked : before.Linked)
    (hbare : ∀ declaration, before.declaration? index = some declaration →
      declaration.shape.Bare ∧ ∀ constructor ∈ declaration.shape.constructors,
        (before.target.method? constructor).map (·.signature) = some ⟨[], .void⟩)
    (h : define image index variants before = .ok result after) {declaration : Declaration}
    (hfound : after.declaration? index = some declaration) :
    after.Anchors declaration ∧ declaration.shape.Unlaid := by
  obtain ⟨old, shape, fields, hshape, hdefined, hchanges⟩ := define_ok h
  obtain ⟨hold, hempty⟩ := hbare old hchanges.found
  have hcodes := hlinked.distinct index old hchanges.found
  have hlinks := hlinked.links index old hchanges.found
  have hindex := hlinked.index index old hchanges.found
  have hfresh := hlinked.fresh index old hchanges.found
  rw [hshape] at hold hempty hcodes hfresh
  simp only [Declaration.stem, hshape, List.forall_mem_map] at hlinks
  simp only [Declaration.stem, hshape] at hindex
  rw [hchanges.changed] at hfound
  cases hfound
  have hclass : before.target.Keeps
      (· ∈ (variants.constructs.zip shape.constructs).map (·.2.constructor))
      (before.target.modifyType old.decl fun type =>
        { type with fields := [{ name := "index", type := .i32 }] }) :=
    .modifyType _ _ (fun _ => rfl) fun _ => rfl
  refine ⟨⟨?_, ?_, by rintro outline parent ⟨⟩⟩, trivial⟩
  · intro construct hconstruct
    rcases hdefined.cases hcodes (fun made hmade => hclass.links (hlinks made hmade)) hconstruct with
      ⟨-, hfilled⟩ | ⟨hmem, hnot, -⟩
    · obtain ⟨params, registry, -, hmapped⟩ := hfilled.mapped
      refine ⟨.of_fields ?_ hfilled.fields, ?_⟩
      · refine places_of_mapM hmapped ?_
        intro item i field hfield
        obtain ⟨type, -, hfield⟩ := ok_of_bind hfield
        cases hfield
        rfl
      · have hlength := congrArg (Option.map List.length) hfilled.params
        rw [Option.map_map, Option.map_some, List.length_map] at hlength
        exact hlength
    · -- a construct past those of the source type keeps its empty constructor
      have hsignature := (hclass.trans hdefined.target).signature hnot
        (hempty _ (List.mem_map_of_mem hmem))
      obtain ⟨method, hmethod, hsame⟩ := Option.map_eq_some_iff.mp hsignature
      rw [hold construct hmem]
      exact ⟨by simp [TargetModule.Lists], by simp [TargetModule.Takes, hmethod, hsame]⟩
  · rintro field ⟨⟩
    obtain ⟨type, htype, -⟩ := Option.bind_eq_some_iff.mp (hlinked.decl index old hchanges.found)
    rw [hindex shape.indexField rfl, TargetModule.field?, hdefined.others old.decl ?_,
      TargetModule.type?_modifyType, if_pos rfl, htype]
    · rfl
    · intro hmem
      obtain ⟨pair, hpair, hsame⟩ := List.mem_map.mp hmem
      exact hfresh (hsame ▸ List.mem_map_of_mem (List.of_mem_zip hpair).2)

/-! ## The passes -/

namespace TypePasses

theorem resolveType_defining {source : SourceType} (hsource : image.types[index]? = some source)
    {result : Unit} (hbefore : before.Defining image 0)
    (h : resolveType (source, index) before = .ok result after) : after.Defining image 0 := by
  have hhollow := resolveType_hollow hbefore.hollow h
  rcases resolveType_ok h with rfl | ⟨declaration, hresolves, hkind⟩
  · exact hbefore
  · have hlook := Registry.declaration?_of_resolves hresolves
    refine ⟨hbefore.toLinked.resolves hresolves, hhollow, ?_, nofun, ?_⟩
    · intro other found hfound
      rw [hlook] at hfound
      split at hfound
      · rename_i hsame
        subst hsame
        cases hfound
        rw [hsource, Option.bind_some, hkind]
      · exact hbefore.suited other found hfound
    · intro other hother found hfound
      rw [hlook] at hfound
      split at hfound
      · cases hfound
        exact ⟨hresolves.bare, fun constructor hconstructor =>
          (hresolves.constructors constructor hconstructor).2⟩
      · obtain ⟨hbare, hempty⟩ := hbefore.bare other hother found hfound
        exact ⟨hbare, fun constructor hconstructor =>
          hresolves.target.signature id (hempty constructor hconstructor)⟩

theorem defineType_anchors {source : SourceType} (hsource : image.types[index]? = some source)
    {result : Unit} (hbefore : before.Defining image index)
    (h : defineType image (source, index) before = .ok result after) {declaration : Declaration}
    (hfound : after.declaration? index = some declaration) :
    after.Anchors declaration ∧ declaration.shape.Unlaid := by
  have hbare := hbefore.bare index (Nat.le_refl _)
  cases source with
  | obj object | struct object =>
      exact ObjectLayout.define_anchors hbefore.toLinked (fun found hfound => (hbare found hfound).1)
        h hfound
  | virtual fields => exact VirtualLayout.define_anchors hbefore.toLinked h hfound
  | enum variants => exact EnumLayout.define_anchors hbefore.toLinked hbare h hfound
  | abstract name =>
      obtain ⟨old, -, hchanges⟩ := advance_changes h
      have hkind := hbefore.suited.changes hchanges index declaration hfound
      rw [hsource, Option.bind_some] at hkind
      unfold Declaration.stem at hkind
      cases hshape : declaration.shape with
      | abstract name =>
          refine ⟨⟨by rw [hshape]; trivial, ?_, ?_⟩, trivial⟩
          · simp [Declaration.stem, hshape]
          · simp [Declaration.outline?, hshape]
      | _ =>
          rw [hshape] at hkind
          cases hkind
  | _ =>
      cases h
      have hkind := hbefore.suited index declaration hfound
      rw [hsource] at hkind
      cases hkind

theorem defineType_classes {source : SourceType} {result : Unit} (hlinked : before.Linked)
    (h : defineType image (source, index) before = .ok result after) {other : TypeIndex}
    (hother : other ≠ index) {declaration : Declaration}
    (hfound : before.declaration? other = some declaration) {decl : TypeId}
    (hdecl : decl ∈ declaration.decl :: declaration.shape.decls) :
    after.target.type? decl = before.target.type? decl := by
  refine defineType_others hlinked h ?_
  have hsource : before.target.sourceOf? decl = some other := by
    rcases List.mem_cons.mp hdecl with rfl | hdecl
    · exact hlinked.decl other declaration hfound
    · exact hlinked.decls other declaration hfound decl hdecl
  rw [hsource]
  exact fun hsame => hother (Option.some.inj hsame)

theorem defineType_defining {source : SourceType} (hsource : image.types[index]? = some source)
    {result : Unit} (hbefore : before.Defining image index)
    (h : defineType image (source, index) before = .ok result after) :
    after.Defining image (index + 1) := by
  have hlinked := hbefore.toLinked
  have hhollow := defineType_hollow hlinked hbefore.hollow h
  have hself {declaration : Declaration} (hfound : after.declaration? index = some declaration) :=
    defineType_anchors hsource hbefore h hfound
  rcases defineType_ok h with rfl | ⟨old, new, hchanges⟩
  · refine ⟨hlinked, hhollow, hbefore.suited, ?_, ?_⟩
    · intro other hother declaration hfound
      rcases Nat.lt_succ_iff_lt_or_eq.mp hother with hearlier | rfl
      · exact hbefore.anchors other hearlier declaration hfound
      · exact hself hfound
    · exact fun other hother => hbefore.bare other (Nat.le_of_succ_le hother)
  · refine ⟨hlinked.changes hchanges, hhollow, hbefore.suited.changes hchanges, ?_, ?_⟩
    · intro other hother declaration hfound
      rcases Nat.lt_succ_iff_lt_or_eq.mp hother with hearlier | rfl
      · have hne := Nat.ne_of_lt hearlier
        rw [hchanges.others other hne] at hfound
        obtain ⟨hanchors, hunlaid⟩ := hbefore.anchors other hearlier declaration hfound
        have hown {decl : TypeId} (hdecl : decl ∈ declaration.decl :: declaration.shape.decls) :=
          defineType_classes hlinked h hne hfound hdecl
        have hcodes {constructor : MethodId}
            (hconstructor : constructor ∈ declaration.shape.constructors) :=
          hlinked.signature_of_changes hchanges hne hfound hconstructor
        refine ⟨hanchors.keep (hanchors.placed.keep (Or.inl hunlaid) (fun _ => hown)
          fun _ => hcodes) (hbefore.index other declaration hfound)
          (hown List.mem_cons_self) hchanges.decl?, hunlaid⟩
      · exact hself hfound
    · intro other hother declaration hfound
      have hne : other ≠ index := Nat.ne_of_gt hother
      rw [hchanges.others other hne] at hfound
      obtain ⟨hbare, hempty⟩ := hbefore.bare other (Nat.le_of_lt hother) declaration hfound
      exact ⟨hbare, fun constructor hconstructor =>
        (hlinked.signature_of_changes hchanges hne hfound hconstructor).trans
          (hempty constructor hconstructor)⟩

end TypePasses

theorem Registry.Defining.enter {count : Nat} {stage : Option Stage}
    (h : before.Defining image count) : Defining image count { before with pass := stage } := by
  refine ⟨h.toLinked.enter, h.hollow, h.suited, ?_, h.bare⟩
  intro other hother declaration hfound
  obtain ⟨hanchors, hunlaid⟩ := h.anchors other hother declaration hfound
  exact ⟨⟨hanchors.placed, hanchors.index, hanchors.base⟩, hunlaid⟩

theorem Registry.create_defining (name : String) (typeCount functionCount : Nat) :
    (create name typeCount functionCount).Defining image 0 := by
  refine ⟨create_linked _ _ _, create_hollow _ _ _, ?_,
    fun _ hindex => absurd hindex (Nat.not_lt_zero _), ?_⟩
  · intro index declaration hfound
    simp at hfound
  · intro index _ declaration hfound
    simp at hfound

theorem TypePasses.resolveAll_defining {resolved : Registry} (hbefore : before.Defining image 0)
    (h : resolveAll image before = .ok () resolved) : resolved.Defining image 0 :=
  pass_keeps (Registry.Defining image 0) h (fun _ hold => hold.enter)
    (fun _ _ hsource _ _ _ hold hstep => resolveType_defining hsource hold hstep) hbefore

theorem TypePasses.defineAll_defining (hbefore : before.Defining image 0)
    (h : defineAll image before = .ok () after) : after.Defining image image.types.length :=
  pass_positions (Registry.Defining image) h (fun _ hold => hold.enter)
    (fun _ _ hsource _ _ _ hold hstep => defineType_defining hsource hold hstep) hbefore

/-- When all types are defined, every declaration is anchored. -/
theorem TypePasses.defineAll_anchors {resolved : Registry}
    (hbefore : before.Defining image 0)
    (hresolve : resolveAll image before = .ok () resolved)
    (hdefine : defineAll image resolved = .ok () after) :
    after.Linked ∧ after.target.Hollow ∧
      ∀ index declaration, after.declaration? index = some declaration →
        after.Anchors declaration := by
  have hdefined := defineAll_defining (resolveAll_defining hbefore hresolve) hdefine
  refine ⟨hdefined.toLinked, hdefined.hollow, ?_⟩
  intro index declaration hfound
  obtain ⟨source, hsource, -⟩ := Option.bind_eq_some_iff.mp
    (hdefined.suited index declaration hfound)
  exact (hdefined.anchors index (List.getElem?_eq_some_iff.mp hsource).1 declaration hfound).1

end Defining

end BytecodeLowering
