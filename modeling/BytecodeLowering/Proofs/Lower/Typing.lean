import BytecodeLowering.Lower.Program
import BytecodeLowering.Proofs.Lower.Passes
import BytecodeLowering.Proofs.Lower.Proper

/-!
# Images in which void is only a result

Every type that such an image maps is proper, and every registry that is reached
while it is lowered is sound.
-/

namespace BytecodeLowering

/-! ## Images -/

/-- The types of the values that a type is made of. -/
def SourceType.operands : SourceType → List TypeIndex
  | .func signature | .method signature => signature.args
  | .obj object | .struct object => object.fields.map (·.type)
  | .ref inner | .null inner | .packed inner => [inner]
  | .virtual fields => fields.map (·.type)
  | .enum variants => variants.constructs.flatMap (·.params)
  | _ => []

/-- Void is the type of no parameter, field or global and of nothing that is
wrapped. -/
structure Image.Voidless (image : Image) : Prop where
  types : ∀ source ∈ image.types, ∀ operand ∈ source.operands, image.type? operand ≠ some .void
  globals : ∀ index ∈ image.globals, image.type? index ≠ some .void

namespace TypeMapping

variable {image : Image} {registry : Registry}

theorem proper_of_signatureWith {mapType : TypeIndex → Except LoweringError TargetType}
    (hmap : ∀ index type, mapType index = .ok type →
      type.Proper ∧ (image.type? index ≠ some .void → type ≠ .void))
    {source : FunctionType} (hargs : ∀ arg ∈ source.args, image.type? arg ≠ some .void)
    {signature : Signature} (h : signatureWith mapType source = .ok signature) :
    signature.Proper := by
  obtain ⟨params, hparams, h⟩ := ok_of_bind h
  obtain ⟨ret, hret, h⟩ := ok_of_bind h
  cases h
  refine ⟨?_, (hmap _ ret hret).1⟩
  intro param hparam
  obtain ⟨arg, harg, hmapped⟩ := mem_of_mapM hparams hparam
  exact ⟨(hmap arg param hmapped).2 (hargs arg harg), (hmap arg param hmapped).1⟩

theorem proper_of_mapWithin (himage : image.Voidless) (levels : Nat) (index : TypeIndex)
    {type : TargetType} (h : mapWithin image registry levels index = .ok type) :
    type.Proper ∧ (image.type? index ≠ some .void → type ≠ .void) := by
  -- a function type takes two levels at once
  induction levels using Nat.strongRecOn generalizing index type with
  | ind levels ih =>
      cases levels with
      | zero => cases h
      | succ levels =>
          have hoperands {source : SourceType} (hsource : image.type? index = some source) :
              ∀ operand ∈ source.operands, image.type? operand ≠ some .void :=
            himage.types source (List.mem_of_getElem? hsource)
          have hbuiltin {found : Builtin} (hvalue : found ≠ .void) :
              TargetType.Proper (.builtin found) ∧
                (image.type? index ≠ some .void → TargetType.builtin found ≠ .void) :=
            ⟨.builtin found, fun _ hsame => hvalue (TargetType.builtin.inj hsame)⟩
          have hdeclared {kind : Nominal} {decl : TypeId} :
              TargetType.Proper (.declared kind decl) ∧
                (image.type? index ≠ some .void → TargetType.declared kind decl ≠ .void) :=
            ⟨.declared kind decl, nofun⟩
          unfold mapWithin at h
          cases hsource : image.type? index with
          | none =>
              simp only [hsource] at h
              cases h
          | some source =>
              rw [hsource] at hbuiltin hdeclared
              have hinner (inner : TypeIndex) (hmem : inner ∈ source.operands) {found : TargetType}
                  (hfound : mapWithin image registry levels inner = .ok found) : found.Held :=
                ⟨(ih levels (Nat.lt_succ_self _) inner hfound).2 (hoperands hsource inner hmem),
                  (ih levels (Nat.lt_succ_self _) inner hfound).1⟩
              cases source <;> simp only [hsource] at h
              case void =>
                cases h
                exact ⟨.builtin _, fun hne => absurd rfl hne⟩
              case func signature | method signature =>
                cases levels with
                | zero =>
                    obtain ⟨found, hfound, rfl⟩ := ok_of_map h
                    exact ⟨(proper_of_signatureWith (fun _ _ hdeep => by cases hdeep)
                      (hoperands hsource) hfound).delegate, nofun⟩
                | succ levels =>
                    obtain ⟨found, hfound, rfl⟩ := ok_of_map h
                    exact ⟨(proper_of_signatureWith (fun arg _ => ih levels (by omega) arg)
                      (hoperands hsource) hfound).delegate, nofun⟩
              case obj | struct | virtual | enum | abstract =>
                obtain ⟨decl, -, rfl⟩ := ok_of_map h
                exact hdeclared
              case ref inner =>
                obtain ⟨found, hfound, rfl⟩ := ok_of_map h
                have hheld := hinner inner List.mem_cons_self hfound
                exact ⟨.ref hheld.value hheld.proper, nofun⟩
              case null inner =>
                obtain ⟨found, hfound, rfl⟩ := ok_of_map h
                have hheld := hinner inner List.mem_cons_self hfound
                exact ⟨.nullable hheld.value hheld.proper, nofun⟩
              case packed inner =>
                have hheld := hinner inner List.mem_cons_self h
                exact ⟨hheld.proper, fun _ => hheld.value⟩
              all_goals
                cases h
                exact hbuiltin nofun

end TypeMapping

section Mapping

variable {image : Image} {registry : Registry}

theorem Registry.held_of_mapType (himage : image.Voidless) {index : TypeIndex}
    (hvalue : image.type? index ≠ some .void) {type : TargetType}
    (h : registry.mapType image index = .ok type) : type.Held := by
  obtain ⟨hproper, hnotVoid⟩ := TypeMapping.proper_of_mapWithin himage _ index h
  exact ⟨hnotVoid hvalue, hproper⟩

theorem Registry.proper_of_mapType (himage : image.Voidless) {index : TypeIndex}
    {type : TargetType} (h : registry.mapType image index = .ok type) : type.Proper :=
  (TypeMapping.proper_of_mapWithin himage _ index h).1

theorem Registry.proper_of_signatureOf (himage : image.Voidless) {index : TypeIndex}
    {signature : Signature} (h : registry.signatureOf image index = .ok signature) :
    signature.Proper := by
  unfold signatureOf at h
  cases hfound : image.signature? index with
  | none =>
      simp only [hfound] at h
      cases h
  | some source =>
      simp only [hfound] at h
      refine TypeMapping.proper_of_signatureWith
        (fun arg _ => TypeMapping.proper_of_mapWithin himage _ arg) ?_ h
      obtain ⟨whole, hwhole, hsignature⟩ := Option.bind_eq_some_iff.mp hfound
      have hargs := himage.types whole (List.mem_of_getElem? hwhole)
      cases whole <;> simp only [SourceType.signature?] at hsignature <;> cases hsignature <;>
        exact hargs

theorem ObjectLayout.proper_of_prototypeSignature (himage : image.Voidless)
    {prototype : Prototype} {signature : Signature}
    (h : prototypeSignature image registry prototype = .ok signature) : signature.Proper := by
  unfold prototypeSignature at h
  cases hfound : image.calleeType? prototype.function with
  | none =>
      simp only [hfound] at h
      cases h
  | some type =>
      simp only [hfound] at h
      obtain ⟨whole, hwhole, h⟩ := ok_of_bind h
      cases h
      have hproper := registry.proper_of_signatureOf himage hwhole
      exact ⟨fun param hparam => hproper.params param (List.mem_of_mem_tail hparam), hproper.ret⟩

end Mapping

/-! ## Registries -/

def Shape.Sound (module : TargetModule) : Shape → Prop
  | .object shape => shape.Sound module
  | .virtual shape => shape.Sound module
  | .enum shape => ∀ construct ∈ shape.constructs, construct.Sound module
  | .abstract _ => True

theorem Shape.Sound.keep {before after : TargetModule} {shape : Shape} (h : shape.Sound before)
    (hsame : ∀ constructor ∈ shape.constructors,
      CallTarget.signature after (.method constructor)
        = CallTarget.signature before (.method constructor)) : shape.Sound after := by
  have hconstructs {constructor : MethodId} {fields : Nat}
      (hmem : constructor ∈ shape.constructors) (hbefore : before.Constructs constructor fields) :
      after.Constructs constructor fields := by
    unfold TargetModule.Constructs at hbefore ⊢
    rwa [hsame constructor hmem]
  cases shape with
  | object shape => exact ⟨hconstructs List.mem_cons_self h.constructor, h.fields, h.slots⟩
  | virtual shape => exact ⟨hconstructs List.mem_cons_self h.constructor, h.fields⟩
  | enum shape =>
      intro construct hconstruct
      exact ⟨hconstructs (List.mem_map_of_mem hconstruct) (h construct hconstruct).constructor,
        (h construct hconstruct).fields⟩
  | abstract name => trivial

theorem Shape.Bare.sound {module : TargetModule} {shape : Shape} (h : shape.Bare)
    (hconstructors : ∀ constructor ∈ shape.constructors,
      (module.method? constructor).map (·.signature) = some ⟨[], .void⟩) : shape.Sound module := by
  have hconstructs {constructor : MethodId} (hmem : constructor ∈ shape.constructors) :
      module.Constructs constructor 0 := by
    simp [TargetModule.Constructs, CallTarget.signature, hconstructors constructor hmem]
  cases shape with
  | object shape =>
      obtain ⟨-, hfields, hslots⟩ := h
      refine ⟨hconstructs List.mem_cons_self, ?_, ?_⟩
      · rw [hfields]
        nofun
      · rw [hslots]
        nofun
  | virtual shape =>
      refine ⟨hconstructs List.mem_cons_self, ?_⟩
      rw [show shape.fields = [] from h]
      nofun
  | enum shape =>
      intro construct hconstruct
      have hfields := h construct hconstruct
      refine ⟨?_, ?_⟩
      · rw [hfields]
        exact hconstructs (List.mem_map_of_mem hconstruct)
      · rw [hfields]
        nofun
  | abstract name => trivial

theorem TargetModule.Keeps.callSignature {free : MethodId → Prop} {before after : TargetModule}
    (h : before.Keeps free after) {constructor : MethodId} {index : Nat}
    (hbuilds : before.builds? constructor = some index) (hfree : ¬ free constructor) :
    CallTarget.signature after (.method constructor)
      = CallTarget.signature before (.method constructor) := by
  obtain ⟨method, hmethod, -⟩ := Option.bind_eq_some_iff.mp hbuilds
  have hbefore : (before.method? constructor).map (·.signature) = some method.signature := by
    rw [hmethod, Option.map_some]
  simp only [CallTarget.signature, h.signature hfree hbefore, hbefore]

structure Registry.Typed (registry : Registry) : Prop extends registry.Linked where
  classes : ∀ type ∈ registry.target.types, ∀ field ∈ type.fields, field.type.Held
  shapes : ∀ index declaration, registry.declaration? index = some declaration →
    declaration.shape.Sound registry.target

namespace Registry.Typed

variable {index : TypeIndex} {before after : Registry}

theorem resolves (h : before.Typed) {declaration : Declaration}
    (hresolves : Resolves index declaration before after) : after.Typed := by
  refine ⟨h.toLinked.resolves hresolves, ?_, ?_⟩
  · intro type htype field hfield
    rcases hresolves.classes type htype with hbefore | hnone
    · exact h.classes type hbefore field hfield
    · rw [hnone] at hfield
      cases hfield
  · intro other found hfound
    rw [declaration?_of_resolves hresolves] at hfound
    split at hfound
    · cases hfound
      exact hresolves.bare.sound fun constructor hconstructor =>
        (hresolves.constructors constructor hconstructor).2
    · refine (h.shapes other found hfound).keep ?_
      intro constructor hconstructor
      exact hresolves.target.callSignature (h.constructors other found hfound _ hconstructor) id

theorem changes (h : before.Typed) {old new : Declaration}
    (hchanges : Changes index old new before after)
    (hclasses : ∀ type ∈ after.target.types, type ∈ before.target.types ∨
      ∀ field ∈ type.fields, field.type.Held)
    (hshape : new.shape.Sound after.target) : after.Typed := by
  refine ⟨h.toLinked.changes hchanges, ?_, ?_⟩
  · intro type htype
    rcases hclasses type htype with hbefore | hfields
    · exact h.classes type hbefore
    · exact hfields
  · intro other found hfound
    by_cases hsame : other = index
    · subst hsame
      rw [hchanges.changed] at hfound
      cases hfound
      exact hshape
    · rw [hchanges.others other hsame] at hfound
      refine (h.shapes other found hfound).keep ?_
      intro constructor hconstructor
      exact hchanges.target.callSignature (h.constructors other found hfound _ hconstructor)
        (h.not_mem_constructors hchanges.found hfound hsame hconstructor)

theorem recodes (h : before.Typed) {old new : Declaration}
    (hchanges : Changes index old new before after)
    (hrecodes : before.target.Recodes (· ∈ old.shape.constructors) after.target)
    (hshape : new.shape.Sound before.target) : after.Typed := by
  refine h.changes hchanges ?_ (hshape.keep ?_)
  · intro type htype
    rw [hrecodes.classes] at htype
    exact Or.inl htype
  · intro constructor _
    simp only [CallTarget.signature, hrecodes.signature?]

end Registry.Typed

/-! ## The passes over the type table -/

namespace TypePasses

variable {image : Image} {index : TypeIndex} {source : SourceType} {before after : Registry}

theorem resolveType_typed {result : Unit} (hbefore : before.Typed)
    (h : resolveType (source, index) before = .ok result after) : after.Typed := by
  rcases resolveType_ok h with rfl | ⟨declaration, hresolves, -⟩
  · exact hbefore
  · exact hbefore.resolves hresolves

theorem callSignature_of_methods {before after : TargetModule}
    (h : after.methods = before.methods) (constructor : MethodId) :
    CallTarget.signature after (.method constructor)
      = CallTarget.signature before (.method constructor) := by
  simp only [CallTarget.signature, TargetModule.method?, h]

theorem defineObject_typed (himage : image.Voidless) {object : ObjectType}
    (hfields : ∀ field ∈ object.fields, image.type? field.type ≠ some .void) {result : Unit}
    (hbefore : before.Typed)
    (h : ObjectLayout.define image index object before = .ok result after) : after.Typed := by
  obtain ⟨old, shape, _, own, slots, hshape, -, hown, hslots, htarget, hchanges⟩ :=
    ObjectLayout.define_ok h
  refine hbefore.changes hchanges ?_ ?_
  · intro type htype
    rw [htarget] at htype
    have hfound : type ∈ before.target.types ∨ type.fields = own ++ slots :=
      mem_modify TypeDecl.fields htype fun _ => rfl
    refine hfound.imp_right fun hsame => ?_
    intro decl hdecl
    rw [hsame, List.mem_append] at hdecl
    rcases hdecl with hdecl | hdecl
    · obtain ⟨field, hfield, hstep⟩ := mem_of_mapM hown hdecl
      obtain ⟨mapped, hmapped, hstep⟩ := ok_of_bind hstep
      cases hstep
      exact Registry.held_of_mapType himage (hfields field hfield) hmapped
    · obtain ⟨chain, -, hslots⟩ := ok_of_bind hslots
      obtain ⟨planned, -, hslots⟩ := ok_of_bind hslots
      obtain ⟨slot, -, hstep⟩ := mem_of_mapM hslots hdecl
      obtain ⟨signature, hsignature, hstep⟩ := ok_of_bind hstep
      cases hstep
      exact ⟨nofun, (ObjectLayout.proper_of_prototypeSignature himage hsignature).delegate⟩
  · have hsound := hbefore.shapes index old hchanges.found
    rw [hshape] at hsound
    have hbased : Shape.Sound before.target (.object { shape with base := object.super }) :=
      ⟨hsound.constructor, hsound.fields, hsound.slots⟩
    rw [htarget]
    exact hbased.keep fun constructor _ => callSignature_of_methods rfl constructor

theorem defineVirtual_typed (himage : image.Voidless) {fields : List Field}
    (hfields : ∀ field ∈ fields, image.type? field.type ≠ some .void) {result : Unit}
    (hbefore : before.Typed)
    (h : VirtualLayout.define image index fields before = .ok result after) : after.Typed := by
  obtain ⟨old, shape, flat, hshape, hflat, htarget, hchanges⟩ := VirtualLayout.define_ok h
  have hheld : ∀ field ∈ flat, field.type.Held := by
    intro field hfield
    obtain ⟨⟨entry, i⟩, hentry, hstep⟩ := mem_of_mapM hflat hfield
    obtain ⟨mapped, hmapped, hstep⟩ := ok_of_bind hstep
    cases hstep
    exact Registry.held_of_mapType himage
      (hfields entry (List.fst_mem_of_mem_zipIdx hentry)) hmapped
  refine hbefore.changes hchanges ?_ ?_
  · intro type htype
    rw [htarget] at htype
    refine (mem_modify TypeDecl.fields htype fun _ => rfl).imp_right fun hsame => ?_
    rw [hsame]
    exact List.forall_mem_map.mpr hheld
  · have hsound := hbefore.shapes index old hchanges.found
    rw [hshape] at hsound
    have hlaid : Shape.Sound before.target (.virtual { shape with fields := flat }) :=
      ⟨hsound.constructor, hheld⟩
    rw [htarget]
    exact hlaid.keep fun constructor _ => callSignature_of_methods rfl constructor

theorem defineEnum_typed (himage : image.Voidless) {variants : EnumType}
    (hparams : ∀ construct ∈ variants.constructs, ∀ param ∈ construct.params,
      image.type? param ≠ some .void) {result : Unit} (hbefore : before.Typed)
    (h : EnumLayout.define image index variants before = .ok result after) : after.Typed := by
  obtain ⟨old, shape, fields, hshape, hdefined, hchanges⟩ := EnumLayout.define_ok h
  have hheld : ∀ flat ∈ fields, ∀ field ∈ flat, field.type.Held := by
    intro flat hflat field hfield
    obtain ⟨i, hi⟩ := List.mem_iff_getElem?.mp hflat
    obtain ⟨⟨construct, made⟩, registry, hpair, -, hmapped⟩ := hdefined.mapped i flat hi
    replace hpair := List.mem_of_getElem? hpair
    obtain ⟨⟨param, i⟩, hparam, hstep⟩ := mem_of_mapM hmapped hfield
    obtain ⟨mapped, hmapped, hstep⟩ := ok_of_bind hstep
    cases hstep
    exact registry.held_of_mapType himage (hparams construct (List.of_mem_zip hpair).1 param
      (List.fst_mem_of_mem_zipIdx hparam)) hmapped
  refine hbefore.changes hchanges ?_ ?_
  · intro type htype
    rcases hdefined.classes type htype with hearlier | ⟨flat, hflat, hsame⟩
    · refine (mem_modify TypeDecl.fields hearlier fun _ => rfl).imp_right fun hsame => ?_
      rw [hsame]
      exact List.forall_mem_singleton.mpr ⟨nofun, .builtin _⟩
    · refine Or.inr ?_
      rw [hsame]
      exact List.forall_mem_map.mpr (hheld flat hflat)
  · have hsound := hbefore.shapes index old hchanges.found
    have hbuilds := hbefore.constructors index old hchanges.found
    have hcodes := hbefore.distinct index old hchanges.found
    rw [hshape] at hsound hbuilds hcodes
    intro construct hconstruct
    have hclass : before.target.Keeps
        (· ∈ (variants.constructs.zip shape.constructs).map (·.2.constructor))
        (before.target.modifyType old.decl fun type =>
          { type with fields := [{ name := "index", type := .i32 }] }) :=
      .modifyType _ _ (fun _ => rfl) fun _ => rfl
    have hlinks := hbefore.links index old hchanges.found
    simp only [Declaration.stem, hshape, List.forall_mem_map] at hlinks
    rcases hdefined.cases hcodes (fun made hmade => hclass.links (hlinks made hmade)) hconstruct with
      ⟨hmem, hfilled⟩ | ⟨hmem, hnot, -⟩
    · refine ⟨?_, hheld construct.fields hmem⟩
      obtain ⟨method, hmethod, hparams⟩ := Option.map_eq_some_iff.mp hfilled.params
      simp [TargetModule.Constructs, CallTarget.signature, hmethod, hparams]
    · have hsame := (hclass.trans hdefined.target).callSignature
        (hbuilds _ (List.mem_map_of_mem hmem)) hnot
      refine ⟨?_, (hsound construct hmem).fields⟩
      rw [TargetModule.Constructs, hsame]
      exact (hsound construct hmem).constructor

theorem defineType_typed (himage : image.Voidless) (hsource : image.types[index]? = some source)
    {result : Unit} (hbefore : before.Typed)
    (h : defineType image (source, index) before = .ok result after) : after.Typed := by
  have hoperands := himage.types source (List.mem_of_getElem? hsource)
  cases source with
  | obj object | struct object =>
      refine defineObject_typed himage ?_ hbefore h
      exact fun field hfield => hoperands field.type (List.mem_map_of_mem hfield)
  | enum variants =>
      refine defineEnum_typed himage ?_ hbefore h
      intro construct hconstruct param hparam
      exact hoperands param (List.mem_flatMap.mpr ⟨construct, hconstruct, hparam⟩)
  | virtual fields =>
      refine defineVirtual_typed himage ?_ hbefore h
      exact fun field hfield => hoperands field.type (List.mem_map_of_mem hfield)
  | abstract name =>
      obtain ⟨old, hrecodes, hchanges⟩ := advance_changes h
      exact hbefore.recodes hchanges hrecodes (hbefore.shapes index old hchanges.found)
  | _ =>
      cases h
      exact hbefore

theorem held_of_contribution {registry : Registry}
    (hclasses : ∀ type ∈ registry.target.types, ∀ field ∈ type.fields, field.type.Held)
    {owner : TypeIndex} {part : ObjectLayout.Contribution}
    (h : ObjectLayout.contribution image registry owner = .ok part) :
    ∀ field ∈ part.fields, field.type.Held := by
  obtain ⟨object, -, h⟩ := ok_of_bind h
  obtain ⟨⟨declaration, _⟩, -, h⟩ := ok_of_bind h
  obtain ⟨fields, hfields, h⟩ := ok_of_bind h
  cases h
  intro flat hflat
  obtain ⟨⟨field, i⟩, -, hstep⟩ := mem_of_mapM hfields hflat
  cases htype : registry.target.type? declaration.decl with
  | none =>
      simp only [htype] at hstep
      cases hstep
  | some type =>
      simp only [htype, Option.map_some, Option.getD_some] at hstep
      cases hdecl : type.fields[i]? with
      | none =>
          simp only [hdecl] at hstep
          cases hstep
      | some decl =>
          simp only [hdecl] at hstep
          cases hstep
          exact hclasses type (List.mem_of_getElem? htype) decl (List.mem_of_getElem? hdecl)

theorem proper_of_addSlot (himage : image.Voidless) {registry : Registry}
    {parts : List ObjectLayout.Contribution} {planned : ObjectLayout.PlannedSlot}
    {slots found : List MethodSlot} (hslots : ∀ slot ∈ slots, slot.signature.Proper)
    (h : ObjectLayout.addSlot image registry parts slots planned = .ok found) :
    ∀ slot ∈ found, slot.signature.Proper := by
  unfold ObjectLayout.addSlot at h
  cases hnew : planned.newSlot with
  | none =>
      simp only [hnew] at h
      cases h
      intro slot hslot
      obtain ⟨i, hi⟩ := List.mem_iff_getElem?.mp hslot
      rw [List.getElem?_modify] at hi
      obtain ⟨earlier, hearlier, rfl⟩ := Option.map_eq_some_iff.mp hi
      have hproper := hslots earlier (List.mem_of_getElem? hearlier)
      split <;> exact hproper
  | some position =>
      simp only [hnew] at h
      cases hpart : parts.find? (·.owner == planned.owner) with
      | none =>
          simp only [hpart] at h
          cases h
      | some part =>
          simp only [hpart] at h
          obtain ⟨signature, hsignature, h⟩ := ok_of_bind h
          cases h
          intro slot hslot
          rw [List.mem_append, List.mem_singleton] at hslot
          rcases hslot with hslot | rfl
          · exact hslots slot hslot
          · exact ObjectLayout.proper_of_prototypeSignature himage hsignature

theorem proper_of_addSlots (himage : image.Voidless) {registry : Registry}
    {parts : List ObjectLayout.Contribution} {planned : List ObjectLayout.PlannedSlot}
    {slots found : List MethodSlot} (hslots : ∀ slot ∈ slots, slot.signature.Proper)
    (h : planned.foldlM (ObjectLayout.addSlot image registry parts) slots = .ok found) :
    ∀ slot ∈ found, slot.signature.Proper := by
  induction planned generalizing slots with
  | nil =>
      cases h
      exact hslots
  | cons first planned ih =>
      rw [List.foldlM_cons] at h
      obtain ⟨middle, hmiddle, h⟩ := ok_of_bind h
      exact ih (proper_of_addSlot himage hslots hmiddle) h

theorem compileObject_typed (himage : image.Voidless) {object : ObjectType} {result : Unit}
    (hbefore : before.Typed)
    (h : ObjectLayout.compile image index object before = .ok result after) : after.Typed := by
  obtain ⟨old, shape, laid, hshape, hlayout, htarget, hchanges⟩ := ObjectLayout.compile_ok h
  have hrecodes : before.target.Recodes (· ∈ old.shape.constructors) after.target := by
    rw [htarget]
    exact .setBody _ _ (by simp [hshape, Shape.constructors])
  have hsound := hbefore.shapes index old hchanges.found
  rw [hshape] at hsound
  obtain ⟨chain, parts, planned, _, _, _, hlaid⟩ := ObjectLayout.layout_ok hlayout
  refine hbefore.recodes hchanges hrecodes ⟨hsound.constructor, ?_, ?_⟩
  · intro field hfield
    rw [hlaid.fields_eq] at hfield
    obtain ⟨part, hpart, hfield⟩ := List.mem_flatMap.mp hfield
    obtain ⟨owner, -, hcontribution⟩ := mem_of_mapM hlaid.parts_ok hpart
    exact held_of_contribution (by exact hbefore.classes) hcontribution field hfield
  · exact proper_of_addSlots himage (List.forall_mem_nil _) hlaid.slots_ok

theorem compileType_typed (himage : image.Voidless) {result : Unit} (hbefore : before.Typed)
    (h : compileType image (source, index) before = .ok result after) : after.Typed := by
  cases source with
  | obj object | struct object => exact compileObject_typed himage hbefore h
  | enum variants =>
      obtain ⟨old, hrecodes, hchanges⟩ := EnumLayout.compile_ok h
      exact hbefore.recodes hchanges hrecodes (hbefore.shapes index old hchanges.found)
  | virtual fields =>
      obtain ⟨old, shape, hshape, htarget, hchanges⟩ := VirtualLayout.compile_ok h
      refine hbefore.recodes hchanges ?_ (hbefore.shapes index old hchanges.found)
      rw [htarget]
      exact .setBody _ _ (by simp [hshape, Shape.constructors])
  | abstract name =>
      obtain ⟨old, hrecodes, hchanges⟩ := advance_changes h
      exact hbefore.recodes hchanges hrecodes (hbefore.shapes index old hchanges.found)
  | _ =>
      cases h
      exact hbefore

end TypePasses

end BytecodeLowering
