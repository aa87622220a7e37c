import BytecodeLowering.Proofs.Lower.Constructors

/-!
# The fields of object classes

The fields that the second pass gives to the classes of object types: one for
each field that the type declares, and behind them one delegate for each slot
that it introduces.  The types of these fields depend on the registry only
through the classes that were made for the source types, which no later step
replaces, so what was computed for a type holds in every later registry.
-/

namespace BytecodeLowering

def Registry.decl? (registry : Registry) (index : TypeIndex) : Option TypeId :=
  (registry.declaration? index).map (·.decl)

theorem Registry.decl?_of_outline {registry : Registry} {index : TypeIndex} {outline : Outline}
    (h : registry.outline? index = some outline) : registry.decl? index = some outline.decl := by
  obtain ⟨declaration, hfound, hdecl, -⟩ := declaration_of_outline h
  rw [decl?, hfound, Option.map_some, hdecl]

theorem Registry.Linked.eq_of_decl? {registry : Registry} (h : registry.Linked)
    {index other : TypeIndex} {decl : TypeId} (hindex : registry.decl? index = some decl)
    (hother : registry.decl? other = some decl) : index = other := by
  obtain ⟨first, hfirst, rfl⟩ := Option.map_eq_some_iff.mp hindex
  obtain ⟨second, hsecond, hsame⟩ := Option.map_eq_some_iff.mp hother
  have hsource := h.decl index first hfirst
  rw [← hsame, h.decl other second hsecond] at hsource
  exact (Option.some.inj hsource).symm

/-! ## The same classes -/

section Same

variable {image : Image} {before after : Registry}

theorem Registry.Changes.decl? {index : TypeIndex} {old new : Declaration}
    (h : Changes index old new before after) : after.decl? = before.decl? := by
  funext other
  by_cases hother : other = index
  · subst hother
    simp only [Registry.decl?, h.changed, h.found, Option.map_some, h.decl]
  · simp only [Registry.decl?, h.others other hother]

theorem Registry.decl?_update_stage (registry : Registry) (index : TypeIndex) (stage : Stage) :
    (registry.update index fun declaration => { declaration with stage }).decl?
      = registry.decl? := by
  funext other
  simp only [decl?, declaration?_update]
  split
  · cases registry.declaration? other <;> rfl
  · rfl

theorem TypeMapping.declared_eq_ok {registry : Registry} {index : TypeIndex} {decl : TypeId} :
    declared registry index = .ok decl ↔ registry.decl? index = some decl := by
  unfold declared Registry.decl?
  cases registry.declaration? index <;> simp

variable (h : after.decl? = before.decl?)

include h

theorem TypeMapping.declared_same : declared after = declared before := by
  funext index
  have hindex := congrFun h index
  unfold Registry.decl? at hindex
  unfold declared
  cases hafter : after.declaration? index <;> cases hbefore : before.declaration? index <;>
    simp_all

theorem TypeMapping.mapWithin_same (levels : Nat) :
    mapWithin image after levels = mapWithin image before levels := by
  induction levels using Nat.strongRecOn with
  | ind levels ih =>
      cases levels with
      | zero => rfl
      | succ levels =>
          funext index
          have hinner := ih levels (Nat.lt_succ_self _)
          unfold mapWithin
          rw [hinner, declared_same h]
          -- a function type takes two levels at once
          cases levels with
          | zero => rfl
          | succ levels => simp only [ih levels (by omega)]

theorem Registry.mapType_same : after.mapType image = before.mapType image :=
  TypeMapping.mapWithin_same h _

theorem Registry.signatureOf_same : after.signatureOf image = before.signatureOf image := by
  funext index
  simp only [signatureOf, TypeMapping.mapWithin_same h]

theorem ObjectLayout.prototypeSignature_same :
    prototypeSignature image after = prototypeSignature image before := by
  funext prototype
  simp only [prototypeSignature, Registry.slotSignature, Registry.signatureOf_same h]

theorem ObjectLayout.ownFields_same (object : ObjectType) :
    ownFields image object after = ownFields image object before := by
  simp only [ownFields, Registry.mapType_same h]

theorem ObjectLayout.slotFields_same (index : TypeIndex) :
    slotFields image index after = slotFields image index before := by
  simp only [slotFields, prototypeSignature_same h]

end Same

/-- Mapping reads the type table of an image and nothing else of it. -/
theorem TypeMapping.mapWithin_types {image other : Image} (h : other.types = image.types)
    (registry : Registry) (levels : Nat) :
    mapWithin other registry levels = mapWithin image registry levels := by
  have htype (index : TypeIndex) : other.type? index = image.type? index := by
    rw [Image.type?, Image.type?, h]
  induction levels using Nat.strongRecOn with
  | ind levels ih =>
      cases levels with
      | zero => rfl
      | succ levels =>
          funext index
          unfold mapWithin
          rw [htype, ih levels (Nat.lt_succ_self _)]
          -- a function type takes two levels at once
          cases levels with
          | zero => rfl
          | succ levels => simp only [ih levels (by omega)]

theorem Registry.mapType_types {image other : Image} (h : other.types = image.types)
    (registry : Registry) : registry.mapType other = registry.mapType image :=
  TypeMapping.mapWithin_types h registry _

theorem Registry.signatureOf_types {image other : Image} (h : other.types = image.types)
    (registry : Registry) : registry.signatureOf other = registry.signatureOf image := by
  funext index
  simp only [signatureOf, Image.signature?, Image.type?, h, TypeMapping.mapWithin_types h]

/-! ## Defined classes -/

structure Registry.HasClass (registry : Registry) (image : Image) (index : TypeIndex)
    (object : ObjectType) (decl : TypeId) (own slots : List FieldDecl) : Prop where
  made : registry.decl? index = some decl
  own_ok : ObjectLayout.ownFields image object registry = .ok own
  slots_ok : ObjectLayout.slotFields image index registry = .ok slots
  fields : (registry.target.type? decl).map (·.fields) = some (own ++ slots)

section Defining

variable {image : Image} {index : TypeIndex} {before after : Registry}

theorem Registry.HasClass.keep {object : ObjectType} {decl : TypeId} {own slots : List FieldDecl}
    (h : before.HasClass image index object decl own slots) (hdecls : after.decl? = before.decl?)
    (htype : after.target.type? decl = before.target.type? decl) :
    after.HasClass image index object decl own slots where
  made := by rw [hdecls, h.made]
  own_ok := by rw [ObjectLayout.ownFields_same hdecls, h.own_ok]
  slots_ok := by rw [ObjectLayout.slotFields_same hdecls, h.slots_ok]
  fields := by rw [htype, h.fields]

theorem ObjectLayout.define_hasClass {object : ObjectType} {result : Unit}
    (hbefore : before.Linked) (h : define image index object before = .ok result after) :
    ∃ decl own slots, after.HasClass image index object decl own slots := by
  obtain ⟨old, _, _, own, slots, -, -, hown, hslots, htarget, hchanges⟩ := define_ok h
  have hdecls : after.decl? = _ :=
    hchanges.decl?.trans (before.decl?_update_stage index .defined).symm
  refine ⟨old.decl, own, slots, ?_, ?_, ?_, ?_⟩
  · rw [hchanges.decl?, Registry.decl?, hchanges.found, Option.map_some]
  · rw [ownFields_same hdecls, hown]
  · rw [slotFields_same hdecls, hslots]
  · obtain ⟨type, htype, -⟩ := Option.bind_eq_some_iff.mp
      (hbefore.decl index old hchanges.found)
    rw [htarget, TargetModule.type?_modifyType, if_pos rfl, htype]
    rfl

theorem TypePasses.defineType_others {source : SourceType} {result : Unit}
    (hbefore : before.Linked) (h : defineType image (source, index) before = .ok result after)
    {decl : TypeId} (hother : before.target.sourceOf? decl ≠ some index) :
    after.target.type? decl = before.target.type? decl := by
  have hclass {old : Declaration} (hold : before.declaration? index = some old) :
      old.decl ≠ decl := by
    rintro rfl
    exact hother (hbefore.decl index old hold)
  cases source with
  | obj object | struct object =>
      obtain ⟨old, _, _, _, _, -, -, -, -, htarget, hchanges⟩ := ObjectLayout.define_ok h
      rw [htarget, TargetModule.type?_modifyType, if_neg (hclass hchanges.found)]
  | virtual fields =>
      obtain ⟨old, _, _, -, -, htarget, hchanges⟩ := VirtualLayout.define_ok h
      rw [htarget, TargetModule.type?_modifyType, if_neg (hclass hchanges.found)]
  | enum variants =>
      obtain ⟨old, shape, fields, hshape, hdefined, hchanges⟩ := EnumLayout.define_ok h
      rw [hdefined.others decl, TargetModule.type?_modifyType, if_neg (hclass hchanges.found)]
      intro hdecl
      obtain ⟨pair, hpair, rfl⟩ := List.mem_map.mp hdecl
      refine hother (hbefore.decls index old hchanges.found _ ?_)
      rw [hshape]
      exact List.mem_map_of_mem (List.of_mem_zip hpair).2
  | abstract name =>
      obtain ⟨old, hrecodes, -⟩ := advance_changes h
      rw [TargetModule.type?, hrecodes.classes]
      rfl
  | _ =>
      cases h
      rfl

structure ObjectsHold (holds : TypeIndex → ObjectType → Registry → Prop) (image : Image)
    (count : Nat) (registry : Registry) : Prop extends registry.Linked where
  objects : ∀ index < count, ∀ object, image.object? index = some object →
    holds index object registry

/-- What defining an object type makes true of it, and what then depends on its own
class only, is true of every object type when all types are defined. -/
theorem TypePasses.defineAll_objects (holds : TypeIndex → ObjectType → Registry → Prop)
    (hkeep : ∀ before after index object, holds index object before → after.decl? = before.decl? →
      (∀ decl, before.decl? index = some decl →
        after.target.type? decl = before.target.type? decl) → holds index object after)
    (hdefine : ∀ before after index object result, before.Linked →
      ObjectLayout.define image index object before = .ok result after → holds index object after)
    {result : Unit} (hbefore : before.Linked) (h : defineAll image before = .ok result after) :
    ObjectsHold holds image image.types.length after := by
  refine pass_positions (ObjectsHold holds image) h ?_ ?_ ⟨hbefore, nofun⟩
  · exact fun registry hold => ⟨hold.toLinked.enter, nofun⟩
  intro index source hsource before result after hbefore hstep
  have hkept : after.Linked ∧ after.decl? = before.decl? := by
    rcases defineType_ok hstep with rfl | ⟨old, new, hchanges⟩
    · exact ⟨hbefore.toLinked, rfl⟩
    · exact ⟨hbefore.toLinked.changes hchanges, hchanges.decl?⟩
  refine ⟨hkept.1, ?_⟩
  intro other hother object hobject
  rcases Nat.lt_succ_iff_lt_or_eq.mp hother with hearlier | rfl
  · have hheld := hbefore.objects other hearlier object hobject
    refine hkeep before after other object hheld hkept.2 ?_
    intro decl hdecl
    refine defineType_others hbefore.toLinked hstep ?_
    obtain ⟨declaration, hdeclaration, rfl⟩ := Option.map_eq_some_iff.mp hdecl
    rw [hbefore.decl other declaration hdeclaration]
    exact fun hsame => Nat.ne_of_lt hearlier (Option.some.inj hsame)
  · rcases Image.source_of_object hsource hobject with rfl | rfl
    · exact hdefine before after other object result hbefore.toLinked hstep
    · exact hdefine before after other object result hbefore.toLinked hstep

structure Classed (image : Image) (count : Nat) (registry : Registry) : Prop
    extends registry.Linked where
  classes : ∀ index < count, ∀ object, image.object? index = some object →
    ∃ decl own slots, registry.HasClass image index object decl own slots

theorem TypePasses.defineAll_classed {result : Unit} (hbefore : before.Linked)
    (h : defineAll image before = .ok result after) : Classed image image.types.length after := by
  have hall := defineAll_objects
    (fun index object registry =>
      ∃ decl own slots, registry.HasClass image index object decl own slots) ?_ ?_ hbefore h
  · exact ⟨hall.toLinked, hall.objects⟩
  · rintro before after index object ⟨decl, own, slots, hclass⟩ hdecls hothers
    exact ⟨decl, own, slots, hclass.keep hdecls (hothers decl hclass.made)⟩
  · intro before after index object result hbefore hstep
    exact ObjectLayout.define_hasClass hbefore hstep

end Defining

end BytecodeLowering
