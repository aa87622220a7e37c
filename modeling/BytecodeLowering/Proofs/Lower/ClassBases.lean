import BytecodeLowering.Lower.Program
import BytecodeLowering.Proofs.Lower.Frames
import BytecodeLowering.Proofs.Lower.SuperChains
import BytecodeLowering.Proofs.Target.Inheritance

/-!
# The bases of object classes

A class has the class of the super type as its base, so it derives from the
classes in the chain of its type and from no others, whatever order the types
stand in; a checked conversion between two of these classes is a cast unless it
goes up a chain.
-/

namespace BytecodeLowering

/-! ## Conversions between references -/

theorem Emit.convertReference_checked (source target : TargetType) (scope : Scope)
    (progress : Progress) :
    convertReference source target true scope progress = .ok ()
      (if isWidening scope.registry.target source target then progress
        else { progress with builder := progress.builder.emit (.castClass target) }) := by
  have hstep : convertReference source target true scope progress
      = (if !isWidening scope.registry.target source target && true then emit (.castClass target)
          else pure () : Emit Unit) scope progress := rfl
  rw [hstep]
  cases isWidening scope.registry.target source target <;> rfl

/-! ## Bases -/

structure Registry.HasBase (registry : Registry) (index : TypeIndex) (object : ObjectType)
    (decl : TypeId) : Prop where
  made : registry.decl? index = some decl
  base : registry.target.base? decl = object.super.bind registry.decl?

section Defining

variable {image : Image} {index : TypeIndex} {object : ObjectType} {decl : TypeId}
  {before after : Registry} {result : Unit}

theorem Registry.HasBase.keep (h : before.HasBase index object decl)
    (hdecls : after.decl? = before.decl?)
    (htype : after.target.type? decl = before.target.type? decl) :
    after.HasBase index object decl where
  made := by rw [hdecls, h.made]
  base := by rw [TargetModule.base?, htype, hdecls, ← h.base, TargetModule.base?]

theorem ObjectLayout.baseOf_class {registry : Registry} {base : Option (TypeIndex × TypeId)}
    (h : baseOf object registry = .ok base) :
    base.map Prod.snd = object.super.bind registry.decl? := by
  cases hsuper : object.super with
  | none => simp_all [baseOf]
  | some parent => rw [baseOf_decl h hsuper, Option.bind_some]

theorem ObjectLayout.define_hasBase (hbefore : before.Linked)
    (h : define image index object before = .ok result after) :
    ∃ decl, after.HasBase index object decl := by
  obtain ⟨old, _, base, _, _, -, hbase, -, -, htarget, hchanges⟩ := define_ok h
  refine ⟨old.decl, ?_, ?_⟩
  · rw [hchanges.decl?, Registry.decl?, hchanges.found, Option.map_some]
  · obtain ⟨type, htype, -⟩ := Option.bind_eq_some_iff.mp
      (hbefore.decl index old hchanges.found)
    rw [hchanges.decl?, ← before.decl?_update_stage index .defined, ← baseOf_class hbase,
      TargetModule.base?, htarget, TargetModule.type?_modifyType, if_pos rfl, htype]
    rfl

theorem TypePasses.defineAll_hasBase (hbefore : before.Linked)
    (h : defineAll image before = .ok result after) :
    ObjectsHold (fun index object registry => ∃ decl, registry.HasBase index object decl) image
      image.types.length after := by
  refine defineAll_objects _ ?_ ?_ hbefore h
  · rintro before after index object ⟨decl, hbase⟩ hdecls hothers
    exact ⟨decl, hbase.keep hdecls (hothers decl hbase.made)⟩
  · exact fun before after index object result => ObjectLayout.define_hasBase

theorem TypePasses.compileAll_classes (h : compileAll image before = .ok result after) :
    after.decl? = before.decl? ∧ after.target.types = before.target.types := by
  refine pass_keeps (fun registry => registry.decl? = before.decl? ∧
    registry.target.types = before.target.types) h ?_ ?_ ⟨rfl, rfl⟩
  · exact fun registry hold => hold
  · rintro index source - registry result next ⟨hdecls, htypes⟩ hstep
    rcases compileType_ok hstep with rfl | ⟨old, new, hrecodes, hchanges, -⟩
    · exact ⟨hdecls, htypes⟩
    · exact ⟨hchanges.decl?.trans hdecls, hrecodes.classes.trans htypes⟩

theorem TypePasses.run_hasBase (hbefore : before.Linked)
    (h : run image before = .ok result after) (hobject : image.object? index = some object) :
    ∃ decl, after.HasBase index object decl := by
  obtain ⟨resolved, defined, hresolve, hdefine, hcompile⟩ := run_ok h
  have hdefined := defineAll_hasBase (resolveAll_linked hbefore hresolve) hdefine
  obtain ⟨decl, hbase⟩ := hdefined.objects index (Image.lt_of_object hobject) object hobject
  obtain ⟨hdecls, htypes⟩ := compileAll_classes hcompile
  exact ⟨decl, hbase.keep hdecls (by rw [TargetModule.type?, htypes, TargetModule.type?])⟩

end Defining

/-! ## Chains of classes -/

section Chains

variable {image : Image} {registry : Registry} {index other : TypeIndex} {chain : List TypeIndex}
  {decl otherDecl : TypeId}

theorem Registry.Linked.decl_eq_iff (h : registry.Linked) (hdecl : registry.decl? index = some decl)
    (hother : registry.decl? other = some otherDecl) : decl = otherDecl ↔ other = index := by
  constructor
  · rintro rfl
    exact h.eq_of_decl? hother hdecl
  · rintro rfl
    exact Option.some.inj (hdecl.symm.trans hother)

/-- A class derives from the classes in the chain of its type and from no others. -/
theorem Registry.Linked.derivesFrom_iff (h : registry.Linked)
    (hbases : ∀ index object, image.object? index = some object →
      ∃ decl, registry.HasBase index object decl)
    (hline : image.Lineage index chain) (hdecl : registry.decl? index = some decl)
    (hother : registry.decl? other = some otherDecl) :
    registry.target.derivesFrom decl otherDecl = true ↔ other ∈ chain := by
  have hbase {index : TypeIndex} {object : ObjectType} {decl : TypeId}
      (hobject : image.object? index = some object) (hdecl : registry.decl? index = some decl) :
      registry.target.base? decl = object.super.bind registry.decl? := by
    obtain ⟨found, hfound⟩ := hbases index object hobject
    obtain rfl := Option.some.inj (hdecl.symm.trans hfound.made)
    exact hfound.base
  induction hline generalizing decl with
  | @root index object hobject hsuper =>
      have hroot := hbase hobject hdecl
      rw [hsuper, Option.bind_none] at hroot
      rw [TargetModule.derivesFrom_cases, h.decl_eq_iff hdecl hother, hroot, List.mem_singleton]
      simp
  | @derived index parent object chain hobject hsuper hparent ih =>
      obtain ⟨source, hsource⟩ := hparent.object
      obtain ⟨base, hfound⟩ := hbases parent source hsource
      have hstep := hbase hobject hdecl
      rw [hsuper, Option.bind_some, hfound.made] at hstep
      have hupper : registry.target.derivesFrom base otherDecl = true ↔ other ∈ chain :=
        ih hfound.made
      rw [TargetModule.derivesFrom_cases, h.decl_eq_iff hdecl hother, hstep, List.mem_append,
        List.mem_singleton, ← hupper]
      simp [or_comm]

end Chains

/-- The classes of two object types, and the conversion from the first to the second. -/
structure Registry.ClassPair (registry : Registry) (image : Image) (index other : TypeIndex)
    (chain : List TypeIndex) (decl otherDecl : TypeId) : Prop where
  chain_ok : ObjectLayout.superChain image index = .ok chain
  source : registry.decl? index = some decl ∧ registry.mapType image index = .ok (.object decl)
  target : registry.decl? other = some otherDecl ∧
    registry.mapType image other = .ok (.object otherDecl)
  derives : registry.target.derivesFrom decl otherDecl = true ↔ other ∈ chain
  converts : ∀ (scope : Scope) (progress : Progress),
    scope.registry.target.types = registry.target.types →
      Emit.convertReference (.object decl) (.object otherDecl) true scope progress = .ok ()
        (if other ∈ chain then progress
          else { progress with builder := progress.builder.emit (.castClass (.object otherDecl)) })

theorem Registry.mapType_object {registry : Registry} {image : Image} {index : TypeIndex}
    {decl : TypeId} (hobject : (image.object? index).isSome)
    (hdecl : registry.decl? index = some decl) :
    registry.mapType image index = .ok (.object decl) := by
  obtain ⟨object, hobject⟩ := Option.isSome_iff_exists.mp hobject
  obtain ⟨source, hsource, hkind⟩ := Option.bind_eq_some_iff.mp hobject
  rw [← TypeMapping.declared_eq_ok] at hdecl
  cases source <;> cases hkind <;>
    simp only [mapType, TypeMapping.mapWithin, hsource, hdecl] <;> rfl

theorem TypePasses.derivesFrom_exact :
    (∀ (module : TargetModule) (type other : TypeId),
      module.derivesFrom type other = true ↔ module.Derives type other) ∧
    ∀ (image : Image) (settings : Settings) (registry : Registry),
      run image (image.registry settings) = .ok () registry →
        ∀ index other, (image.object? index).isSome → (image.object? other).isSome →
          ∃ chain decl otherDecl, registry.ClassPair image index other chain decl otherDecl := by
  refine ⟨fun _ _ _ => TargetModule.derivesFrom_iff_derives, ?_⟩
  intro image settings registry hrun index other hindex hother
  have hlinked := Registry.create_linked settings.moduleName image.types.length
    image.functionTable.size
  have hassembled := run_assembled hlinked hrun
  have hbases (index : TypeIndex) (object : ObjectType)
      (hobject : image.object? index = some object) := run_hasBase hlinked hrun hobject
  obtain ⟨object, hobject⟩ := Option.isSome_iff_exists.mp hindex
  obtain ⟨otherObject, hotherObject⟩ := Option.isSome_iff_exists.mp hother
  obtain ⟨chain, _, _, _, _, _, -, hline⟩ := hassembled.assembled index object hobject
  obtain ⟨decl, hdecl⟩ := hbases index object hobject
  obtain ⟨otherDecl, hotherDecl⟩ := hbases other otherObject hotherObject
  have hderives := hassembled.toLinked.derivesFrom_iff hbases hline.line hdecl.made hotherDecl.made
  refine ⟨chain, decl, otherDecl, ObjectLayout.superChain_eq_iff.mpr (.ended hline.line),
    ⟨hdecl.made, Registry.mapType_object hindex hdecl.made⟩,
    ⟨hotherDecl.made, Registry.mapType_object hother hotherDecl.made⟩, hderives, ?_⟩
  intro scope progress htypes
  have hwidening : Emit.isWidening scope.registry.target (.object decl) (.object otherDecl)
      = registry.target.derivesFrom decl otherDecl :=
    congrFun (congrFun (TargetModule.derivesFrom_types htypes) decl) otherDecl
  rw [Emit.convertReference_checked, hwidening]
  simp only [hderives]

/-- The first of four classes derives from the third one and that one from the second,
from which the last one derives as well. -/
def siblingImage : Image := ObjectLayout.classImage [some 2, none, some 1, some 1]

theorem TypePasses.derivesFrom_exact_siblings :
    ∃ registry, run siblingImage (siblingImage.registry {}) = .ok () registry ∧
      (∃ decl otherDecl, registry.ClassPair siblingImage 0 1 [1, 2, 0] decl otherDecl) ∧
      ∃ decl otherDecl, registry.ClassPair siblingImage 0 3 [1, 2, 0] decl otherDecl := by
  have hok : (match run siblingImage (siblingImage.registry {}) with
      | .ok _ _ => true
      | .error _ _ => false) = true := by
    decide +kernel
  cases hrun : run siblingImage (siblingImage.registry {}) with
  | error error registry =>
      rw [hrun] at hok
      cases hok
  | ok result registry =>
      have hchain : ObjectLayout.superChain siblingImage 0 = .ok [1, 2, 0] := rfl
      obtain ⟨chain, decl, otherDecl, hupper⟩ := derivesFrom_exact.2 _ {} registry hrun 0 1 rfl rfl
      obtain rfl := Except.ok.inj (hchain.symm.trans hupper.chain_ok)
      obtain ⟨chain, first, second, hbeside⟩ := derivesFrom_exact.2 _ {} registry hrun 0 3 rfl rfl
      obtain rfl := Except.ok.inj (hchain.symm.trans hbeside.chain_ok)
      exact ⟨registry, rfl, ⟨decl, otherDecl, hupper⟩, first, second, hbeside⟩

end BytecodeLowering
