import BytecodeLowering.Proofs.Lower.Anchors
import BytecodeLowering.Proofs.Lower.TypeStages

/-!
# Why a pass over the types fails

Each type finds whatever it refers to at the stage that it asks for, in front of
it or behind it.  Only a super type at which nothing is declared is missed.
-/

namespace BytecodeLowering

/-! ## What an error may be -/

namespace Image

/-- Some object type derives from an index at which nothing is declared. -/
def Orphaned (image : Image) : Prop :=
  ∃ index object parent, image.object? index = some object ∧ object.super = some parent ∧
    image.declares parent = false

/-- Two functions or natives have the same index. -/
def Clashes (image : Image) : Prop :=
  ¬ (image.functions.map (·.index) ++ image.natives.map (·.index)).Nodup

/-- An error for which the image has a reason: a stage is missed only because of
a super type at which nothing is declared or of an index that is taken, and
constructors and opcodes are never missed. -/
structure Explains (image : Image) (error : LoweringError) : Prop where
  stage : ∀ decl expected found, error = .stageOrder decl expected found →
    image.Orphaned ∨ image.Clashes
  constructor : ∀ decl, error ≠ .missingConstructor decl
  opcode : ∀ site opcode, error ≠ .unknownOpcode site opcode

variable {image : Image} {error : LoweringError}

theorem explains_of_isOrder (h : error.isOrder = false) : image.Explains error := by
  refine ⟨?_, ?_, ?_⟩
  · rintro decl expected found rfl
    cases h
  · rintro decl rfl
    cases h
  · rintro site opcode rfl
    cases h

theorem explains_of_isUsage (h : error.isUsage = true) : image.Explains error :=
  explains_of_isOrder (LoweringError.isOrder_of_isUsage h)

theorem explains_stage {decl : String} {expected : Stage} {found : Option Stage}
    (h : image.Orphaned ∨ image.Clashes) : image.Explains (.stageOrder decl expected found) :=
  ⟨fun _ _ _ _ => h, nofun, nofun⟩

end Image

section Faults

variable {image : Image} {index : TypeIndex} {before after : Registry} {error : LoweringError}

/-! ### Resolving -/

theorem isUsage_of_register {declaration : Declaration} (hvacant : before.stage? index = none)
    (h : Registry.register index declaration before = .error error after) :
    error.isUsage = true := by
  have h := Lowering.get_bind_error h
  cases hfound : before.types[index]? with
  | none =>
      simp only [hfound] at h
      cases h
      rfl
  | some entry =>
      cases entry with
      | none =>
          simp only [hfound] at h
          cases h
      | some existing =>
          rw [Registry.stage?, Registry.declaration?, hfound] at hvacant
          cases hvacant

theorem ObjectLayout.isUsage_of_resolve {object : ObjectType} (hvacant : before.stage? index = none)
    (h : resolve index object before = .error error after) : error.isUsage = true := by
  rcases Lowering.bind_error h with htype | ⟨decl, first, htype, h⟩
  · cases htype
  rcases Lowering.bind_error h with hmethod | ⟨constructor, second, hmethod, h⟩
  · cases hmethod
  have h := Lowering.modifyTarget_bind_error h
  cases htype
  cases hmethod
  exact isUsage_of_register (by exact hvacant) h

theorem VirtualLayout.isUsage_of_resolve (hvacant : before.stage? index = none)
    (h : resolve index before = .error error after) : error.isUsage = true := by
  rcases Lowering.bind_error h with htype | ⟨decl, first, htype, h⟩
  · cases htype
  rcases Lowering.bind_error h with hmethod | ⟨constructor, second, hmethod, h⟩
  · cases hmethod
  have h := Lowering.modifyTarget_bind_error h
  cases htype
  cases hmethod
  exact isUsage_of_register (by exact hvacant) h

theorem AbstractLayout.isUsage_of_resolve {name : String} (hvacant : before.stage? index = none)
    (h : resolve index name before = .error error after) : error.isUsage = true := by
  rcases Lowering.bind_error h with htype | ⟨decl, first, htype, h⟩
  · cases htype
  have h := Lowering.modifyTarget_bind_error h
  cases htype
  exact isUsage_of_register (by exact hvacant) h

theorem EnumLayout.resolveConstruct_ne_error {name : String} {base : TypeId}
    {construct : EnumConstruct} :
    resolveConstruct index name base construct before ≠ .error error after := by
  intro h
  rcases Lowering.bind_error h with htype | ⟨decl, first, htype, h⟩
  · cases htype
  rcases Lowering.bind_error h with hmethod | ⟨constructor, second, hmethod, h⟩
  · cases hmethod
  cases Lowering.modifyTarget_bind_error h

theorem EnumLayout.isUsage_of_resolve {variants : EnumType} (hvacant : before.stage? index = none)
    (h : resolve index variants before = .error error after) : error.isUsage = true := by
  rcases Lowering.bind_error h with htype | ⟨decl, first, htype, h⟩
  · cases htype
  have h := Lowering.modifyTarget_bind_error h
  cases htype
  rcases Lowering.bind_error h with hconstructs | ⟨constructs, second, hconstructs, h⟩
  · obtain ⟨_, _, _, _, -, -, hconstruct⟩ :=
      Lowering.mapM_fault (fun _ _ => True) (fun _ _ _ _ _ _ _ _ _ => trivial) trivial hconstructs
    exact absurd hconstruct resolveConstruct_ne_error
  · refine isUsage_of_register ?_ h
    rw [Registry.stage?, Registry.declaration?, (resolveConstructs_ok hconstructs).types]
    exact hvacant

namespace TypePasses

variable {source : SourceType}

theorem isUsage_of_resolveType (hvacant : before.stage? index = none)
    (h : resolveType (source, index) before = .error error after) : error.isUsage = true := by
  cases source with
  | obj object | struct object => exact ObjectLayout.isUsage_of_resolve hvacant h
  | enum variants => exact EnumLayout.isUsage_of_resolve hvacant h
  | virtual fields => exact VirtualLayout.isUsage_of_resolve hvacant h
  | abstract name => exact AbstractLayout.isUsage_of_resolve hvacant h
  | _ => cases h

end TypePasses

/-! ### Defining -/

theorem ObjectLayout.define_fault {object : ObjectType} (hobject : image.object? index = some object)
    (hbefore : before.Passing image .defined index)
    (h : define image index object before = .error error after) : image.Explains error := by
  have hdeclares := Image.declares_of_object hobject
  obtain ⟨hadvance, hadvanced⟩ := Registry.advance_of_passing hbefore hdeclares rfl
  rw [define, Lowering.bind_of_ok hadvance] at h
  rcases Lowering.query_bind_error h with hown | ⟨⟨declaration, shape⟩, -, h⟩
  · have hstage := hadvanced.stage_done hdeclares (Nat.lt_succ_self _)
    exact Image.explains_of_isUsage (Registry.isUsage_of_requireObject hstage (Nat.le_refl _) hown)
  rcases Lowering.query_bind_error h with hbase | ⟨base, -, h⟩
  · rcases baseOf_error hbase with husage | ⟨parent, hsuper, hnone, rfl⟩
    · exact Image.explains_of_isUsage husage
    · refine Image.explains_stage (Or.inl ⟨index, object, parent, hobject, hsuper, ?_⟩)
      rw [hadvanced.stages] at hnone
      refine Bool.eq_false_iff.mpr fun hparent => ?_
      have hleast : Stage.previous .defined = some .resolved := rfl
      obtain ⟨found, hfound, -⟩ := Image.stageAt_least hleast hparent (index + 1)
      cases hfound.symm.trans hnone
  rcases Lowering.query_bind_error h with hfields | ⟨fields, -, h⟩
  · exact Image.explains_of_isUsage (isUsage_of_ownFields hfields)
  rcases Lowering.query_bind_error h with hslots | ⟨slots, -, h⟩
  · exact Image.explains_of_isUsage (isUsage_of_slotFields hslots)
  cases Lowering.modifyTarget_bind_error h

theorem VirtualLayout.isUsage_of_define {fields : List Field}
    (hdeclares : image.declares index = true) (hbefore : before.Passing image .defined index)
    (h : define image index fields before = .error error after) : error.isUsage = true := by
  obtain ⟨hadvance, -⟩ := Registry.advance_of_passing hbefore hdeclares rfl
  rw [define, Lowering.bind_of_ok hadvance] at h
  have h := Lowering.get_bind_error h
  generalize before.update index _ = advanced at h
  cases hfound : virtualDecl? advanced index with
  | none =>
      simp only [hfound] at h
      cases h
      rfl
  | some found =>
      obtain ⟨decl, shape⟩ := found
      simp only [hfound] at h
      rcases Lowering.query_bind_error h with hfields | ⟨flat, -, h⟩
      · exact isUsage_of_recordFields hfields
      · cases Lowering.modifyTarget_bind_error h

theorem EnumLayout.isUsage_of_requireEnum (h : requireEnum index before = .error error after) :
    error.isUsage = true := by
  have h := Lowering.get_bind_error h
  cases hfound : before.declaration? index with
  | none =>
      simp only [hfound] at h
      cases h
      rfl
  | some found =>
      simp only [hfound] at h
      cases hshape : found.shape with
      | enum shape =>
          simp only [hshape] at h
          cases h
      | _ =>
          simp only [hshape] at h
          cases h
          rfl

theorem EnumLayout.isUsage_of_define {variants : EnumType}
    (hdeclares : image.declares index = true) (hbefore : before.Passing image .defined index)
    (h : define image index variants before = .error error after) : error.isUsage = true := by
  obtain ⟨hadvance, -⟩ := Registry.advance_of_passing hbefore hdeclares rfl
  rw [define, Lowering.bind_of_ok hadvance] at h
  rcases Lowering.bind_error h with hrequire | ⟨⟨declaration, shape⟩, middle, -, h⟩
  · exact isUsage_of_requireEnum hrequire
  rcases Lowering.bind_error (Lowering.modifyTarget_bind_error h) with hconstructs | ⟨_, _, -, h⟩
  · obtain ⟨_, ⟨construct, shape⟩, _, _, -, -, hconstruct⟩ :=
      Lowering.mapM_fault (fun _ _ => True) (fun _ _ _ _ _ _ _ _ _ => trivial) trivial hconstructs
    rcases Lowering.query_bind_error hconstruct with hfields | ⟨fields, -, hconstruct⟩
    · exact isUsage_of_constructFields hfields
    · cases Lowering.modifyTarget_bind_error hconstruct
  · cases h

/-! ### Compiling -/

/-- Declarations that can be compiled: each is of the kind of its source type
and derives from its super type. -/
structure Registry.Compilable (image : Image) (registry : Registry) : Prop
    extends registry.Linked where
  suited : registry.Suited image
  bases : ∀ index object outline, image.object? index = some object →
    registry.outline? index = some outline → outline.base = object.super

theorem Registry.Compilable.advance (h : before.Compilable image)
    (hadvance : Registry.advance index .compiled before = .ok () after) :
    after.Compilable image := by
  obtain ⟨old, -, hchanges⟩ := TypePasses.advance_changes hadvance
  refine ⟨h.toLinked.changes hchanges, h.suited.changes hchanges, ?_⟩
  intro other object outline hobject houtline
  rw [hchanges.outline? rfl] at houtline
  exact h.bases other object outline hobject houtline

theorem ObjectLayout.isUsage_of_compile {object : ObjectType}
    (hobject : image.object? index = some object) (hbefore : before.Passing image .compiled index)
    (hcompilable : before.Compilable image)
    (h : compile image index object before = .error error after) : error.isUsage = true := by
  have hdeclares := Image.declares_of_object hobject
  obtain ⟨hadvance, hadvanced⟩ := Registry.advance_of_passing hbefore hdeclares rfl
  have hcompilable := hcompilable.advance hadvance
  rw [compile, Lowering.bind_of_ok hadvance] at h
  rcases Lowering.query_bind_error h with hlayout | ⟨laid, -, h⟩
  · refine isUsage_of_layout hobject ⟨?_, ?_, ?_, ?_⟩ hlayout
    · intro owner howner
      obtain ⟨object, howner⟩ := Option.isSome_iff_exists.mp howner
      rw [hadvanced.stages]
      exact Image.stageAt_least rfl (Image.declares_of_object howner) _
    · exact hadvanced.stage_done hdeclares (Nat.lt_succ_self _)
    · exact fun outline houtline => hcompilable.bases index object outline hobject houtline
    · exact fun declaration hfound constructor =>
        hcompilable.toLinked.constructor_lt hfound
  · cases Lowering.modifyTarget_bind_error h

theorem VirtualLayout.compile_ne_error {fields : List Field}
    (hsource : image.types[index]? = some (.virtual fields))
    (hbefore : before.Passing image .compiled index) (hcompilable : before.Compilable image) :
    compile index before ≠ .error error after := by
  intro h
  have hdeclares := Image.declares_of_source hsource
  obtain ⟨hadvance, hadvanced⟩ := Registry.advance_of_passing hbefore hdeclares rfl
  have hstage := hadvanced.stage_done hdeclares (Nat.lt_succ_self _)
  obtain ⟨declaration, hfound, -⟩ := Option.map_eq_some_iff.mp hstage
  have hkind := (hcompilable.advance hadvance).suited index declaration hfound
  rw [hsource, Option.bind_some] at hkind
  rw [compile, Lowering.bind_of_ok hadvance] at h
  have h := Lowering.get_bind_error h
  obtain ⟨stage, source, decl, shape⟩ := declaration
  cases shape with
  | virtual shape =>
      simp only [virtualDecl?, hfound] at h
      cases h
  | _ => cases hkind

theorem EnumLayout.isUsage_of_compile (hdeclares : image.declares index = true)
    (hbefore : before.Passing image .compiled index) (hcompilable : before.Compilable image)
    (h : compile index before = .error error after) : error.isUsage = true := by
  obtain ⟨hadvance, -⟩ := Registry.advance_of_passing hbefore hdeclares rfl
  have hlinked := (hcompilable.advance hadvance).toLinked
  rw [compile, Lowering.bind_of_ok hadvance] at h
  rcases Lowering.bind_error h with hrequire | ⟨⟨declaration, shape⟩, middle, hrequire, h⟩
  · exact isUsage_of_requireEnum hrequire
  obtain ⟨hfound, hshape, rfl⟩ := requireEnum_ok hrequire
  -- the bodies that are set leave the number of methods as it is
  obtain ⟨first, ⟨construct, number⟩, rest, last, hitems, hlength, hconstruct⟩ :=
    Lowering.forM_fault (fun _ registry => registry.target.methods.length
      = (before.update index fun declaration =>
          { declaration with stage := .compiled }).target.methods.length) (by
        rintro first ⟨construct, number⟩ rest hitems start _ stop hstart hstep
        obtain ⟨-, -, rfl⟩ := compileConstruct_steps hstep
        exact (List.length_modify _ _ _).trans hstart) rfl h
  have hitem : (construct, number) ∈ shape.constructs.zipIdx := by
    rw [hitems]
    simp
  have hmem : construct ∈ shape.constructs := List.fst_mem_of_mem_zipIdx hitem
  have hown : construct.constructor ∈ declaration.shape.constructors := by
    rw [hshape]
    exact List.mem_map_of_mem hmem
  have hlt := hlinked.constructor_lt hfound hown
  rcases Lowering.query_bind_error hconstruct with hbody | ⟨body, -, hconstruct⟩
  · obtain ⟨-, rfl⟩ := constructorBody_error hbody
    rfl
  · have hconstruct := Lowering.get_bind_error hconstruct
    rw [if_pos (hlength ▸ hlt)] at hconstruct
    cases hconstruct

/-! ### Whole passes -/

namespace TypePasses

variable {source : SourceType}

theorem defineType_fault (hsource : image.types[index]? = some source)
    (hbefore : before.Passing image .defined index)
    (h : defineType image (source, index) before = .error error after) : image.Explains error := by
  have hdeclares := Image.declares_of_source hsource
  cases source with
  | obj object | struct object =>
      exact ObjectLayout.define_fault (Image.object?_of_source hsource) hbefore h
  | enum variants =>
      exact Image.explains_of_isUsage (EnumLayout.isUsage_of_define hdeclares hbefore h)
  | virtual fields =>
      exact Image.explains_of_isUsage (VirtualLayout.isUsage_of_define hdeclares hbefore h)
  | abstract name =>
      cases (Registry.advance_of_passing hbefore hdeclares rfl).1.symm.trans h
  | _ => cases h

theorem isUsage_of_compileType (hsource : image.types[index]? = some source)
    (hbefore : before.Passing image .compiled index) (hcompilable : before.Compilable image)
    (h : compileType image (source, index) before = .error error after) :
    error.isUsage = true := by
  have hdeclares := Image.declares_of_source hsource
  cases source with
  | obj object | struct object =>
      have hobject : image.object? index = some object := Image.object?_of_source hsource
      exact ObjectLayout.isUsage_of_compile hobject hbefore hcompilable h
  | enum variants => exact EnumLayout.isUsage_of_compile hdeclares hbefore hcompilable h
  | virtual fields =>
      exact absurd h (VirtualLayout.compile_ne_error hsource hbefore hcompilable)
  | abstract name =>
      cases (Registry.advance_of_passing hbefore hdeclares rfl).1.symm.trans h
  | _ => cases h

theorem compileType_compilable {result : Unit} (hbefore : before.Compilable image)
    (h : compileType image (source, index) before = .ok result after) :
    after.Compilable image := by
  rcases compileType_ok h with rfl | ⟨old, new, -, hchanges, hsame⟩
  · exact hbefore
  · refine ⟨hbefore.toLinked.changes hchanges, hbefore.suited.changes hchanges, ?_⟩
    intro other object outline hobject houtline
    rw [hchanges.outline? hsame] at houtline
    exact hbefore.bases other object outline hobject houtline

theorem pass_fault {stage : Stage} {step : SourceType × TypeIndex → Lowering Unit}
    (hentered : Registry.Passing image stage 0 { before with pass := some stage })
    (hmoves : ∀ (index : TypeIndex) source, image.types[index]? = some source →
      ∀ before result after, step (source, index) before = .ok result after →
        source.MovesOn index stage before after)
    (holds : Registry → Prop) (hpass : before.pass = stage.previous)
    (hholds : holds { before with pass := some stage })
    (hkeeps : ∀ (index : TypeIndex) source before result after, holds before →
      step (source, index) before = .ok result after → holds after)
    (h : (do Registry.enterPass stage; image.types.zipIdx.forM step) before
      = .error error after) :
    ∃ (index : TypeIndex) (source : SourceType) (middle : Registry),
      image.types[index]? = some source ∧ middle.Passing image stage index ∧ holds middle ∧
        step (source, index) middle = .error error after := by
  have henter : Registry.enterPass stage before
      = .ok () { before with pass := some stage } := by
    change (if before.pass = stage.previous then set { before with pass := some stage }
      else throw _ : Lowering Unit) before = _
    rw [if_pos hpass]
    rfl
  rw [Lowering.bind_of_ok henter] at h
  obtain ⟨i, source, middle, hsource, ⟨hpassing, hmiddle⟩, hfault⟩ :=
    Lowering.forM_zipIdx_fault
      (fun position registry => registry.Passing image stage position ∧ holds registry) (by
        intro i source hsource
        rw [Nat.zero_add]
        exact fun before result after hbefore hstep =>
          ⟨hbefore.1.next hsource (hmoves i source hsource before result after hstep),
            hkeeps i source before result after hbefore.2 hstep⟩) ⟨hentered, hholds⟩ h
  rw [Nat.zero_add] at hpassing hfault
  exact ⟨i, source, middle, hsource, hpassing, hmiddle, hfault⟩

theorem defineAll_compilable {resolved : Registry} (hbefore : before.Defining image 0)
    (hresolve : resolveAll image before = .ok () resolved)
    (hdefine : defineAll image resolved = .ok () after) : after.Compilable image := by
  have hresolved := resolveAll_defining hbefore hresolve
  have hdefined := defineAll_defining hresolved hdefine
  have hbased := defineAll_based hresolved.toLinked hdefine
  refine ⟨hdefined.toLinked, hdefined.suited, ?_⟩
  intro index object outline hobject houtline
  obtain ⟨found, hfound, hbase⟩ :=
    hbased.bases index (Image.lt_of_object hobject) object hobject
  cases houtline.symm.trans hfound
  exact hbase

theorem run_fault {name : String} {typeCount functionCount : Nat}
    (h : run image (Registry.create name typeCount functionCount) = .error error after) :
    image.Explains error := by
  rcases Lowering.bind_error h with hresolve | ⟨_, resolved, hresolve, h⟩
  · obtain ⟨index, source, middle, hsource, hmiddle, -, hfault⟩ :=
      pass_fault (Registry.create_passing _ _ _) (fun _ _ _ _ _ _ hstep => resolveType_moves hstep)
        (fun _ => True) rfl trivial (fun _ _ _ _ _ _ _ => trivial) hresolve
    cases hdeclares : image.declares index with
    | true =>
        have hvacant := (hmiddle.stages index).trans (Image.stageAt_open hdeclares (Nat.le_refl _))
        exact Image.explains_of_isUsage (isUsage_of_resolveType hvacant hfault)
    | false =>
        have hvacant := (hmiddle.stages index).trans (Image.stageAt_undeclared hdeclares _)
        exact Image.explains_of_isUsage (isUsage_of_resolveType hvacant hfault)
  have hresolved := resolveAll_passing hresolve
  rcases Lowering.bind_error h with hdefine | ⟨_, defined, hdefine, hcompile⟩
  · obtain ⟨index, source, middle, hsource, hmiddle, -, hfault⟩ :=
      pass_fault (hresolved.enter rfl) (fun _ _ _ _ _ _ hstep => defineType_moves hstep)
        (fun _ => True) hresolved.pass trivial (fun _ _ _ _ _ _ _ => trivial) hdefine
    exact defineType_fault hsource hmiddle hfault
  have hdefined := defineAll_passing hresolved hdefine
  have hcompilable := defineAll_compilable (Registry.create_defining _ _ _) hresolve hdefine
  obtain ⟨index, source, middle, hsource, hmiddle, hcompilable, hfault⟩ :=
    pass_fault (hdefined.enter rfl) (fun _ _ _ _ _ _ hstep => compileType_moves hstep)
      (Registry.Compilable image) hdefined.pass
      ⟨hcompilable.toLinked.enter, hcompilable.suited, hcompilable.bases⟩
      (fun _ _ _ _ _ hold hstep => compileType_compilable hold hstep) hcompile
  exact Image.explains_of_isUsage (isUsage_of_compileType hsource hmiddle hcompilable hfault)

end TypePasses

end Faults

end BytecodeLowering
