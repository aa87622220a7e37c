import BytecodeLowering.Proofs.Body.BranchTargets
import BytecodeLowering.Proofs.Lower.FunctionSpace
import BytecodeLowering.Proofs.Lower.TypeFaults

/-!
# The order of the passes

Forward and cyclic references do not trip the checks of the stages: behind the
passes over the type table every declared type is compiled, and every function
is defined before a body is lowered.  The checks catch super types at which
nothing is declared and indices that are taken, and nothing else.
-/

namespace BytecodeLowering

variable {image : Image} {settings : Settings} {before after : Registry} {error : LoweringError}

/-! ## Globals -/

theorem Registry.Passing.keep {stage : Stage} {position : Nat}
    (h : before.Passing image stage position) (htypes : after.types = before.types)
    (hpass : after.pass = before.pass) : after.Passing image stage position := by
  refine ⟨hpass.trans h.pass, ?_⟩
  intro index
  rw [← h.stages, stage?, declaration?, htypes]
  rfl

namespace GlobalSlots

theorem isUsage_of_declare {item : TypeIndex × Nat}
    (h : declare image item before = .error error after) : error.isUsage = true := by
  obtain ⟨type, number⟩ := item
  unfold declare at h
  cases hsource : image.type? type with
  | none =>
      simp only [hsource] at h
      cases h
      rfl
  | some source =>
      simp only [hsource] at h
      rcases Lowering.query_bind_error h with hmapped | ⟨mapped, -, h⟩
      · exact Registry.isUsage_of_mapType hmapped
      · cases h

theorem isUsage_of_fromPool {pool : List α} {name : String} {global index : Nat}
    (h : fromPool pool name global index = .error error) : error.isUsage = true := by
  unfold fromPool at h
  split at h <;> cases h
  rfl

theorem isUsage_of_constantValue {global index : Nat} {source : SourceType}
    (h : constantValue image global source index = .error error) : error.isUsage = true := by
  cases source <;> unfold constantValue at h
  case u8 | u16 | i32 | i64 | f32 | f64 | bytes =>
    rcases error_of_bind h with hpool | ⟨value, -, h⟩
    · exact isUsage_of_fromPool hpool
    · cases h
  all_goals
    cases h
    try rfl

theorem isUsage_of_constantField {global : Nat} {item : FlatField × Nat}
    (h : constantField image global item = .error error) : error.isUsage = true := by
  obtain ⟨field, index⟩ := item
  unfold constantField at h
  cases hsource : image.type? field.source with
  | none =>
      simp only [hsource] at h
      cases h
      rfl
  | some source =>
      simp only [hsource] at h
      rcases error_of_bind h with hvalue | ⟨value, -, h⟩
      · exact isUsage_of_constantValue hvalue
      · cases h

theorem isUsage_of_constantCode (hbefore : before.Passing image .compiled image.types.length)
    {constant : Constant} (h : constantCode image before constant = .error error) :
    error.isUsage = true := by
  unfold constantCode at h
  cases htype : image.globals[constant.global]? with
  | none =>
      simp only [htype] at h
      cases h
      rfl
  | some type =>
      simp only [htype] at h
      split at h
      · cases h
        rfl
      · rename_i hobject
        obtain ⟨object, hobject⟩ :=
          Option.ne_none_iff_exists'.mp (mt Option.isNone_iff_eq_none.mpr hobject)
        have hstage := hbefore.stage_done (Image.declares_of_object hobject)
          (Image.lt_of_object hobject)
        rcases error_of_bind h with hrequire | ⟨⟨declaration, shape⟩, -, h⟩
        · exact Registry.isUsage_of_requireObject hstage (Nat.le_refl _) hrequire
        · dsimp only at h
          split at h
          · cases h
            rfl
          · split at h
            · cases h
              rfl
            · rcases error_of_bind h with hfields | ⟨fields, -, h⟩
              · obtain ⟨item, -, hfield⟩ := error_of_mapM hfields
                exact isUsage_of_constantField hfield
              · cases h

theorem isUsage_of_lowerConstants (hbefore : before.Passing image .compiled image.types.length)
    (h : lowerConstants image before = .error error after) : error.isUsage = true := by
  rcases lowerConstants_cases image before with
    ⟨-, hrun⟩ | ⟨found, hfound, hrun⟩ | ⟨codes, -, hrun⟩ <;> cases hrun.symm.trans h
  obtain ⟨constant, -, hconstant⟩ := error_of_mapM hfound
  exact isUsage_of_constantCode hbefore hconstant

theorem declareAll_passing {result : PUnit}
    (hbefore : before.Passing image .compiled image.types.length)
    (h : image.globals.zipIdx.forM (declare image) before = .ok result after) :
    after.Passing image .compiled image.types.length := by
  refine Lowering.forM_keeps (Registry.Passing image .compiled image.types.length) ?_ hbefore h
  rintro ⟨type, number⟩ - start _ stop hstart hstep
  obtain ⟨slot, -, -, rfl⟩ := declare_ok hstep
  exact hstart.keep rfl rfl

theorem lowerConstants_passing {result : Option MethodId}
    (hbefore : before.Passing image .compiled image.types.length)
    (h : lowerConstants image before = .ok result after) :
    after.Passing image .compiled image.types.length := by
  rcases lowerConstants_ok h with rfl | ⟨code, -, rfl⟩
  · exact hbefore
  · exact hbefore.keep rfl rfl

end GlobalSlots

/-! ## Signatures -/

namespace Methods

theorem isUsage_of_reservedMethod {function : Nat}
    (h : reservedMethod function before = .error error after) : error.isUsage = true := by
  have h := Lowering.get_bind_error h
  cases hmethod : before.method? function with
  | none =>
      simp only [hmethod] at h
      cases h
      rfl
  | some method =>
      simp only [hmethod] at h
      cases h

theorem isUsage_of_localTypes {registers : List TypeIndex}
    (h : localTypes image registers before = .error error) : error.isUsage = true := by
  obtain ⟨type, -, htype⟩ := error_of_mapM h
  split at htype
  · cases htype
  · exact Registry.isUsage_of_mapType htype

theorem defineEntry_fault {entry : FunctionEntry}
    (htaken : (before.function? entry.function).isSome → image.Clashes)
    (h : Registry.defineFunction entry before = .error error after) : image.Explains error := by
  have h := Lowering.get_bind_error h
  cases hfound : before.functions[entry.function]? with
  | none =>
      simp only [hfound] at h
      cases h
      exact Image.explains_of_isUsage rfl
  | some place =>
      cases place with
      | none =>
          simp only [hfound] at h
          cases h
      | some existing =>
          simp only [hfound] at h
          cases h
          refine Image.explains_stage (Or.inr (htaken ?_))
          rw [Registry.function?, hfound]
          rfl

theorem defineFunction_fault {names : List (Nat × String)} {function : FunctionDef}
    (htaken : (before.function? function.index).isSome → image.Clashes)
    (h : defineFunction image names function before = .error error after) :
    image.Explains error := by
  rcases Lowering.bind_error h with hmethod | ⟨method, _, hmethod, h⟩
  · exact Image.explains_of_isUsage (isUsage_of_reservedMethod hmethod)
  obtain ⟨-, -, rfl⟩ := reservedMethod_ok hmethod
  rcases Lowering.query_bind_error h with hsignature | ⟨signature, -, h⟩
  · exact Image.explains_of_isUsage (Registry.isUsage_of_signatureOf hsignature)
  dsimp only at h
  split at h
  · cases h
    exact Image.explains_of_isUsage rfl
  · rcases Lowering.query_bind_error h with hlocals | ⟨locals, -, h⟩
    · exact Image.explains_of_isUsage (isUsage_of_localTypes hlocals)
    · exact defineEntry_fault (by exact htaken) (Lowering.modifyTarget_bind_error h)

theorem defineNative_fault {native : Native}
    (htaken : (before.function? native.index).isSome → image.Clashes)
    (h : defineNative image native before = .error error after) : image.Explains error := by
  rcases Lowering.bind_error h with hmethod | ⟨method, _, hmethod, h⟩
  · exact Image.explains_of_isUsage (isUsage_of_reservedMethod hmethod)
  obtain ⟨-, -, rfl⟩ := reservedMethod_ok hmethod
  rcases Lowering.query_bind_error h with hsignature | ⟨signature, -, h⟩
  · exact Image.explains_of_isUsage (Registry.isUsage_of_signatureOf hsignature)
  · exact defineEntry_fault (by exact htaken) (Lowering.modifyTarget_bind_error h)

theorem clashes_of_entered {heads rest : List FunctionHead} {head : FunctionHead}
    (hheads : image.heads = heads ++ head :: rest) (hentered : before.Entered image heads)
    (htaken : (before.function? head.index).isSome) : image.Clashes := by
  rw [Image.Clashes, ← Image.map_index_heads, hheads, List.map_append, List.map_cons,
    List.nodup_append]
  rintro ⟨-, -, hdisjoint⟩
  exact hdisjoint head.index ((hentered.entered head.index).mp htaken) head.index
    List.mem_cons_self rfl

theorem defineAll_fault (hpass : before.pass = some .compiled) (hbefore : before.Entered image [])
    (h : defineAll image before = .error error after) : image.Explains error := by
  have hrequire : requireTypesCompiled before = .ok () before := by
    change (if before.pass ≠ some .compiled then throw _ else pure () : Lowering Unit) before = _
    rw [if_neg (not_not.mpr hpass)]
    rfl
  rw [defineAll, Lowering.bind_of_ok hrequire] at h
  have h := Lowering.get_bind_error h
  rcases Lowering.bind_error h with hfunctions | ⟨_, middle, hfunctions, hnatives⟩
  · obtain ⟨first, function, rest, start, hitems, hstart, hfault⟩ :=
      Lowering.forM_fault
        (fun first registry => registry.Entered image (first.map FunctionDef.head))
        (fun _ _ _ _ _ _ _ hold hstep => defineFunction_entered hold hstep) hbefore hfunctions
    refine defineFunction_fault (fun htaken => ?_) hfault
    have hheads : image.heads = first.map FunctionDef.head ++ function.head ::
        (rest.map FunctionDef.head ++ image.natives.map Native.head) := by
      rw [Image.heads, hitems, List.map_append, List.append_assoc]
      rfl
    exact clashes_of_entered hheads hstart htaken
  · have hmiddle := defineFunctions_entered hbefore hfunctions
    obtain ⟨first, native, rest, start, hitems, hstart, hfault⟩ :=
      Lowering.forM_fault (fun first registry =>
        registry.Entered image (image.functions.map FunctionDef.head ++ first.map Native.head))
        (fun _ _ _ _ _ _ _ hold hstep => defineNative_entered hold hstep)
        (by rwa [List.map_nil, List.append_nil]) hnatives
    refine defineNative_fault (fun htaken => ?_) hfault
    have hheads : image.heads = (image.functions.map FunctionDef.head ++ first.map Native.head) ++
        (native :: rest).map Native.head := by
      rw [Image.heads, hitems, List.map_append, ← List.append_assoc]
    exact clashes_of_entered hheads hstart htaken

/-! ## Bodies -/

def AllDefined (registry : Registry) : Prop :=
  ∀ function entry, registry.function? function = some entry → entry.stage = .defined

theorem AllDefined.enter (h : AllDefined before) {function : Nat} {f : MethodDecl → MethodDecl}
    {entry : FunctionEntry} (hvacant : before.functions[function]? = some none)
    (hstage : entry.stage = .defined) : AllDefined (before.enter function f entry) := by
  intro other found hfound
  rw [Registry.function?_enter (List.getElem?_eq_some_iff.mp hvacant).1] at hfound
  split at hfound
  · cases hfound
    exact hstage
  · exact h other found hfound

theorem defineAll_allDefined {result : Unit} (hbefore : AllDefined before)
    (h : defineAll image before = .ok result after) : AllDefined after := by
  obtain ⟨names, middle, hfunctions, hnatives⟩ := defineAll_ok h
  have hmiddle : AllDefined middle := by
    refine Lowering.forM_keeps AllDefined ?_ hbefore hfunctions
    intro function _ start _ stop hstart hstep
    obtain ⟨signature, locals, hvacant, -, -, rfl⟩ := defineFunction_ok hstep
    exact hstart.enter hvacant rfl
  refine Lowering.forM_keeps AllDefined ?_ hmiddle hnatives
  intro native _ start _ stop hstart hstep
  obtain ⟨signature, hvacant, -, rfl⟩ := defineNative_ok hstep
  exact hstart.enter hvacant rfl

def Awaits (image : Image) (done : List Nat) (registry : Registry) : Prop :=
  ∀ index ∈ image.heads.map (·.index), index ∉ done →
    ∃ entry, registry.function? index = some entry ∧ entry.stage = .defined

variable {done : List Nat} {index : Nat}

theorem Awaits.next (h : Awaits image done before) {entry : Option FunctionEntry}
    (hafter : after.functions = before.functions.set index entry) :
    Awaits image (done ++ [index]) after := by
  intro other hother hnew
  rw [List.mem_append, List.mem_singleton, not_or] at hnew
  obtain ⟨found, hfound, hstage⟩ := h other hother hnew.1
  refine ⟨found, ?_, hstage⟩
  rw [Registry.function?, hafter, List.getElem?_set_ne (Ne.symm hnew.2)]
  exact hfound

theorem Awaits.entry (h : Awaits image done before) {rest : List Nat}
    (hheads : image.heads.map (·.index) = done ++ index :: rest)
    (hdistinct : (image.heads.map (·.index)).Nodup) :
    ∃ entry, before.function? index = some entry ∧ entry.stage = .defined := by
  refine h index (by simp [hheads]) ?_
  rw [hheads, List.nodup_append] at hdistinct
  exact fun hmem => hdistinct.2.2 index hmem index List.mem_cons_self rfl

theorem markCompiled_ne_error {entry : FunctionEntry} (hentry : before.function? index = some entry)
    (hstage : entry.stage = .defined) :
    Registry.markCompiled index before ≠ .error error after := by
  intro h
  have h := Lowering.get_bind_error h
  simp only [hentry, if_pos hstage] at h
  cases h

end Methods

theorem FunctionDef.isOrder_of_lower {function : FunctionDef} {registry : Registry}
    {signature : Signature}
    (h : function.lower image registry settings signature = .error error) :
    error.isOrder = false := by
  rcases lower_error h with hscope | ⟨scope, final, hscope, hbody⟩
  · rcases scope_error hscope with hflow | husage
    · exact LoweringError.isOrder_of_isBranch (Flow.analyze_error hflow).2
    · exact LoweringError.isOrder_of_isUsage husage
  · obtain ⟨hflow, -, -, -, rfl, -⟩ := scope_ok hscope
    exact LoweringError.isOrder_of_isUsage (Emit.body_fault hflow hbody)

namespace Methods

theorem isOrder_of_compileFunction {function : FunctionDef} {entry : FunctionEntry}
    (hentry : before.function? function.index = some entry) (hstage : entry.stage = .defined)
    (h : compileFunction image settings function before = .error error after) :
    error.isOrder = false := by
  have hrequire : requireDefined function.index before = .ok entry before := by
    have hget : (get : Lowering Registry) before = .ok before before := rfl
    rw [requireDefined, Lowering.bind_of_ok hget]
    simp only [hentry, if_pos hstage]
    rfl
  rw [compileFunction, Lowering.bind_of_ok hrequire] at h
  rcases Lowering.query_bind_error h with hlower | ⟨⟨result, stats⟩, -, h⟩
  · exact FunctionDef.isOrder_of_lower hlower
  · have h := Lowering.modifyTarget_bind_error h
    rcases Lowering.bind_error h with hmark | ⟨_, last, -, h⟩
    · exact absurd hmark (markCompiled_ne_error hentry hstage)
    · cases h

theorem Awaits.compiled {first : List FunctionDef} {function : FunctionDef} {stats : BodyStats}
    (h : Awaits image (first.map (·.index)) before)
    (hstep : compileFunction image settings function before = .ok stats after) :
    Awaits image ((first ++ [function]).map (·.index)) after := by
  obtain ⟨entry, code, -, -, rfl⟩ := compileFunction_ok hstep
  rw [List.map_append]
  exact h.next rfl

/-- Each body finds its function defined. -/
theorem isOrder_of_compileFunctions (hdistinct : (image.heads.map (·.index)).Nodup)
    (hstart : Awaits image [] before)
    (h : image.functions.mapM (compileFunction image settings) before = .error error after) :
    error.isOrder = false := by
  obtain ⟨first, function, rest, middle, hitems, hmiddle, hfault⟩ :=
    Lowering.mapM_fault (fun first registry => Awaits image (first.map (·.index)) registry)
      (fun _ _ _ _ _ _ _ hold hstep => hold.compiled hstep) hstart h
  have hheads : image.heads.map (·.index) = first.map (·.index) ++ function.index ::
      (rest.map (·.index) ++ image.natives.map (·.index)) := by
    rw [Image.map_index_heads, hitems, List.map_append, List.append_assoc]
    rfl
  obtain ⟨entry, hentry, hstage⟩ := hmiddle.entry hheads hdistinct
  exact isOrder_of_compileFunction hentry hstage hfault

theorem markNatives_ne_error (hdistinct : (image.heads.map (·.index)).Nodup)
    (hcoded : Awaits image (image.functions.map (·.index)) before) :
    image.natives.forM (fun native => Registry.markCompiled native.index) before
      ≠ .error error after := by
  intro h
  obtain ⟨first, native, rest, middle, hitems, hmiddle, hfault⟩ :=
    Lowering.forM_fault (fun first registry =>
      Awaits image (image.functions.map (·.index) ++ first.map (·.index)) registry)
      (by
        intro first native _ _ start _ stop hold hstep
        obtain ⟨entry, -, rfl⟩ := Registry.markCompiled_ok hstep
        rw [List.map_append, ← List.append_assoc]
        exact hold.next rfl)
      (by rwa [List.map_nil, List.append_nil]) h
  have hheads : image.heads.map (·.index) = (image.functions.map (·.index)
      ++ first.map (·.index)) ++ (native :: rest).map (·.index) := by
    rw [Image.map_index_heads, hitems, List.map_append, ← List.append_assoc]
  obtain ⟨entry, hentry, hstage⟩ := hmiddle.entry hheads hdistinct
  exact markCompiled_ne_error hentry hstage hfault

theorem isOrder_of_compileAll (hentered : before.Entered image image.heads)
    (hdefined : AllDefined before)
    (h : compileAll image settings before = .error error after) : error.isOrder = false := by
  have hstart : Awaits image [] before := by
    intro index hindex _
    obtain ⟨entry, hentry⟩ := Option.isSome_iff_exists.mp ((hentered.entered index).mpr hindex)
    exact ⟨entry, hentry, hdefined index entry hentry⟩
  rcases Lowering.bind_error h with hfunctions | ⟨stats, coded, hfunctions, h⟩
  · exact isOrder_of_compileFunctions hentered.distinct hstart hfunctions
  have hcoded : Awaits image (image.functions.map (·.index)) coded :=
    Lowering.mapM_done (fun first registry => Awaits image (first.map (·.index)) registry)
      (fun _ _ _ _ _ _ _ hold hstep => hold.compiled hstep) hstart hfunctions
  rcases Lowering.bind_error h with hnatives | ⟨_, marked, -, h⟩
  · exact absurd hnatives (markNatives_ne_error hentered.distinct hcoded)
  rcases Lowering.bind_error h with hselect | ⟨_, last, -, h⟩
  · unfold selectEntrypoint at hselect
    split at hselect
    · cases Lowering.get_bind_error hselect
    · cases hselect
  · cases h

/-! ### The types meanwhile -/

theorem defineAll_types {result : Unit} (h : defineAll image before = .ok result after) :
    after.types = before.types := by
  obtain ⟨names, middle, hfunctions, hnatives⟩ := defineAll_ok h
  have hmiddle : middle.types = before.types := by
    refine Lowering.forM_keeps (fun registry => registry.types = before.types) ?_ rfl hfunctions
    intro function _ start _ stop hstart hstep
    obtain ⟨signature, locals, -, -, -, rfl⟩ := defineFunction_ok hstep
    exact hstart
  refine Lowering.forM_keeps (fun registry => registry.types = before.types) ?_ hmiddle hnatives
  intro native _ start _ stop hstart hstep
  obtain ⟨signature, -, -, rfl⟩ := defineNative_ok hstep
  exact hstart

theorem compileAll_types {stats : BodyStats}
    (h : compileAll image settings before = .ok stats after) : after.types = before.types := by
  obtain ⟨found, coded, marked, hcoded, hmarked, hselect⟩ := compileAll_ok h
  have hcoded : coded.types = before.types := by
    refine Lowering.mapM_keeps (fun registry => registry.types = before.types) ?_ rfl hcoded
    intro function _ start _ stop hstart hstep
    obtain ⟨entry, code, -, -, rfl⟩ := compileFunction_ok hstep
    exact hstart
  have hmarked : marked.types = before.types := by
    refine Lowering.forM_keeps (fun registry => registry.types = before.types) ?_ hcoded hmarked
    intro native _ start _ stop hstart hstep
    obtain ⟨entry, -, rfl⟩ := Registry.markCompiled_ok hstep
    exact hstart
  rcases selectEntrypoint_ok hselect with rfl | rfl
  · exact hmarked
  · exact hmarked

end Methods

/-! ## Images -/

namespace Image

theorem prepare_fault (h : image.prepare (image.registry settings) = .error error after) :
    image.Explains error := by
  rcases Lowering.bind_error h with htypes | ⟨_, typed, htypes, h⟩
  · exact TypePasses.run_fault htypes
  have htyped := TypePasses.run_passing htypes
  rcases Lowering.bind_error h with hglobals | ⟨_, declared, hglobals, h⟩
  · obtain ⟨_, item, _, start, -, -, hfault⟩ := Lowering.forM_fault (fun _ _ => True)
      (fun _ _ _ _ _ _ _ _ _ => trivial) trivial hglobals
    exact explains_of_isUsage (GlobalSlots.isUsage_of_declare hfault)
  have hdeclared := GlobalSlots.declareAll_passing htyped hglobals
  rcases Lowering.bind_error h with hconstants | ⟨found, initial, hconstants, h⟩
  · exact explains_of_isUsage (GlobalSlots.isUsage_of_lowerConstants hdeclared hconstants)
  exact Methods.defineAll_fault (GlobalSlots.lowerConstants_passing hdeclared hconstants).pass
    (initial_entered htypes hglobals hconstants) h

theorem prepare_allDefined (h : image.prepare (image.registry settings) = .ok () after) :
    Methods.AllDefined after := by
  obtain ⟨typed, declared, found, initial, htypes, hglobals, hconstants, h⟩ := prepare_ok h
  refine Methods.defineAll_allDefined ?_ h
  intro function entry hentry
  have hnone := (initial_entered htypes hglobals hconstants).entered function
  rw [hentry] at hnone
  cases hnone.mp rfl

theorem lowering_fault
    (h : image.lowering settings (image.registry settings) = .error error after) :
    image.Explains error := by
  rcases Lowering.bind_error h with hprepare | ⟨_, prepared, hprepare, hcompile⟩
  · exact prepare_fault hprepare
  · exact explains_of_isOrder (Methods.isOrder_of_compileAll (prepare_entered hprepare)
      (prepare_allDefined hprepare) hcompile)

theorem lowering_stages {stats : BodyStats}
    (h : image.lowering settings (image.registry settings) = .ok stats after)
    (index : TypeIndex) :
    after.stage? index = if image.declares index then some .compiled else none := by
  obtain ⟨prepared, hprepare, hcompile⟩ := lowering_ok h
  obtain ⟨typed, declared, found, initial, htypes, hglobals, hconstants, hmethods⟩ :=
    prepare_ok hprepare
  have hinitial := GlobalSlots.lowerConstants_passing
    (GlobalSlots.declareAll_passing (TypePasses.run_passing htypes) hglobals) hconstants
  have hsame : after.types = initial.types :=
    (Methods.compileAll_types hcompile).trans (Methods.defineAll_types hmethods)
  have hstage : after.stage? index = initial.stage? index := by
    rw [Registry.stage?, Registry.declaration?, hsame]
    rfl
  rw [hstage, hinitial.stages]
  cases hdeclares : image.declares index with
  | false => exact stageAt_undeclared hdeclares _
  | true => exact stageAt_done hdeclares (lt_of_declares hdeclares)

/-- Whatever refers forward or in a circle, a stage is missed only because of a
super type at which nothing is declared or of an index that is taken twice, and
neither a constructor nor an opcode is ever missed.  In the end every object,
struct, enum, virtual and abstract type is compiled, and no other type is
declared. -/
theorem stages_of_compile (image : Image) (settings : Settings) :
    (∀ error, image.compile settings = .error error →
      (∀ decl expected found, error = .stageOrder decl expected found →
        image.Orphaned ∨ image.Clashes) ∧
      (∀ decl, error ≠ .missingConstructor decl) ∧
      ∀ site opcode, error ≠ .unknownOpcode site opcode) ∧
    ∀ target, image.compile settings = .ok target → ∃ stats registry,
      image.lowering settings (image.registry settings) = .ok stats registry ∧
        registry.target = target ∧ ∀ index, (registry.declaration? index).map (·.stage)
          = if image.declares index then some .compiled else none := by
  refine ⟨?_, ?_⟩
  · intro error h
    cases hlowering : image.lowering settings (image.registry settings) with
    | ok stats registry =>
        rw [compile, compileWithStats_of_ok hlowering] at h
        cases h
    | error found registry =>
        rw [compile, compileWithStats_of_error hlowering] at h
        cases h
        obtain ⟨hstage, hconstructor, hopcode⟩ := lowering_fault hlowering
        exact ⟨hstage, hconstructor, hopcode⟩
  · intro target h
    obtain ⟨stats, registry, hlowering, htarget⟩ := compile_ok h
    exact ⟨stats, registry, hlowering, htarget, lowering_stages hlowering⟩

def forwardImage : Image where
  version := 5
  types := [
    .obj ⟨"Leaf", some 1, none, [⟨"record", 3⟩], [], []⟩,
    .obj ⟨"Root", none, none, [⟨"leaf", 0⟩], [], []⟩,
    .i32,
    .virtual [⟨"root", 1⟩]]

def orphanImage : Image := { forwardImage with types := forwardImage.types.take 1 }

theorem stages_of_compile_forward :
    (∃ stats registry,
      forwardImage.lowering {} (forwardImage.registry {}) = .ok stats registry ∧
        [0, 1, 2, 3].map registry.stage?
          = [some .compiled, some .compiled, none, some .compiled]) ∧
    (∃ decl expected found,
      orphanImage.compile {} = .error (.stageOrder decl expected found)) ∧
    (orphanImage.Orphaned ∨ orphanImage.Clashes) := by
  obtain ⟨target, hcompile⟩ : ∃ target, forwardImage.compile {} = .ok target :=
    ok_of_isOk (by decide +kernel)
  have horphan : orphanImage.compile {} = .error (.stageOrder "@1" .resolved none) := by
    decide +kernel
  refine ⟨?_, ⟨_, _, _, horphan⟩, ?_⟩
  · obtain ⟨stats, registry, hlowering, -, hstages⟩ :=
      (stages_of_compile forwardImage {}).2 target hcompile
    refine ⟨stats, registry, hlowering, ?_⟩
    simp only [List.map_cons, List.map_nil, Registry.stage?, hstages]
    rfl
  · exact ((stages_of_compile orphanImage {}).1 _ horphan).1 _ _ _ rfl

end Image

end BytecodeLowering
