import BytecodeLowering.Proofs.Body.SequencePoints
import BytecodeLowering.Proofs.Lower.Parallel

/-!
# Compiling with and without source positions

Source positions are annotations: deleting them gives the module for which none
are asked.  Constructors and initializers have none, and each function tells its
line table without repetitions.
-/

namespace BytecodeLowering

def TargetModule.withoutPoints (module : TargetModule) : TargetModule :=
  { module with
    methods := module.methods.map fun method =>
      { method with body := BytecodeLowering.withoutPoints method.body } }

/-! ## What is there before the bodies -/

/-- A module in which no source position is told. -/
def TargetModule.Silent (module : TargetModule) : Prop :=
  ∀ method ∈ module.methods, ∀ instr ∈ method.body, instr.isPoint = false

theorem TargetModule.Silent.modifyMethod {module : TargetModule} (h : module.Silent)
    (place : MethodId) {f : MethodDecl → MethodDecl}
    (hf : ∀ method ∈ module.methods, ∀ instr ∈ (f method).body, instr.isPoint = false) :
    (module.modifyMethod place f).Silent := by
  intro method hmethod
  rcases mem_modify_cases hmethod with hearlier | ⟨earlier, hearlier, rfl⟩
  · exact h method hearlier
  · exact hf earlier (List.mem_of_getElem? hearlier)

section Silent

variable {image : Image} {settings : Settings} {index : TypeIndex} {before after : Registry}

theorem ObjectLayout.layout_silent {object : ObjectType} {laid : Layout}
    (h : layout image index object before = .ok laid) :
    ∀ instr ∈ laid.body, instr.isPoint = false := by
  obtain ⟨chain, parts, planned, shape, base, bindings, hlaid⟩ := layout_ok h
  rw [hlaid.body_eq]
  refine List.forall_mem_append.mpr ⟨List.forall_mem_append.mpr ⟨?_, ?_⟩,
    List.forall_mem_singleton.mpr rfl⟩
  · have hbase := hlaid.base_ok
    unfold callBase at hbase
    split at hbase
    · cases hbase
      nofun
    · obtain ⟨found, -, hbase⟩ := ok_of_bind hbase
      cases hbase
      exact List.forall_mem_cons.mpr ⟨rfl, List.forall_mem_singleton.mpr rfl⟩
  · intro instr hinstr
    obtain ⟨binding, hbinding, hinstr⟩ := List.mem_flatten.mp hinstr
    obtain ⟨planned, -, hbind⟩ := mem_of_mapM hlaid.bindings_ok hbinding
    unfold bindSlot at hbind
    dsimp only at hbind
    split at hbind
    · cases hbind
    · split at hbind
      · cases hbind
      · cases hbind
        simp only [List.mem_cons, List.not_mem_nil, or_false] at hinstr
        rcases hinstr with rfl | rfl | rfl | rfl <;> rfl

theorem EnumLayout.constructorCode_silent (indexField : FieldRef) (number : Nat)
    (fields : List FlatField) :
    ∀ instr ∈ constructorCode indexField number fields, instr.isPoint = false := by
  refine List.forall_mem_append.mpr ⟨List.forall_mem_append.mpr ⟨?_, ?_⟩,
    List.forall_mem_singleton.mpr rfl⟩
  · simp [Instr.isPoint]
  · intro instr hinstr
    obtain ⟨part, hpart, hinstr⟩ := List.mem_flatten.mp hinstr
    obtain ⟨position, hposition, rfl⟩ := List.mem_mapIdx.mp hpart
    simp only [storeArgument, List.mem_cons, List.not_mem_nil, or_false] at hinstr
    rcases hinstr with rfl | rfl | rfl <;> rfl

theorem EnumLayout.compile_silent {result : Unit} (hbefore : before.target.Silent)
    (h : compile index before = .ok result after) : after.target.Silent := by
  obtain ⟨old, shape, -, -, h⟩ := compile_steps h
  refine Lowering.forM_keeps (·.target.Silent) ?_ ?_ h
  · rintro ⟨construct, number⟩ - first _ second hold hstep
    obtain ⟨-, -, rfl⟩ := compileConstruct_steps hstep
    exact hold.modifyMethod _ fun _ _ => constructorCode_silent shape.indexField number construct.fields
  · exact hbefore

theorem TypePasses.compileType_silent {source : SourceType} {result : Unit}
    (hbefore : before.target.Silent)
    (h : compileType image (source, index) before = .ok result after) : after.target.Silent := by
  cases source with
  | obj object | struct object =>
      obtain ⟨old, shape, laid, -, hlayout, htarget, -⟩ := ObjectLayout.compile_ok h
      rw [htarget]
      exact hbefore.modifyMethod _ fun _ _ => ObjectLayout.layout_silent hlayout
  | enum variants => exact EnumLayout.compile_silent hbefore h
  | virtual fields =>
      obtain ⟨old, shape, -, htarget, -⟩ := VirtualLayout.compile_ok h
      rw [htarget]
      exact hbefore.modifyMethod _ fun _ _ => List.forall_mem_singleton.mpr rfl
  | abstract name =>
      obtain ⟨old, -, -, rfl⟩ := advance_ok h
      exact hbefore
  | _ =>
      cases h
      exact hbefore

theorem TypePasses.run_silent {result : Unit}
    (h : run image (image.registry settings) = .ok result after) : after.target.Silent := by
  obtain ⟨resolved, defined, hresolve, hdefine, hcompile⟩ := run_ok h
  obtain ⟨-, hhollow, -⟩ := defineAll_anchors (Registry.create_defining _ _ _) hresolve hdefine
  refine pass_keeps (·.target.Silent) hcompile (fun _ hold => hold)
    (fun _ _ _ _ _ _ hold hstep => compileType_silent hold hstep) ?_
  intro method hmethod
  rw [hhollow.bodies method hmethod]
  nofun

namespace GlobalSlots

theorem constantValue_silent {global index : Nat} {source : SourceType} {code : List Instr}
    (h : constantValue image global source index = .ok code) :
    ∀ instr ∈ code, instr.isPoint = false := by
  rcases constantValue_ok h with ⟨_, rfl⟩ | ⟨_, rfl⟩ | ⟨_, rfl⟩ | ⟨text, rfl⟩
  case inr.inr.inr =>
    exact List.forall_mem_cons.mpr ⟨rfl, List.forall_mem_singleton.mpr rfl⟩
  all_goals exact List.forall_mem_singleton.mpr rfl

theorem constantField_silent {global : Nat} {field : FlatField} {index : Nat} {code : List Instr}
    (h : constantField image global (field, index) = .ok code) :
    ∀ instr ∈ code, instr.isPoint = false := by
  obtain ⟨source, value, -, hvalue, rfl⟩ := constantField_ok h
  exact List.forall_mem_cons.mpr ⟨rfl, List.forall_mem_append.mpr
    ⟨constantValue_silent hvalue, List.forall_mem_singleton.mpr rfl⟩⟩

theorem constantCode_silent {constant : Constant} {code : List Instr}
    (h : constantCode image before constant = .ok code) :
    ∀ instr ∈ code, instr.isPoint = false := by
  obtain ⟨type, shape, fields, -, -, hfields, rfl⟩ := constantCode_ok h
  refine List.forall_mem_cons.mpr ⟨rfl, List.forall_mem_append.mpr
    ⟨?_, List.forall_mem_singleton.mpr rfl⟩⟩
  intro instr hinstr
  obtain ⟨part, hpart, hinstr⟩ := List.mem_flatten.mp hinstr
  obtain ⟨⟨field, index⟩, -, hfield⟩ := mem_of_mapM hfields hpart
  exact constantField_silent hfield instr hinstr

end GlobalSlots

theorem Image.prepare_silent {result : Unit}
    (h : image.prepare (image.registry settings) = .ok result after) : after.target.Silent := by
  obtain ⟨typed, declared, found, initial, htypes, hglobals, hconstants, hmethods⟩ := prepare_ok h
  have hdeclared : declared.target.Silent := by
    refine Lowering.forM_keeps (·.target.Silent) ?_ (TypePasses.run_silent htypes) hglobals
    rintro ⟨type, number⟩ - first _ second hold hstep
    obtain ⟨slot, -, -, rfl⟩ := GlobalSlots.declare_ok hstep
    exact hold
  have hinitial : initial.target.Silent := by
    rcases GlobalSlots.lowerConstants_ok hconstants with rfl | ⟨code, hcode, rfl⟩
    · exact hdeclared
    · refine List.forall_mem_append.mpr ⟨hdeclared, List.forall_mem_singleton.mpr ?_⟩
      refine List.forall_mem_append.mpr ⟨?_, List.forall_mem_singleton.mpr rfl⟩
      intro instr hinstr
      obtain ⟨part, hpart, hinstr⟩ := List.mem_flatten.mp hinstr
      obtain ⟨constant, -, hconstant⟩ := mem_of_mapM hcode hpart
      exact GlobalSlots.constantCode_silent hconstant instr hinstr
  obtain ⟨names, middle, hfunctions, hnatives⟩ := Methods.defineAll_ok hmethods
  have hmiddle : middle.target.Silent := by
    refine Lowering.forM_keeps (·.target.Silent) ?_ hinitial hfunctions
    intro function _ first _ second hold hstep
    obtain ⟨signature, locals, -, -, -, rfl⟩ := Methods.defineFunction_ok hstep
    exact hold.modifyMethod _ hold
  refine Lowering.forM_keeps (·.target.Silent) ?_ hmiddle hnatives
  intro native _ first _ second hold hstep
  obtain ⟨signature, -, -, rfl⟩ := Methods.defineNative_ok hstep
  exact hold.modifyMethod _ hold

end Silent

/-! ## Compiling with source positions -/

namespace Image

theorem method_of_compileWithStats {image : Image} {settings : Settings} {target : TargetModule}
    {stats : CompileStats} (h : image.compileWithStats settings = .ok (target, stats))
    {function : FunctionDef} (hfunction : function ∈ image.functions) :
    ∃ method, target.method? function.index = some method := by
  obtain ⟨found, registry, hlowering, rfl, -⟩ := compileWithStats_ok h
  obtain ⟨prepared, hprepare, hcompile⟩ := lowering_ok hlowering
  obtain ⟨coded, hcoded, -, hmethods⟩ := Methods.compileAll_compiling hprepare hcompile
  obtain ⟨method, himplements⟩ := hcoded.methods _ (FunctionDef.head_mem hfunction)
  refine ⟨method, ?_⟩
  rw [TargetModule.method?, hmethods]
  exact himplements.1

def Annotated (image : Image) (settings : Settings) (function : FunctionDef) (body : List Instr) :
    Prop :=
  ∃ registry signature, image.Prepared (settings.withPoints true) registry ∧
    function.Annotated image registry settings signature body

/-- Source positions are annotations.  With and without them a compilation fails
with one error, or both succeed, and the module for which none are asked is the
other one with all of them deleted.  In that one every function tells its line
table without repetitions, each line at the start of the instruction with which
it begins. -/
theorem sequencePoints_of_compile (image : Image) (settings : Settings) :
    (∃ error, image.compileWithStats (settings.withPoints true) = .error error ∧
      image.compileWithStats (settings.withPoints false) = .error error) ∨
    ∃ target stats,
      image.compileWithStats (settings.withPoints true) = .ok (target, stats) ∧
      image.compileWithStats (settings.withPoints false) = .ok (target.withoutPoints,
        { stats with instructions := target.withoutPoints.instructionCount }) ∧
      ∀ function ∈ image.functions, ∃ method,
        target.method? function.index = some method ∧
          image.Annotated settings function method.body := by
  have hlower (function : FunctionDef) (_ : function ∈ image.functions) (done : List FunctionDef)
      (registry registry' : Registry) (signature : Signature)
      (hprepared : image.Prepared (settings.withPoints true) registry)
      (hparallel : registry.Parallel
        (fun function body body' => body' = withoutPoints body ∧
          image.Annotated settings function body)
        (fun body body' => body' = withoutPoints body) done registry') :
      FunctionDef.Abreast
        (fun body body' => body' = withoutPoints body ∧ image.Annotated settings function body)
        (function.lower image registry (settings.withPoints true) signature)
        (function.lower image registry' (settings.withPoints false) signature) :=
    (function.lower_withPoints (hparallel.within rfl)).imp fun _ _ ⟨hbody, hannotated⟩ =>
      ⟨hbody, registry, signature, hprepared, hannotated⟩
  have hname : (settings.withPoints false).moduleName = (settings.withPoints true).moduleName := rfl
  have hprepared (registry : Registry)
      (hprepare : image.prepare (image.registry (settings.withPoints true)) = .ok () registry)
      (method : MethodDecl) (hmethod : method ∈ registry.target.methods) :
      method.body = withoutPoints method.body :=
    (withoutPoints_of_plain (prepare_silent hprepare method hmethod)).symm
  rcases compileWithStats_parallel hname hprepared hlower with
    hfail | ⟨target, target', stats, hon, hoff, hparallel⟩
  · exact Or.inl hfail
  · have htarget : target' = target.withoutPoints := by
      have hmethods := hparallel.map_methods (fun _ _ _ hcode => hcode.1) fun _ _ hcode => hcode
      rw [← hparallel.same, hmethods]
      rfl
    subst htarget
    refine Or.inr ⟨target, stats, hon, hoff, ?_⟩
    intro function hfunction
    obtain ⟨method, hmethod⟩ := method_of_compileWithStats hon hfunction
    obtain ⟨body, -, hcode, -⟩ := hparallel.methods function.index method hmethod
    exact ⟨method, hmethod, (hcode function hfunction rfl).2⟩

end Image

def lineImage : Image where
  version := 4
  flags := 1
  types := [.void, .func ⟨[], 0⟩]
  functions := [{
    index := 0
    type := 1
    registers := [0]
    operations := [⟨.nop, [0]⟩, ⟨.label, [0]⟩, ⟨.jAlways, [-2]⟩, ⟨.ret, [0]⟩]
    lines := some [⟨0, 7⟩, ⟨0, 8⟩, ⟨0, 8⟩, ⟨1, 8⟩]
    names := [] }]
  functionTable := FunctionTable.build [0] []

example : (lineImage.compileWithStats (Settings.withPoints {} true)).toOption.map
      (fun result => (result.1.method? 0).map (·.body))
    = some (some [.sequencePoint 0 7, .nop, .markLabel 1, .sequencePoint 0 8, .br 1,
      .sequencePoint 1 8, .ret]) := by
  decide +kernel

end BytecodeLowering
