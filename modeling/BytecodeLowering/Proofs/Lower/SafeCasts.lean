import BytecodeLowering.Proofs.Body.CastPolicy
import BytecodeLowering.Proofs.Lower.Parallel

/-!
# Compiling with and without checked casts

The unchecked policy changes nothing but the casts in the code of safe casts,
and with it an image is compiled like the one that never asks for a check.
-/

namespace BytecodeLowering

/-! ## Preparing without checks -/

section Uncheck

variable (image : Image)

theorem Image.calleeType?_uncheck : image.uncheck.calleeType? = image.calleeType? := by
  have hposition (position : Nat) :
      image.uncheck.functions[position]?.map (·.type)
        = image.functions[position]?.map (·.type) := by
    rw [uncheck, List.getElem?_map, Option.map_map]
    rfl
  funext function
  rw [calleeType?, show image.uncheck.callee? function = image.callee? function from rfl]
  simp only [hposition]
  rfl

theorem Registry.mapType_uncheck (registry : Registry) :
    registry.mapType image.uncheck = registry.mapType image :=
  mapType_types (show image.uncheck.types = image.types from rfl) registry

theorem Registry.signatureOf_uncheck (registry : Registry) :
    registry.signatureOf image.uncheck = registry.signatureOf image :=
  signatureOf_types (show image.uncheck.types = image.types from rfl) registry

namespace ObjectLayout

theorem sourceObject_uncheck : sourceObject image.uncheck = sourceObject image := rfl

theorem superChain_uncheck : superChain image.uncheck = superChain image := by
  have hclimb (start : TypeIndex) (budget : Nat) :
      climb image.uncheck start budget = climb image start budget := by
    induction budget with
    | zero =>
        funext current chain
        unfold climb
        rfl
    | succ budget ih =>
        funext current chain
        unfold climb
        simp only [sourceObject_uncheck, ih]
  funext index
  simp only [superChain, hclimb, sourceObject_uncheck]
  rfl

theorem planSlots_uncheck : planSlots image.uncheck = planSlots image := by
  have hplan (filled : Nat) (owners : List TypeIndex) :
      planFrom image.uncheck filled owners = planFrom image filled owners := by
    induction owners generalizing filled with
    | nil => rfl
    | cons owner owners ih => simp only [planFrom, sourceObject_uncheck, ih]
  funext chain
  exact hplan 0 chain

theorem prototypeSignature_uncheck :
    prototypeSignature image.uncheck = prototypeSignature image := by
  funext registry prototype
  simp only [prototypeSignature, Image.calleeType?_uncheck, Registry.slotSignature,
    Registry.signatureOf_uncheck]

theorem define_uncheck : define image.uncheck = define image := by
  have hfields : ownFields image.uncheck = ownFields image := by
    funext object registry
    simp only [ownFields, Registry.mapType_uncheck]
  have hslots : slotFields image.uncheck = slotFields image := by
    funext index registry
    simp only [slotFields, superChain_uncheck, planSlots_uncheck, prototypeSignature_uncheck]
  funext index object
  simp only [define, hfields, hslots]

theorem compile_uncheck : compile image.uncheck = compile image := by
  have hcontribution : contribution image.uncheck = contribution image := rfl
  have hadd : addSlot image.uncheck = addSlot image := by
    funext registry chain slots planned
    simp only [addSlot, prototypeSignature_uncheck]
  have hlayout : layout image.uncheck = layout image := by
    funext index object registry
    simp only [layout, superChain_uncheck, planSlots_uncheck, hcontribution, hadd]
  funext index object
  simp only [compile, hlayout]

end ObjectLayout

theorem EnumLayout.define_uncheck : define image.uncheck = define image := by
  have hfields : constructFields image.uncheck = constructFields image := by
    funext decl params registry
    simp only [constructFields, Registry.mapType_uncheck]
  have hconstruct : defineConstruct image.uncheck = defineConstruct image := by
    funext ⟨construct, shape⟩
    simp only [defineConstruct, hfields]
  funext index variants
  simp only [define, hconstruct]

theorem VirtualLayout.define_uncheck : define image.uncheck = define image := by
  have hfields : recordFields image.uncheck = recordFields image := by
    funext decl fields registry
    simp only [recordFields, Registry.mapType_uncheck]
  funext index fields
  simp only [define, hfields]

theorem TypePasses.run_uncheck : run image.uncheck = run image := by
  have hdefine : defineType image.uncheck = defineType image := by
    funext ⟨source, index⟩
    cases source <;> simp only [defineType, ObjectLayout.define_uncheck, EnumLayout.define_uncheck,
      VirtualLayout.define_uncheck]
  have hcompile : compileType image.uncheck = compileType image := by
    funext ⟨source, index⟩
    cases source <;> simp only [compileType, ObjectLayout.compile_uncheck]
  simp only [run, resolveAll, defineAll, compileAll, hdefine, hcompile]
  rfl

theorem GlobalSlots.declareAll_uncheck : declareAll image.uncheck = declareAll image := by
  have hdeclare : declare image.uncheck = declare image := by
    funext ⟨type, number⟩
    simp only [declare, Registry.mapType_uncheck]
    rfl
  simp only [declareAll, hdeclare]
  rfl

theorem Methods.defineAll_uncheck : defineAll image.uncheck = defineAll image := by
  have hlocals : localTypes image.uncheck = localTypes image := by
    funext registers registry
    simp only [localTypes, Registry.mapType_uncheck]
    rfl
  have hnative : defineNative image.uncheck = defineNative image := by
    funext native
    simp only [defineNative, Registry.signatureOf_uncheck]
  have hfunction (names : List (Nat × String)) (function : FunctionDef) :
      defineFunction image.uncheck names function.uncheck
        = defineFunction image names function := by
    simp only [defineFunction, Registry.signatureOf_uncheck, hlocals]
    rfl
  have hfunctions (names : List (Nat × String)) :
      image.uncheck.functions.forM (defineFunction image.uncheck names)
        = image.functions.forM (defineFunction image names) := by
    refine (List.forM_map (l := image.functions)).trans ?_
    simp only [hfunction]
    rfl
  simp only [defineAll, hfunctions, hnative]
  rfl

theorem Image.prepare_uncheck : image.uncheck.prepare = image.prepare := by
  simp only [prepare, TypePasses.run_uncheck, GlobalSlots.declareAll_uncheck,
    Methods.defineAll_uncheck]
  rfl

end Uncheck

/-! ## Compiling without checks -/

section Policies

variable {image : Image} {settings : Settings} {before after : Registry}

namespace Methods

theorem compileFunction_uncheck {function : FunctionDef} {stats : BodyStats}
    (h : compileFunction image (settings.withSafeCast .unchecked) function before
      = .ok stats after) :
    compileFunction image.uncheck (settings.withSafeCast .unchecked) function.uncheck before
      = .ok stats after := by
  obtain ⟨entry, required, hrequire, h⟩ := Lowering.bind_ok h
  obtain ⟨-, rfl⟩ := requireDefined_ok hrequire
  obtain ⟨result, hlower, h⟩ := Lowering.query_bind h
  exact (Lowering.bind_of_ok hrequire).trans
    ((Lowering.bind_of_ok (Lowering.query_of_ok (FunctionDef.lower_uncheck hlower))).trans h)

theorem compileFunctions_uncheck {functions : List FunctionDef} {stats : List BodyStats}
    (h : functions.mapM (compileFunction image (settings.withSafeCast .unchecked)) before
      = .ok stats after) :
    (functions.map FunctionDef.uncheck).mapM
        (compileFunction image.uncheck (settings.withSafeCast .unchecked)) before
      = .ok stats after := by
  induction functions generalizing before stats with
  | nil => exact h
  | cons function functions ih =>
      rw [List.mapM_cons] at h
      obtain ⟨first, middle, hfirst, h⟩ := Lowering.bind_ok h
      obtain ⟨others, last, hothers, h⟩ := Lowering.bind_ok h
      cases h
      rw [List.map_cons, List.mapM_cons]
      exact (Lowering.bind_of_ok (compileFunction_uncheck hfirst)).trans
        (Lowering.bind_of_ok (ih hothers))

end Methods

namespace Image

theorem lowering_uncheck {stats : BodyStats}
    (h : image.lowering (settings.withSafeCast .unchecked) before = .ok stats after) :
    image.uncheck.lowering (settings.withSafeCast .unchecked) before = .ok stats after := by
  obtain ⟨prepared, hprepare, hcompile⟩ := lowering_ok h
  obtain ⟨found, coded, hcoded, hrest⟩ := Lowering.bind_ok hcompile
  rw [← prepare_uncheck] at hprepare
  exact (Lowering.bind_of_ok hprepare).trans
    ((Lowering.bind_of_ok (Methods.compileFunctions_uncheck hcoded)).trans hrest)

theorem compileWithStats_uncheck {target : TargetModule} {stats : CompileStats}
    (h : image.compileWithStats (settings.withSafeCast .unchecked) = .ok (target, stats)) :
    image.uncheck.compileWithStats (settings.withSafeCast .unchecked) = .ok (target, stats) := by
  obtain ⟨found, registry, hlowering, rfl, rfl⟩ := compileWithStats_ok h
  exact compileWithStats_of_ok (lowering_uncheck hlowering)

def Uncasts (image : Image) (settings : Settings) (function : FunctionDef)
    (body body' : List Instr) : Prop :=
  ∃ registry signature, image.Prepared (settings.withSafeCast .checked) registry ∧
    function.Uncasts image registry settings signature body body'

/-- The cast policy changes the casts in the code of safe casts and nothing
else.  Both policies fail with one error, or both succeed: the modules differ in
the code of functions alone, where the unchecked one leaves those casts out, and
it is what the image compiles to that asks for no check. -/
theorem safeCasts_of_compile (image : Image) (settings : Settings) :
    (∃ error, image.compileWithStats (settings.withSafeCast .checked) = .error error ∧
      image.compileWithStats (settings.withSafeCast .unchecked) = .error error) ∨
    ∃ target target' stats,
      image.compileWithStats (settings.withSafeCast .checked) = .ok (target, stats) ∧
      image.compileWithStats (settings.withSafeCast .unchecked)
        = .ok (target', { stats with instructions := target'.instructionCount }) ∧
      target.Parallel (image.Uncasts settings) Eq image.functions target' ∧
      image.uncheck.compileWithStats (settings.withSafeCast .unchecked)
        = .ok (target', { stats with instructions := target'.instructionCount }) := by
  have hlower (function : FunctionDef) (_ : function ∈ image.functions) (done : List FunctionDef)
      (registry registry' : Registry) (signature : Signature)
      (hprepared : image.Prepared (settings.withSafeCast .checked) registry)
      (hparallel : registry.Parallel (image.Uncasts settings) Eq done registry') :
      FunctionDef.Abreast (image.Uncasts settings function)
        (function.lower image registry (settings.withSafeCast .checked) signature)
        (function.lower image registry' (settings.withSafeCast .unchecked) signature) := by
    exact (function.lower_safeCast (hparallel.within rfl)).imp fun _ _ huncasts =>
      ⟨registry, signature, hprepared, huncasts⟩
  have hname : (settings.withSafeCast .unchecked).moduleName
      = (settings.withSafeCast .checked).moduleName := rfl
  rcases compileWithStats_parallel hname (fun _ _ _ _ => rfl) hlower with
    hfail | ⟨target, target', stats, hchecked, hunchecked, hparallel⟩
  · exact Or.inl hfail
  · exact Or.inr ⟨target, target', stats, hchecked, hunchecked, hparallel,
      compileWithStats_uncheck hunchecked⟩

end Image

end Policies

def castImage : Image where
  version := 4
  types := [
    .void,
    .obj ⟨"Base", none, none, [], [], []⟩,
    .obj ⟨"Derived", some 1, none, [], [], []⟩,
    .func ⟨[1], 2⟩]
  functions := [{
    index := 0
    type := 3
    registers := [1, 2]
    operations := [⟨.safeCast, [1, 0]⟩, ⟨.ret, [1]⟩]
    lines := none
    names := [] }]
  functionTable := FunctionTable.build [0] []

example : [SafeCastPolicy.checked, .unchecked].map (fun policy =>
      (castImage.compileWithStats (Settings.withSafeCast {} policy)).toOption.map fun result =>
        (result.1.method? 0).map (·.body))
    = [some (some [.ldArg 0, .castClass (.object 1), .stLoc 0, .ldLoc 0, .ret]),
      some (some [.ldArg 0, .stLoc 0, .ldLoc 0, .ret])] := by
  decide +kernel

end BytecodeLowering
