import BytecodeLowering.Lower.Program
import BytecodeLowering.Proofs.Lower.Changes

/-!
# Steps behind the type table

What the steps behind the type table do to a registry.  A global is one more
slot, the initial values are one more method, and a function is entered in its
own place of the function list together with a change of its own method.
-/

namespace BytecodeLowering

def Registry.enter (registry : Registry) (function : Nat) (f : MethodDecl → MethodDecl)
    (entry : FunctionEntry) : Registry :=
  { registry with
    target := registry.target.modifyMethod function f
    functions := registry.functions.set function (some entry) }

theorem Registry.function?_enter {registry : Registry} {function : Nat}
    {f : MethodDecl → MethodDecl} {entry : FunctionEntry}
    (hfunction : function < registry.functions.length) (other : Nat) :
    (registry.enter function f entry).function? other
      = if function = other then some entry else registry.function? other := by
  simp only [enter, function?, List.getElem?_set]
  by_cases hsame : function = other
  · rw [if_pos hsame, if_pos hsame, if_pos hfunction]
    rfl
  · rw [if_neg hsame, if_neg hsame]

section Steps

variable {image : Image} {settings : Settings} {before after : Registry}

/-! ## Globals -/

namespace GlobalSlots

theorem declare_ok {type : TypeIndex} {number : Nat} {result : Unit}
    (h : declare image (type, number) before = .ok result after) :
    ∃ slot : GlobalSlot, slot.id = number ∧ before.mapType image type = .ok slot.type ∧
      { before with target := before.target.addGlobal slot } = after := by
  unfold declare at h
  cases hsource : image.type? type with
  | none =>
      simp only [hsource] at h
      cases h
  | some source =>
      simp only [hsource] at h
      obtain ⟨mapped, hmapped, h⟩ := Lowering.query_bind h
      cases h
      exact ⟨_, rfl, hmapped, rfl⟩

theorem constantValue_ok {global index : Nat} {source : SourceType} {code : List Instr}
    (h : constantValue image global source index = .ok code) :
    (∃ value, code = [.ldcI4 value]) ∨ (∃ value, code = [.ldcI8 value]) ∨
      (∃ value, code = [.ldcR8 value]) ∨
        ∃ text, code = [.ldStr text, .call (.runtime .bytesFromString)] := by
  cases source <;> unfold constantValue at h
  case u8 | u16 | i32 =>
    obtain ⟨value, -, h⟩ := ok_of_bind h
    exact Or.inl ⟨value, (Except.ok.inj h).symm⟩
  case i64 =>
    obtain ⟨value, -, h⟩ := ok_of_bind h
    exact Or.inr (Or.inl ⟨value, (Except.ok.inj h).symm⟩)
  case f32 | f64 =>
    obtain ⟨value, -, h⟩ := ok_of_bind h
    exact Or.inr (Or.inr (Or.inl ⟨value, (Except.ok.inj h).symm⟩))
  case bool => exact Or.inl ⟨_, (Except.ok.inj h).symm⟩
  case bytes =>
    obtain ⟨text, -, h⟩ := ok_of_bind h
    exact Or.inr (Or.inr (Or.inr ⟨text, (Except.ok.inj h).symm⟩))
  all_goals cases h

theorem constantField_ok {global index : Nat} {field : FlatField} {code : List Instr}
    (h : constantField image global (field, index) = .ok code) :
    ∃ source value, image.type? field.source = some source ∧
      constantValue image global source index = .ok value ∧
      code = .dup :: value ++ [.stFld field.field] := by
  unfold constantField at h
  cases hsource : image.type? field.source with
  | none =>
      simp only [hsource] at h
      cases h
  | some source =>
      simp only [hsource] at h
      obtain ⟨value, hvalue, h⟩ := ok_of_bind h
      cases h
      exact ⟨source, value, rfl, hvalue, rfl⟩

theorem constantCode_ok {constant : Constant} {code : List Instr}
    (h : constantCode image before constant = .ok code) :
    ∃ type shape fields, before.object? type = some shape ∧
      constant.global < before.target.globals.length ∧
      (shape.fields.zip constant.fields).mapM (constantField image constant.global)
        = .ok fields ∧
      code = .newObj (.method shape.constructor) :: fields.flatten ++ [.stSFld constant.global] := by
  unfold constantCode at h
  cases htype : image.globals[constant.global]? with
  | none =>
      simp only [htype] at h
      cases h
  | some type =>
      simp only [htype] at h
      split at h
      · cases h
      · obtain ⟨⟨declaration, shape⟩, hrequire, h⟩ := ok_of_bind h
        obtain ⟨hfound, hshape⟩ := requireObject_ok hrequire
        have hobject : before.object? type = some shape := by
          obtain ⟨stage, source, decl, _⟩ := declaration
          cases hshape
          simp only [Registry.object?, hfound]
        dsimp only [Registry.global?] at h
        split at h
        · cases h
        · split at h
          · cases h
          · rename_i hslot
            split at hslot
            · cases hslot
              obtain ⟨fields, hfields, h⟩ := ok_of_bind h
              cases h
              exact ⟨type, shape, fields, hobject, ‹_›, hfields, rfl⟩
            · cases hslot

def initializer (target : TargetModule) (code : List (List Instr)) : MethodDecl :=
  { id := target.methods.length
    name := "$init"
    kind := .moduleInitializer
    body := code.flatten ++ [.ret] }

/-- There is nothing to initialize, or a constant has no code and the registry is
as before, or a method with the code of the constants is added. -/
theorem lowerConstants_cases (image : Image) (before : Registry) :
    (image.constants = [] ∧ lowerConstants image before = .ok none before) ∨
    (∃ error, image.constants.mapM (constantCode image before) = .error error ∧
      lowerConstants image before = .error error before) ∨
    ∃ codes, image.constants.mapM (constantCode image before) = .ok codes ∧
      lowerConstants image before = .ok (some before.target.methods.length)
        { before with
          target := { before.target with
            methods := before.target.methods ++ [initializer before.target codes]
            initializer := some before.target.methods.length } } := by
  unfold lowerConstants
  cases hconstants : image.constants with
  | nil => exact Or.inl ⟨rfl, rfl⟩
  | cons constant constants =>
      right
      rw [if_neg (by simp)]
      cases hcodes : (constant :: constants).mapM (constantCode image before) with
      | error error =>
          exact Or.inl ⟨error, rfl, Lowering.bind_of_error (Lowering.query_of_error hcodes)⟩
      | ok codes =>
          refine Or.inr ⟨codes, rfl, (Lowering.bind_of_ok (Lowering.query_of_ok hcodes)).trans ?_⟩
          have hadd : TargetModule.modifyMethod
              (before.target.addMethod "$init" .moduleInitializer).2 before.target.methods.length
                (fun decl => { decl with body := codes.flatten ++ [.ret] })
              = { before.target with
                  methods := before.target.methods ++ [initializer before.target codes] } := by
            simp only [TargetModule.modifyMethod, TargetModule.addMethod, modify_append_length]
            rfl
          exact congrArg (fun target : TargetModule =>
            EStateM.Result.ok (some before.target.methods.length)
              { before with target := { target with
                initializer := some before.target.methods.length } }) hadd

theorem lowerConstants_ok {result : Option MethodId}
    (h : lowerConstants image before = .ok result after) :
    before = after ∨ ∃ code, image.constants.mapM (constantCode image before) = .ok code ∧
      { before with
        target := { before.target with
          methods := before.target.methods ++ [initializer before.target code]
          initializer := some before.target.methods.length } } = after := by
  rcases lowerConstants_cases image before with
    ⟨-, hrun⟩ | ⟨error, -, hrun⟩ | ⟨code, hcode, hrun⟩ <;> cases hrun.symm.trans h
  · exact Or.inl rfl
  · exact Or.inr ⟨code, hcode, rfl⟩

end GlobalSlots

/-! ## Functions -/

theorem Registry.defineFunction_ok {entry : FunctionEntry} {result : Unit}
    (h : Registry.defineFunction entry before = .ok result after) :
    before.functions[entry.function]? = some none ∧
      { before with functions := before.functions.set entry.function (some entry) } = after := by
  have h := Lowering.get_bind h
  cases hfound : before.functions[entry.function]? with
  | none =>
      simp only [hfound] at h
      cases h
  | some found =>
      cases found <;> simp only [hfound] at h <;> cases h
      exact ⟨rfl, rfl⟩

theorem Registry.markCompiled_ok {function : Nat} {result : Unit}
    (h : Registry.markCompiled function before = .ok result after) :
    ∃ entry, before.function? function = some entry ∧
      { before with
        functions := before.functions.set function (some { entry with stage := .compiled }) }
        = after := by
  have h := Lowering.get_bind h
  cases hentry : before.function? function with
  | none =>
      simp only [hentry] at h
      cases h
  | some entry =>
      simp only [hentry] at h
      split at h
      · cases h
        exact ⟨entry, rfl, rfl⟩
      · cases h

namespace Methods

theorem reservedMethod_ok {function : Nat} {method : MethodId}
    (h : reservedMethod function before = .ok method after) :
    function < before.functions.length ∧ method = function ∧ before = after := by
  have h := Lowering.get_bind h
  unfold Registry.method? at h
  by_cases hfunction : function < before.functions.length
  · simp only [if_pos hfunction] at h
    cases h
    exact ⟨hfunction, rfl, rfl⟩
  · simp only [if_neg hfunction] at h
    cases h

theorem defineFunction_ok {names : List (Nat × String)} {function : FunctionDef} {result : Unit}
    (h : defineFunction image names function before = .ok result after) :
    ∃ signature locals, before.functions[function.index]? = some none ∧
      before.signatureOf image function.type = .ok signature ∧
      localTypes image (function.registers.drop signature.params.length) before = .ok locals ∧
      before.enter function.index
        (fun decl => { decl with
          name := (names.lookup function.index).getD decl.name
          signature, locals, sourceFunction := some function.index })
        { stage := .defined, function := function.index, method := function.index, signature,
          native := false } = after := by
  obtain ⟨method, reserved, hreserved, h⟩ := Lowering.bind_ok h
  obtain ⟨hfunction, rfl, rfl⟩ := reservedMethod_ok hreserved
  obtain ⟨signature, hsignature, h⟩ := Lowering.query_bind h
  dsimp only at h
  split at h
  · cases h
  · obtain ⟨locals, hlocals, h⟩ := Lowering.query_bind h
    obtain ⟨hvacant, h⟩ := Registry.defineFunction_ok (Lowering.modifyTarget_bind h)
    exact ⟨signature, locals, hvacant, hsignature, hlocals, h⟩

theorem defineNative_ok {entry : Native} {result : Unit}
    (h : defineNative image entry before = .ok result after) :
    ∃ signature, before.functions[entry.index]? = some none ∧
      before.signatureOf image entry.type = .ok signature ∧
      before.enter entry.index
        (fun decl => { decl with
          name := entry.library ++ "." ++ entry.symbol
          signature
          native := some { library := entry.library, symbol := entry.symbol }
          sourceFunction := some entry.index })
        { stage := .defined, function := entry.index, method := entry.index, signature,
          native := true } = after := by
  obtain ⟨method, reserved, hreserved, h⟩ := Lowering.bind_ok h
  obtain ⟨hfunction, rfl, rfl⟩ := reservedMethod_ok hreserved
  obtain ⟨signature, hsignature, h⟩ := Lowering.query_bind h
  obtain ⟨hvacant, h⟩ := Registry.defineFunction_ok (Lowering.modifyTarget_bind h)
  exact ⟨signature, hvacant, hsignature, h⟩

theorem defineAll_ok {result : Unit} (h : defineAll image before = .ok result after) :
    ∃ names middle, image.functions.forM (defineFunction image names) before = .ok ⟨⟩ middle ∧
      image.natives.forM (defineNative image) middle = .ok ⟨⟩ after := by
  obtain ⟨_, required, hrequire, h⟩ := Lowering.bind_ok h
  have hsame : before = required := by
    have hrequire := Lowering.get_bind hrequire
    split at hrequire
    · cases hrequire
    · cases hrequire
      rfl
  subst hsame
  have h := Lowering.get_bind h
  obtain ⟨_, middle, hfunctions, hnatives⟩ := Lowering.bind_ok h
  exact ⟨_, middle, hfunctions, hnatives⟩

/-! ## Bodies -/

theorem requireDefined_ok {function : Nat} {entry : FunctionEntry}
    (h : requireDefined function before = .ok entry after) :
    before.function? function = some entry ∧ before = after := by
  have h := Lowering.get_bind h
  cases hfound : before.function? function with
  | none =>
      simp only [hfound] at h
      cases h
  | some found =>
      simp only [hfound] at h
      split at h
      · cases h
        exact ⟨rfl, rfl⟩
      · cases h

theorem compileFunction_ok {function : FunctionDef} {stats : BodyStats}
    (h : compileFunction image settings function before = .ok stats after) :
    ∃ entry result, before.function? function.index = some entry ∧
      function.lower image before settings entry.signature = .ok (result, stats) ∧
      { before with
        target := before.target.modifyMethod entry.method fun decl =>
          { decl with body := result.body, locals := result.locals }
        functions := before.functions.set function.index
          (some { entry with stage := .compiled }) } = after := by
  obtain ⟨entry, required, hrequire, h⟩ := Lowering.bind_ok h
  obtain ⟨hentry, rfl⟩ := requireDefined_ok hrequire
  obtain ⟨⟨body, found⟩, hlower, h⟩ := Lowering.query_bind h
  have h := Lowering.modifyTarget_bind h
  obtain ⟨_, last, hmark, h⟩ := Lowering.bind_ok h
  cases h
  obtain ⟨found, hfound, rfl⟩ := Registry.markCompiled_ok hmark
  obtain rfl : entry = found := Option.some.inj (hentry.symm.trans hfound)
  exact ⟨entry, body, hentry, hlower, rfl⟩

theorem selectEntrypoint_ok {result : Unit}
    (h : selectEntrypoint image before = .ok result after) :
    before = after ∨
      { before with
        target := { before.target with entrypoint := before.method? image.entrypoint } }
        = after := by
  unfold selectEntrypoint at h
  split at h
  · have h := Lowering.get_bind h
    cases h
    exact Or.inr rfl
  · cases h
    exact Or.inl rfl

theorem compileAll_ok {stats : BodyStats} (h : compileAll image settings before = .ok stats after) :
    ∃ found coded marked, image.functions.mapM (compileFunction image settings) before
        = .ok found coded ∧
      image.natives.forM (fun native => Registry.markCompiled native.index) coded
        = .ok ⟨⟩ marked ∧
      selectEntrypoint image marked = .ok () after := by
  obtain ⟨found, coded, hcoded, h⟩ := Lowering.bind_ok h
  obtain ⟨_, marked, hmarked, h⟩ := Lowering.bind_ok h
  obtain ⟨_, last, hselect, h⟩ := Lowering.bind_ok h
  cases h
  exact ⟨found, coded, marked, hcoded, hmarked, hselect⟩

end Methods

/-! ## Images -/

namespace Image

theorem prepare_ok {result : Unit} (h : image.prepare before = .ok result after) :
    ∃ typed declared found initial, TypePasses.run image before = .ok ⟨⟩ typed ∧
      image.globals.zipIdx.forM (GlobalSlots.declare image) typed = .ok ⟨⟩ declared ∧
      GlobalSlots.lowerConstants image declared = .ok found initial ∧
      Methods.defineAll image initial = .ok () after := by
  obtain ⟨_, typed, htyped, h⟩ := Lowering.bind_ok h
  obtain ⟨_, declared, hdeclared, h⟩ := Lowering.bind_ok h
  obtain ⟨found, initial, hinitial, h⟩ := Lowering.bind_ok h
  exact ⟨typed, declared, found, initial, htyped, hdeclared, hinitial, h⟩

theorem lowering_ok {stats : BodyStats} (h : image.lowering settings before = .ok stats after) :
    ∃ prepared, image.prepare before = .ok () prepared ∧
      Methods.compileAll image settings prepared = .ok stats after := by
  obtain ⟨_, prepared, hprepare, hcompile⟩ := Lowering.bind_ok h
  exact ⟨prepared, hprepare, hcompile⟩

theorem compileWithStats_ok {target : TargetModule} {stats : CompileStats}
    (h : image.compileWithStats settings = .ok (target, stats)) :
    ∃ found registry, image.lowering settings (image.registry settings) = .ok found registry ∧
      registry.target = target ∧ stats = ⟨target.types.length, target.methods.length,
        target.instructionCount, found.bridges, found.gaps⟩ := by
  unfold compileWithStats at h
  cases hlowering : image.lowering settings (image.registry settings) with
  | error error registry =>
      simp only [hlowering] at h
      cases h
  | ok found registry =>
      simp only [hlowering] at h
      cases h
      exact ⟨found, registry, rfl, rfl, rfl⟩

theorem compile_ok {target : TargetModule} (h : image.compile settings = .ok target) :
    ∃ stats registry, image.lowering settings (image.registry settings) = .ok stats registry ∧
      registry.target = target := by
  obtain ⟨⟨found, counts⟩, hfound, rfl⟩ := ok_of_map h
  obtain ⟨stats, registry, hlowering, htarget, -⟩ := compileWithStats_ok hfound
  exact ⟨stats, registry, hlowering, htarget⟩

theorem compileWithStats_of_ok {found : BodyStats} {registry : Registry}
    (h : image.lowering settings (image.registry settings) = .ok found registry) :
    image.compileWithStats settings = .ok (registry.target,
      ⟨registry.target.types.length, registry.target.methods.length,
        registry.target.instructionCount, found.bridges, found.gaps⟩) := by
  rw [compileWithStats, h]

theorem compileWithStats_of_error {error : LoweringError} {registry : Registry}
    (h : image.lowering settings (image.registry settings) = .error error registry) :
    image.compileWithStats settings = .error error := by
  rw [compileWithStats, h]

end Image

end Steps

end BytecodeLowering
