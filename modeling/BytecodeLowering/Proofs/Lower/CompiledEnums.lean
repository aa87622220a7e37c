import BytecodeLowering.Proofs.Body.EnumValues
import BytecodeLowering.Proofs.Lower.EnumStages
import BytecodeLowering.Proofs.Lower.Retention

/-!
# Enum values of compiled images

In a compiled module the instructions on enums do what they say: a construct
keeps its number and what its parameters were given, and is taken for no other
construct.
-/

namespace BytecodeLowering

variable {image : Image} {settings : Settings} {module : TargetModule} {registry : Registry}
  {index : TypeIndex} {variants : EnumType}

theorem Image.enum_built (hcompile : image.compile settings = .ok module)
    (hprepared : image.Prepared settings registry)
    (hvariants : image.types[index]? = some (.enum variants)) :
    ∃ declaration shape, EnumLayout.Filled image index variants registry declaration shape ∧
      shape.Built module declaration.decl := by
  obtain ⟨-, typed, hrun, hprepares⟩ := hprepared.retains
  obtain ⟨other, last, hother, hretains, rfl⟩ := compile_retains hcompile
  cases hrun.symm.trans hother
  obtain ⟨hlinked, declaration, shape, hcoded⟩ :=
    TypePasses.run_coded hvariants (Registry.create_linked _ _ _) hrun
  have hanchored := TypePasses.run_anchored (Registry.create_defining _ _ _) hrun
  have hbuilt := hcoded.built hlinked (hanchored.anchors index declaration hcoded.found)
  have hbuilds (construct : ConstructShape) (hconstruct : construct ∈ shape.constructs) :
      typed.target.builds? construct.constructor = some index := by
    refine hlinked.constructors index declaration hcoded.found _ ?_
    rw [hcoded.shape_eq]
    exact List.mem_map_of_mem hconstruct
  refine ⟨declaration, shape, ?_, hbuilt.keep hretains.classes fun construct hconstruct =>
    hretains.codes _ _ (hbuilds construct hconstruct)⟩
  have hlook : registry.declaration? = typed.declaration? := by
    funext other
    rw [Registry.declaration?, hprepares.types, Registry.declaration?]
  refine hcoded.toFilled.keep hlinked ⟨congrFun hlook index, ?_, ?_⟩ ?_
  · intro decl _
    rw [TargetModule.type?, hprepares.classes, TargetModule.type?]
  · exact fun id hid => hprepares.codes id index hid
  · funext other
    rw [Registry.decl?, hlook, Registry.decl?]

theorem types_of_mapM {step : TypeIndex × Nat → Except LoweringError FlatField}
    (hstep : ∀ param i field, step (param, i) = .ok field →
      registry.mapType image param = .ok field.type) {params : List TypeIndex} {start : Nat}
    {fields : List FlatField} (h : (params.zipIdx start).mapM step = .ok fields) :
    params.mapM (registry.mapType image) = .ok (fields.map (·.type)) := by
  induction params generalizing start fields with
  | nil =>
      cases h
      rfl
  | cons param params ih =>
      obtain ⟨first, rest, hfirst, hrest, rfl⟩ := ok_of_mapM_cons h
      rw [List.mapM_cons, hstep param start first hfirst, ih hrest]
      rfl

theorem EnumLayout.Filled.params {declaration : Declaration} {shape : EnumShape}
    (h : EnumLayout.Filled image index variants registry declaration shape) {k : Nat}
    {source : EnumConstruct} (hsource : variants.constructs[k]? = some source) :
    ∃ construct, shape.constructs[k]? = some construct ∧ construct.name = source.name ∧
      source.params.mapM (registry.mapType image) = .ok (construct.fields.map (·.type)) := by
  obtain ⟨construct, hconstruct⟩ : ∃ construct, shape.constructs[k]? = some construct :=
    ⟨_, List.getElem?_eq_getElem (h.lengths ▸ (List.getElem?_eq_some_iff.mp hsource).1)⟩
  refine ⟨construct, hconstruct, ?_, ?_⟩
  · have hnames := congrArg (·[k]?) h.names
    simp only [List.getElem?_map, hconstruct, hsource, Option.map_some] at hnames
    exact Option.some.inj hnames
  · refine types_of_mapM ?_ (h.fields k source construct hsource hconstruct)
    intro param i field hfield
    obtain ⟨type, htype, hfield⟩ := ok_of_bind hfield
    cases hfield
    exact htype

theorem EnumLayout.Filled.register {declaration : Declaration} {shape : EnumShape}
    (h : EnumLayout.Filled image index variants registry declaration shape)
    (hvariants : image.types[index]? = some (.enum variants)) {function : FunctionDef}
    {signature : Signature} {scope : Scope}
    (hscope : function.scope image registry settings signature = .ok scope) {register : Nat}
    (hregister : function.registers[register]? = some index) :
    scope.EnumRegister register declaration.decl shape := by
  obtain ⟨-, htypes, -, hregistry, hfunction, -⟩ := FunctionDef.scope_ok hscope
  refine ⟨?_, index, declaration, hfunction ▸ hregister, hregistry ▸ h.found, rfl, h.shape_eq⟩
  obtain ⟨hlength, hpoint⟩ := ok_of_mapM htypes
  obtain ⟨type, htype⟩ : ∃ type, scope.registerTypes[register]? = some type :=
    ⟨_, List.getElem?_eq_getElem (hlength ▸ (List.getElem?_eq_some_iff.mp hregister).1)⟩
  obtain ⟨item, hitem, hmapped⟩ := hpoint register type htype
  obtain rfl := Option.some.inj (hregister.symm.trans hitem)
  have henum : registry.mapType image index = .ok (.enum declaration.decl) := by
    simp [Registry.mapType, TypeMapping.mapWithin, Image.type?, hvariants, TypeMapping.declared,
      h.found]
  rw [htype, Except.ok.inj (hmapped.symm.trans henum)]

namespace Emit

/-- What the instructions on an enum do with one of its constructs and a
register of the type of the enum. -/
structure KeepsConstruct {α : Type} (host : Host α) (module : TargetModule) (scope : Scope)
    (register : Nat) (shape : EnumShape) (k : Nat) (construct : ConstructShape) : Prop where
  made : ∀ (state : MachineState α) args values,
    Arguments host module scope state args construct.fields values → ∃ after,
      Performs host module scope (operation ⟨.makeEnum, register :: k :: args⟩) () state after ∧
        shape.HeldIn scope register k construct values after
  allocated : ∀ state : MachineState α, ∃ after,
    Performs host module scope (operation ⟨.enumAlloc, [register, k]⟩) () state after ∧
      shape.HeldIn scope register k construct (construct.fields.map (Value.zero ·.type)) after
  number : ∀ (state : MachineState α) values, shape.HeldIn scope register k construct values state →
    ∀ (target : Nat) type result, scope.registerTypes[target]? = some type →
      Coerces host module scope state.1 .i32 type (IntegerType.i32.slot k) result →
        Performs host module scope (operation ⟨.enumIndex, [target, register]⟩) () state
          (state.1, state.2.keep scope target type result)
  parameter : ∀ (state : MachineState α) values,
    shape.HeldIn scope register k construct values state → ∀ (j : Nat) field value,
      construct.fields[j]? = some field → values[j]? = some value →
        ∀ (target : Nat) type result, scope.registerTypes[target]? = some type →
          Coerces host module scope state.1 field.type type value result →
            Performs host module scope (operation ⟨.enumField, [target, register, k, j]⟩) () state
              (state.1, state.2.keep scope target type result)
  mismatch : ∀ (state : MachineState α) values,
    shape.HeldIn scope register k construct values state → ∀ (k' : Nat) other,
      shape.constructs[k']? = some other → k' ≠ k → ∀ target field : Int,
        FailsCast host module scope (operation ⟨.enumField, [target, register, k', field]⟩)
          other.decl state

end Emit

/-- In a compiled module an enum value keeps the number of its construct and
what its parameters were given. -/
theorem Image.enumValues_of_compile (hcompile : image.compile settings = .ok module)
    (hprepared : image.Prepared settings registry) {function : FunctionDef} {signature : Signature}
    {scope : Scope} (hscope : function.scope image registry settings signature = .ok scope)
    (hvariants : image.types[index]? = some (.enum variants)) {k : Nat} {source : EnumConstruct}
    (hsource : variants.constructs[k]? = some source) {register : Nat}
    (hregister : function.registers[register]? = some index) {α : Type} (host : Host α) :
    ∃ shape construct, shape.constructs.length = variants.constructs.length ∧
      shape.constructs[k]? = some construct ∧ construct.name = source.name ∧
      source.params.mapM (registry.mapType image) = .ok (construct.fields.map (·.type)) ∧
      Emit.KeepsConstruct host module scope register shape k construct := by
  obtain ⟨declaration, shape, hfilled, hbuilt⟩ := enum_built hcompile hprepared hvariants
  obtain ⟨construct, hconstruct, hname, hparams⟩ := hfilled.params hsource
  have henum := hfilled.register hvariants hscope hregister
  refine ⟨shape, construct, hfilled.lengths, hconstruct, hname, hparams, ?_, ?_, ?_, ?_, ?_⟩
  · rintro ⟨world, activation⟩ args values hargs
    obtain ⟨entry, hentry, hperforms⟩ := Emit.makeEnum_performs hbuilt henum hconstruct hargs
    exact ⟨_, hperforms, _, entry, Activation.read_write_same, world.getElem?_add entry, hentry⟩
  · rintro ⟨world, activation⟩
    obtain ⟨entry, hentry, hperforms⟩ :=
      Emit.enumAlloc_performs host world activation hbuilt henum hconstruct
    exact ⟨_, hperforms, _, entry, Activation.read_write_same, world.getElem?_add entry, hentry⟩
  · rintro ⟨world, activation⟩ values hheld target type result htarget hresult
    exact Emit.enumIndex_performs hbuilt henum hheld hconstruct htarget hresult
  · rintro ⟨world, activation⟩ values hheld j field value hfield hvalue target type result htarget
      hresult
    exact Emit.enumField_performs hbuilt henum hheld hconstruct hfield hvalue htarget hresult
  · rintro ⟨world, activation⟩ values hheld k' other hother hne target field
    exact Emit.enumField_failsCast hbuilt henum hheld hconstruct hother hne target field

def makesVariant : FunctionDef where
  index := 0
  type := 4
  registers := [3, 1, 2, 0]
  operations := [⟨.makeEnum, [0, 1, 1]⟩, ⟨.enumField, [2, 0, 1, 0]⟩, ⟨.ret, [3]⟩]
  lines := none
  names := []

def variantsImage : Image where
  version := 4
  types := [
    .void,
    .i32,
    .i64,
    .enum ⟨"Choice", none, [⟨"none", []⟩, ⟨"some", [2]⟩]⟩,
    .func ⟨[], 0⟩]
  functions := [makesVariant]
  functionTable := FunctionTable.build [0] []

def numberState (number : Int) : MachineState Unit :=
  (⟨[], fun _ => Value.null⟩,
    { args := fun _ => Value.null
      locals := fun slot => if slot = 1 then IntegerType.i32.slot number else Value.null
      stack := [] })

theorem numberState_coerces {scope : Scope} (hparameters : scope.parameterCount = 0) {number : Int}
    (hnumber : IntegerType.i32.InRange number) :
    Emit.Coerces Host.inert module scope (numberState number).1 .i32 .i64
      ((numberState number).2.fetch scope 1 .i32) (IntegerType.i64.slot number) := by
  have hread : (numberState number).2.fetch scope 1 .i32 = IntegerType.i32.slot number := by
    simp [Activation.fetch, Activation.read, hparameters, numberState]
  have hcoerces := @Emit.Coerces.integer Unit Host.inert module scope (numberState number).1 .i32
    .i64 number hnumber
  rw [IntegerType.reduce_of_inRange hnumber.long] at hcoerces
  rwa [hread]

def variantTypes : Option (List TargetType) :=
  match variantsImage.prepare (variantsImage.registry {}) with
  | .ok _ registry =>
      (makesVariant.scope variantsImage registry {} ⟨[], .void⟩).toOption.map (·.registerTypes)
  | .error _ _ => none

theorem enumValues_of_compile_variants :
    ∃ module registry scope shape construct, variantsImage.compile {} = .ok module ∧
      variantsImage.Prepared {} registry ∧
      makesVariant.scope variantsImage registry {} ⟨[], .void⟩ = .ok scope ∧
      Emit.KeepsConstruct Host.inert module scope 0 shape 1 construct ∧
      ∀ number, IntegerType.i32.InRange number → ∃ after,
        Emit.Performs Host.inert module scope (Emit.operation ⟨.makeEnum, [0, 1, 1]⟩) ()
          (numberState number) after ∧
        Emit.Performs Host.inert module scope (Emit.operation ⟨.enumField, [2, 0, 1, 0]⟩) () after
          (after.1, after.2.write scope 2 (IntegerType.i64.slot number)) := by
  have hcompiles : (variantsImage.compile {}).toOption.isSome = true := by decide +kernel
  obtain ⟨module, hmodule⟩ := Option.isSome_iff_exists.mp hcompiles
  have hcompile := ok_of_toOption hmodule
  obtain ⟨stats, last, hlowering, -⟩ := Image.compile_ok hcompile
  obtain ⟨registry, hprepare, -⟩ := Image.lowering_ok hlowering
  have htypes : variantTypes = some [.enum 0, .i32, .i64, .void] := by decide +kernel
  rw [variantTypes, hprepare] at htypes
  obtain ⟨scope, hscope, htypes⟩ := Option.map_eq_some_iff.mp htypes
  replace hscope := ok_of_toOption hscope
  have hprepared : variantsImage.Prepared {} registry := .first hprepare
  have hvariants : variantsImage.types[3]?
      = some (.enum ⟨"Choice", none, [⟨"none", []⟩, ⟨"some", [2]⟩]⟩) := rfl
  have hsource : [⟨"none", []⟩, ⟨"some", [2]⟩][1]? = some (⟨"some", [2]⟩ : EnumConstruct) := rfl
  have hregister : makesVariant.registers[0]? = some 3 := rfl
  obtain ⟨shape, construct, -, hconstruct, -, hparams, hkeeps⟩ :=
    Image.enumValues_of_compile hcompile hprepared hscope hvariants hsource hregister Host.inert
  refine ⟨module, registry, scope, shape, construct, hcompile, hprepared, hscope, hkeeps, ?_⟩
  intro number hnumber
  have hfields : construct.fields.map (·.type) = [.i64] := (Except.ok.inj hparams).symm
  obtain ⟨field, hfield, htype⟩ := List.map_eq_singleton_iff.mp hfields
  have hparameters : scope.parameterCount = 0 := by
    obtain ⟨-, -, -, -, -, hsignature⟩ := FunctionDef.scope_ok hscope
    rw [Scope.parameterCount, hsignature]
    rfl
  have hargument : Emit.Arguments Host.inert module scope (numberState number) [1] construct.fields
      [IntegerType.i64.slot number] := by
    rw [hfield]
    refine ⟨rfl, rfl, ?_⟩
    rintro (_ | j) argument found value ⟨⟩ ⟨⟩ ⟨⟩
    refine ⟨1, .i32, rfl, by rw [htypes]; rfl, ?_⟩
    rw [htype]
    exact numberState_coerces hparameters hnumber
  obtain ⟨after, hmade, hheld⟩ := hkeeps.made (numberState number) [1] _ hargument
  refine ⟨after, hmade, ?_⟩
  have hread := hkeeps.parameter after _ hheld 0 field (IntegerType.i64.slot number)
    (by rw [hfield]; rfl) rfl 2 .i64 (IntegerType.i64.slot number) (by rw [htypes]; rfl)
    (by rw [htype]; exact .same .i64 _)
  rwa [Activation.keep_of_ne_void (by simp)] at hread

def makesTagged : FunctionDef where
  index := 0
  type := 3
  registers := [1, 2, 0]
  operations := [⟨.makeEnum, [1, 0, 0]⟩, ⟨.ret, [2]⟩]
  lines := none
  names := []

def taggedImage : Image where
  version := 4
  types := [.void, .i32, .enum ⟨"Choice", none, [⟨"tagged", [0]⟩]⟩, .func ⟨[1], 0⟩]
  functions := [makesTagged]
  functionTable := FunctionTable.build [0] []

def taggedMethod : MethodDecl where
  id := 0
  name := "fun0"
  kind := .static
  signature := ⟨[.i32], .void⟩
  locals := [.enum 0, .any]
  body := [.ldArg 0, .pop, .newObj (.method 1), .stLoc 0, .ret]
  sourceFunction := some 0

/-- The conversion to void leaves nothing for the constructor, at which the code is stuck. -/
theorem makeEnum_void_stuck :
    ∃ module config, taggedImage.compile {} = .ok module ∧ module.method? 0 = some taggedMethod ∧
      Host.inert.Reaches module
        ⟨taggedMethod.enter [IntegerType.i32.slot 5], [], ⟨[], fun _ => Value.null⟩⟩ config ∧
      config.frame.code[config.frame.place]? = some (.newObj (.method 1)) ∧
      Host.inert.step module config = none := by
  have hmethods : ((taggedImage.compile {}).toOption.map fun module =>
      (module.method? 0, (module.method? 1).map (·.signature.params)))
        = some (some taggedMethod, some [.void]) := by
    decide +kernel
  obtain ⟨module, hcompile, hfound⟩ := ok_of_map_toOption hmethods
  obtain ⟨hmethod, hparams⟩ := Prod.mk.inj hfound
  obtain ⟨constructor, hconstructor, hparams⟩ := Option.map_eq_some_iff.mp hparams
  let start : Config Unit :=
    ⟨taggedMethod.enter [IntegerType.i32.slot 5], [], ⟨[], fun _ => Value.null⟩⟩
  refine ⟨module, start.goTo 2 [], hcompile, hmethod, ?_, rfl, ?_⟩
  · have hload : Host.inert.step module start = some (start.goTo 1 [IntegerType.i32.slot 5]) := rfl
    have hpop : Host.inert.step module (start.goTo 1 [IntegerType.i32.slot 5])
        = some (start.goTo 2 []) := rfl
    exact .head hload (.single hpop)
  · rw [Host.step_construct 1 rfl]
    cases howner : constructor.owner with
    | none => simp [Config.construct, hconstructor, howner]
    | some owner => simp [Config.construct, Config.goTo, start, hconstructor, howner, hparams,
        MethodDecl.enter]

end BytecodeLowering
