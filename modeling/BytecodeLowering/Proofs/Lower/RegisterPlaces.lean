import BytecodeLowering.Proofs.Body.FunctionLocals
import BytecodeLowering.Proofs.Lower.FunctionSpace
import BytecodeLowering.Proofs.Lower.Retention

/-!
# The locals of compiled methods

Functions get their locals when they are defined and again when they are
compiled; what a module has in the end are the locals of the lowered body, which
mirror the registers of the function.
-/

namespace BytecodeLowering

theorem Image.Prepared.decl?_eq {image : Image} {settings : Settings} {first second : Registry}
    (hfirst : image.Prepared settings first) (hsecond : image.Prepared settings second) :
    first.decl? = second.decl? := by
  obtain ⟨-, typed, hrun, hretains⟩ := hfirst.retains
  obtain ⟨-, other, hother, hkept⟩ := hsecond.retains
  obtain rfl : typed = other := by simpa using hrun.symm.trans hother
  funext index
  simp only [Registry.decl?, Registry.declaration?, hretains.types, hkept.types]

/-- The method of a function has the arguments and locals of its registers, with
one more local for values that are returned from inside traps, and its body
accesses each of them for its own register only. -/
theorem Image.locals_mirror_registers {image : Image} {settings : Settings}
    {target : TargetModule} (h : image.compile settings = .ok target) {function : FunctionDef}
    (hfunction : function ∈ image.functions) :
    ∃ stats registry method later scope codes exit,
      image.lowering settings (image.registry settings) = .ok stats registry ∧
        registry.target = target ∧ registry.Implements image function.head method ∧
        image.Prepared settings later ∧
        function.scope image later settings method.signature = .ok scope ∧
        function.registers.mapM (registry.mapType image) = .ok scope.registerTypes ∧
        scope.parameterCount ≤ scope.registerTypes.length ∧
        scope.Mirrors ⟨method.body, method.locals⟩ codes exit := by
  obtain ⟨stats, registry, hlowering, rfl⟩ := Image.compile_ok h
  obtain ⟨prepared, hprepare, hcompile⟩ := Image.lowering_ok hlowering
  obtain ⟨coded, hcoded, htypes, hmethods⟩ := Methods.compileAll_compiling hprepare hcompile
  obtain ⟨method, later, counts, himplements, hlater, hlower⟩ := hcoded.bodies function hfunction
  obtain ⟨scope, codes, exit, hscope, hmirrors⟩ := FunctionDef.exists_mirrors hlower
  obtain ⟨-, hregisters, -⟩ := FunctionDef.scope_ok hscope
  obtain ⟨hcount, -⟩ := FunctionDef.count_of_scope hscope
  have hdecls : registry.decl? = later.decl? := by
    rw [← hcoded.prepared.decl?_eq hlater]
    funext index
    simp only [Registry.decl?, Registry.declaration?, htypes]
  refine ⟨stats, registry, method, later, scope, codes, exit, hlowering, rfl,
    himplements.keep htypes hmethods, hlater, hscope, ?_, hcount, hmirrors⟩
  rw [Registry.mapType_same hdecls, hregisters]

def guardedResult : FunctionDef where
  index := 0
  type := 2
  registers := [1, 0, 1]
  operations := [⟨.trap, [2, 4]⟩, ⟨.null, [1]⟩, ⟨.mov, [2, 0]⟩, ⟨.ret, [2]⟩, ⟨.endTrap, [2]⟩,
    ⟨.ret, [0]⟩]
  lines := none
  names := []

def guardedResultImage : Image where
  version := 4
  types := [.void, .i32, .func ⟨[1], 1⟩]
  functions := [guardedResult]
  functionTable := FunctionTable.build [0] []

theorem locals_mirror_registers_guarded :
    ∃ target stats registry method later scope codes exit,
      guardedResultImage.compile {} = .ok target ∧
        guardedResultImage.lowering {} (guardedResultImage.registry {}) = .ok stats registry ∧
        registry.target = target ∧
        registry.Implements guardedResultImage guardedResult.head method ∧
        guardedResultImage.Prepared {} later ∧
        guardedResult.scope guardedResultImage later {} method.signature = .ok scope ∧
        guardedResult.registers.mapM (registry.mapType guardedResultImage)
          = .ok scope.registerTypes ∧
        scope.parameterCount ≤ scope.registerTypes.length ∧
        scope.Mirrors ⟨method.body, method.locals⟩ codes exit := by
  obtain ⟨target, hcompile⟩ : ∃ target, guardedResultImage.compile {} = .ok target :=
    ok_of_isOk (by decide +kernel)
  have hfunction : guardedResult ∈ guardedResultImage.functions := List.mem_singleton_self _
  obtain ⟨stats, registry, method, later, scope, codes, exit, hmethod⟩ :=
    Image.locals_mirror_registers hcompile hfunction
  exact ⟨target, stats, registry, method, later, scope, codes, exit, hcompile, hmethod⟩

/-- The registers after the parameter, and the slot of the exit. -/
example : ((guardedResultImage.compile {}).toOption.bind (·.method? 0)).map (·.locals)
    = some [.any, .i32, .i32] := by
  decide +kernel

end BytecodeLowering
