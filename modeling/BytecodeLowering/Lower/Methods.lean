import BytecodeLowering.Body.Function

/-!
# Methods of functions and natives

The methods of functions and natives all get their names, signatures and locals
before any body is lowered, so that a call may go to any function.
-/

namespace BytecodeLowering.Methods

/-! ## Names -/

def objectMembers (registry : Registry) : SourceType × TypeIndex → List (Nat × String)
  | (source, index) =>
      match source.object? with
      | none => []
      | some object =>
          let fields := ((registry.object? index).map (·.fields)).getD []
          let fieldName (field : Nat) : String :=
            (fields[field]?.map (·.name)).getD s!"field{field}"
          object.prototypes.map (fun prototype =>
              (prototype.function, object.name ++ "." ++ prototype.name))
            ++ object.bindings.map (fun binding =>
              (binding.function, object.name ++ "." ++ fieldName binding.field))

/-- The name of a function that belongs to a type; the first type that claims
it counts. -/
def memberNames (image : Image) (registry : Registry) : List (Nat × String) :=
  image.types.zipIdx.flatMap (objectMembers registry)

/-! ## Defining -/

def requireTypesCompiled : Lowering Unit := do
  let pass := (← get).pass
  if pass ≠ some .compiled then throw (.stageOrder "functions" .defined pass)

def reservedMethod (function : Nat) : Lowering MethodId := do
  match (← get).method? function with
  | some method => return method
  | none => throw (.invalidFunctionIndex function (Word.signed32 function))

def localTypes (image : Image) (registers : List TypeIndex) (registry : Registry) :
    Except LoweringError (List TargetType) :=
  registers.mapM fun type =>
    match image.type? type with
    | some .void => .ok .any
    | _ => registry.mapType image type

def defineFunction (image : Image) (names : List (Nat × String)) (function : FunctionDef) :
    Lowering Unit := do
  let method ← reservedMethod function.index
  let signature ← Lowering.query (·.signatureOf image function.type)
  let count := signature.params.length
  if function.registers.length < count then
    throw (.invalidRegister ⟨function.index, 0⟩ ((count : Int) - 1))
  else
    let locals ← Lowering.query (localTypes image (function.registers.drop count))
    Registry.modifyTarget (·.modifyMethod method fun decl =>
      { decl with
        name := (names.lookup function.index).getD decl.name
        signature, locals, sourceFunction := some function.index })
    Registry.defineFunction
      { stage := .defined, function := function.index, method, signature, native := false }

def defineNative (image : Image) (entry : Native) : Lowering Unit := do
  let method ← reservedMethod entry.index
  let signature ← Lowering.query (·.signatureOf image entry.type)
  Registry.modifyTarget (·.modifyMethod method fun decl =>
    { decl with
      name := entry.library ++ "." ++ entry.symbol
      signature
      native := some { library := entry.library, symbol := entry.symbol }
      sourceFunction := some entry.index })
  Registry.defineFunction
    { stage := .defined, function := entry.index, method, signature, native := true }

def defineAll (image : Image) : Lowering Unit := do
  requireTypesCompiled
  let names := memberNames image (← get)
  image.functions.forM (defineFunction image names)
  image.natives.forM (defineNative image)

/-! ## Compiling -/

def requireDefined (function : Nat) : Lowering FunctionEntry := do
  match (← get).function? function with
  | some entry =>
      if entry.stage = .defined then return entry
      else throw (.stageOrder s!"fun{function}" .compiled (some entry.stage))
  | none => throw (.stageOrder s!"fun{function}" .compiled none)

def compileFunction (image : Image) (settings : Settings) (function : FunctionDef) :
    Lowering BodyStats := do
  let entry ← requireDefined function.index
  let (result, stats) ← Lowering.query fun registry =>
    function.lower image registry settings entry.signature
  Registry.modifyTarget (·.modifyMethod entry.method fun decl =>
    { decl with body := result.body, locals := result.locals })
  Registry.markCompiled function.index
  return stats

def selectEntrypoint (image : Image) : Lowering Unit := do
  if (image.callee? image.entrypoint).isSome then
    let method := (← get).method? image.entrypoint
    Registry.modifyTarget fun target => { target with entrypoint := method }

def compileAll (image : Image) (settings : Settings) : Lowering BodyStats := do
  let stats ← image.functions.mapM (compileFunction image settings)
  image.natives.forM fun native => Registry.markCompiled native.index
  selectEntrypoint image
  return stats.foldl BodyStats.merge {}

end BytecodeLowering.Methods
