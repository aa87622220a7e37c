import BytecodeLowering.Body.Coercion

/-!
# Calls and closures

A direct call goes to the method of a function, a method call through the
delegate field of the receiver, and a call of a dynamic value through the
support library.
-/

namespace BytecodeLowering.Emit

def callee (function : Int) : Emit FunctionEntry := do
  let scope ← read
  match function.toNat?.bind scope.registry.function? with
  | some entry => return entry
  | none => throw (.invalidFunctionIndex scope.function.index function)

def pushArguments (args : List Int) (params : List TargetType) : Emit Unit := do
  if args.length = params.length then
    (args.zip params).forM fun (register, type) => loadAs register type
  else unsupported s!"{args.length} arguments for {params.length} parameters"

/-- A void result leaves the target register as it is. -/
def storeResult (target : Int) (ret : TargetType) : Emit Unit := do
  if ret ≠ .void then storeFrom target ret

def directCall (target function : Int) (args : List Int) : Emit Unit := do
  let entry ← callee function
  pushArguments args entry.signature.params
  emit (.call (.method entry.method))
  storeResult target entry.signature.ret

/-! ## Method slots -/

def receiverSlot (receiver slot : Int) : Emit (FieldRef × Signature) := do
  let registry := (← read).registry
  let index ← sourceTypeIndex receiver
  match ← sourceType receiver with
  | .obj _ | .struct _ =>
      let shape ← orUnsupported (registry.object? index)
        s!"object type @{index} has no declaration"
      match shape.slot? slot with
      | some found => return (found.field, found.signature)
      | none => throw (.invalidProtoSlot (← site) slot shape.name)
  | .virtual _ =>
      let shape ← orUnsupported (registry.virtual? index)
        s!"virtual type @{index} has no declaration"
      match shape.field? slot with
      | some found =>
          let signature ← orUnsupported found.type.signature?
            s!"field {found.name} is not callable"
          return (found.field, signature)
      | none => throw (.invalidProtoSlot (← site) slot s!"virtual{index}")
  | other => unsupported ("method call on " ++ other.kind.name)

def methodCall (target receiver slot : Int) (args : List Int) : Emit Unit := do
  let (field, signature) ← receiverSlot receiver slot
  let _ ← load receiver
  emit (.ldFld field)
  pushArguments args signature.params
  emit (.invokeDelegate signature)
  storeResult target signature.ret

/-- The first argument is the receiver. -/
def receiverCall (target slot : Int) : (args : List Int) → Emit Unit
  | [] => unsupported "method call without a receiver"
  | receiver :: args => methodCall target receiver slot args

/-! ## Closures -/

def storeArgument : Int × Nat → Emit Unit
  | (register, position) => do
      emit .dup
      emit (.ldcI4 (Word.signed32 position))
      loadAs register .any
      emit (.stElem .any)

def dynamicCall (target closure : Int) (args : List Int) : Emit Unit := do
  let _ ← load closure
  emit (.ldcI4 (Word.signed32 args.length))
  emit (.newArr .any)
  args.zipIdx.forM storeArgument
  callRuntime .dynamicInvoke
  bridge
  storeResult target .dynamic

def delegateCall (target closure : Int) (args : List Int) (signature : Signature) :
    Emit Unit := do
  let _ ← load closure
  pushArguments args signature.params
  emit (.invokeDelegate signature)
  storeResult target signature.ret

def closureCall (target closure : Int) (args : List Int) : Emit Unit := do
  match ← registerType closure with
  | .dynamic => dynamicCall target closure args
  | .delegate params ret => delegateCall target closure args ⟨params, ret⟩
  | other => unsupported ("call through " ++ other.text)

def staticClosure (target function : Int) : Emit Unit := do
  let entry ← callee function
  emit (.newDelegate entry.method false)
  storeResult target (.ofSignature entry.signature)

def instanceClosure (target function receiver : Int) : Emit Unit := do
  let entry ← callee function
  match entry.signature.params with
  | [] => unsupported "bound closure over a function without parameters"
  | first :: others =>
      loadAs receiver first
      emit (.newDelegate entry.method true)
      storeResult target (.delegate others entry.signature.ret)

def virtualClosure (target receiver slot : Int) : Emit Unit := do
  let (field, signature) ← receiverSlot receiver slot
  let _ ← load receiver
  emit (.ldFld field)
  storeResult target (.ofSignature signature)

end BytecodeLowering.Emit
