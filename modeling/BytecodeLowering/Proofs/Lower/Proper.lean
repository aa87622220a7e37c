import BytecodeLowering.Body.Emit
import BytecodeLowering.Proofs.Target.StackEffect

/-!
# Proper types

Types in which void stands only for the missing result of a function, and
registries that give every operand such a type and every constructor and
function the signature by which it is called.
-/

namespace BytecodeLowering

/-! ## Types -/

/-- Void occurs only as a result. -/
inductive TargetType.Proper : TargetType → Prop
  | builtin (type : Builtin) : Proper (.builtin type)
  | declared (kind : Nominal) (id : TypeId) : Proper (.declared kind id)
  | delegate {params : List TargetType} {ret : TargetType}
      (hvalues : ∀ param ∈ params, param ≠ .void) (hparams : ∀ param ∈ params, Proper param)
      (hret : Proper ret) : Proper (.delegate params ret)
  | ref {inner : TargetType} (hvalue : inner ≠ .void) (hinner : Proper inner) :
      Proper (.ref inner)
  | nullable {inner : TargetType} (hvalue : inner ≠ .void) (hinner : Proper inner) :
      Proper (.nullable inner)

/-- The type of something that holds a value. -/
structure TargetType.Held (type : TargetType) : Prop where
  value : type ≠ .void
  proper : type.Proper

structure Signature.Proper (signature : Signature) : Prop where
  params : ∀ param ∈ signature.params, param.Held
  ret : signature.ret.Proper

namespace TargetType

theorem Proper.signature {params : List TargetType} {ret : TargetType}
    (h : Proper (.delegate params ret)) : Signature.Proper ⟨params, ret⟩ := by
  cases h with
  | delegate hvalues hparams hret =>
      exact ⟨fun param hparam => ⟨hvalues param hparam, hparams param hparam⟩, hret⟩

theorem Proper.boxed {inner : TargetType} (h : Proper (.ref inner)) : inner.Held := by
  cases h with
  | ref hvalue hinner => exact ⟨hvalue, hinner⟩

theorem Proper.wrapped {inner : TargetType} (h : Proper (.nullable inner)) : inner.Held := by
  cases h with
  | nullable hvalue hinner => exact ⟨hvalue, hinner⟩

theorem Held.slots {type : TargetType} (h : type.Held) : type.slots = 1 := if_neg h.value

end TargetType

theorem Signature.Proper.delegate {signature : Signature} (h : signature.Proper) :
    TargetType.Proper (.ofSignature signature) :=
  .delegate (fun param hparam => (h.params param hparam).value)
    (fun param hparam => (h.params param hparam).proper) h.ret

/-! ## Registries -/

def TargetModule.Constructs (module : TargetModule) (constructor : MethodId) (fields : Nat) : Prop :=
  (CallTarget.signature module (.method constructor)).params.length = fields

structure FunctionEntry.Sound (module : TargetModule) (entry : FunctionEntry) : Prop where
  static : CallTarget.receivers module (.method entry.method) = 0
  signature : CallTarget.signature module (.method entry.method) = entry.signature
  proper : entry.signature.Proper

structure ObjectShape.Sound (module : TargetModule) (shape : ObjectShape) : Prop where
  constructor : module.Constructs shape.constructor 0
  fields : ∀ field ∈ shape.fields, field.type.Held
  slots : ∀ slot ∈ shape.slots, slot.signature.Proper

structure VirtualShape.Sound (module : TargetModule) (shape : VirtualShape) : Prop where
  constructor : module.Constructs shape.constructor 0
  fields : ∀ field ∈ shape.fields, field.type.Held

structure ConstructShape.Sound (module : TargetModule) (shape : ConstructShape) : Prop where
  constructor : module.Constructs shape.constructor shape.fields.length
  fields : ∀ field ∈ shape.fields, field.type.Held

structure Registry.Sound (registry : Registry) : Prop where
  functions : ∀ function entry, registry.function? function = some entry →
    entry.Sound registry.target
  objects : ∀ index shape, registry.object? index = some shape → shape.Sound registry.target
  virtuals : ∀ index shape, registry.virtual? index = some shape → shape.Sound registry.target
  enums : ∀ index shape, registry.enum? index = some shape →
    ∀ construct ∈ shape.constructs, construct.Sound registry.target
  globals : ∀ slot ∈ registry.target.globals, slot.type.Held

structure Scope.Sound (scope : Scope) : Prop where
  registry : scope.registry.Sound
  registers : ∀ type ∈ scope.registerTypes, type.Proper
  signature : scope.signature.ret.Proper

end BytecodeLowering
