import BytecodeLowering.Lower.Registry

/-!
# Mapping types

The target type of a source type.  A built-in kind has its own target type, a
declared kind the declaration registered for it, and a wrapper is unfolded on
demand.  The type table may be cyclic, so the unfolding is bounded.
-/

namespace BytecodeLowering

namespace TypeMapping

/-- The nesting that is still mapped: a wrapper costs one level and a function
type two. -/
def maxDepth : Nat := 64

def declared (registry : Registry) (index : TypeIndex) : Except LoweringError TypeId :=
  match registry.declaration? index with
  | some declaration => .ok declaration.decl
  | none => .error (.unresolvedType index "type has no declaration")

def tooDeep (index : TypeIndex) : Except LoweringError TargetType :=
  .error (.unresolvedType index "type nesting too deep")

def signatureWith (mapType : TypeIndex → Except LoweringError TargetType)
    (signature : FunctionType) : Except LoweringError Signature := do
  let params ← signature.args.mapM mapType
  let ret ← mapType signature.ret
  return { params, ret }

def mapWithin (image : Image) (registry : Registry) :
    (levels : Nat) → TypeIndex → Except LoweringError TargetType
  | 0, index => tooDeep index
  | levels + 1, index =>
      match image.type? index with
      | none => .error (.unresolvedType index "index outside the type table")
      | some .void => .ok .void
      | some .u8 => .ok .u8
      | some .u16 => .ok .u16
      | some .i32 => .ok .i32
      | some .i64 => .ok .i64
      | some .f32 | some .f64 => .ok .f64
      | some .bool => .ok .bool
      | some .bytes => .ok .bytes
      | some .dyn | some .dynObj => .ok .dynamic
      | some .array => .ok .array
      | some .type => .ok .typeValue
      | some (.func signature) | some (.method signature) =>
          match levels with
          | 0 => TargetType.ofSignature <$> signatureWith tooDeep signature
          | levels + 1 =>
              TargetType.ofSignature <$> signatureWith (mapWithin image registry levels) signature
      | some (.obj _) | some (.struct _) => .object <$> declared registry index
      | some (.virtual _) => .virtual <$> declared registry index
      | some (.enum _) => .enum <$> declared registry index
      | some (.abstract _) => .abstract <$> declared registry index
      | some (.ref inner) => .ref <$> mapWithin image registry levels inner
      | some (.null inner) => .nullable <$> mapWithin image registry levels inner
      | some (.packed inner) => mapWithin image registry levels inner

end TypeMapping

namespace Registry

def mapType (registry : Registry) (image : Image) (index : TypeIndex) :
    Except LoweringError TargetType :=
  TypeMapping.mapWithin image registry (TypeMapping.maxDepth + 1) index

def signatureOf (registry : Registry) (image : Image) (index : TypeIndex) :
    Except LoweringError Signature :=
  match image.signature? index with
  | some signature =>
      TypeMapping.signatureWith
        (TypeMapping.mapWithin image registry TypeMapping.maxDepth) signature
  | none => .error (.unresolvedType index "not a function type")

/-- The signature of a method slot: the receiver is left out. -/
def slotSignature (registry : Registry) (image : Image) (index : TypeIndex) :
    Except LoweringError Signature := do
  let signature ← registry.signatureOf image index
  return { signature with params := signature.params.tail }

end Registry

def Lowering.query (f : Registry → Except LoweringError α) : Lowering α := do
  MonadExcept.ofExcept (f (← get))

end BytecodeLowering
