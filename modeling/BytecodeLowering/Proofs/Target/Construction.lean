import BytecodeLowering.Target.Module

/-!
# Running constructors on one instance

A constructor loads its instance, binds delegates to it, stores them in fields
and calls the constructor of its base on the same instance; any other code is
stuck.  The nesting of the calls is bounded.
-/

namespace BytecodeLowering

/-- Values on the stack of a constructor and in the fields of its instance. -/
inductive BuiltValue where
  | self
  /-- A delegate over a method, bound to the instance. -/
  | bound (method : MethodId)
  | unbound (method : MethodId)
  deriving DecidableEq, Repr

abbrev BuiltFields := FieldRef → Option BuiltValue

def BuiltFields.store (fields : BuiltFields) (field : FieldRef) (value : BuiltValue) :
    BuiltFields :=
  fun other => if other = field then some value else fields other

/-- One instruction, when `call` runs the constructor of a base. -/
def Instr.build? (call : MethodId → BuiltFields → Option BuiltFields) :
    Instr → List BuiltValue → BuiltFields → Option (List BuiltValue × BuiltFields)
  | .ldArg number, stack, fields => if number = 0 then some (.self :: stack, fields) else none
  | .newDelegate method true, .self :: stack, fields => some (.bound method :: stack, fields)
  | .newDelegate method false, stack, fields => some (.unbound method :: stack, fields)
  | .stFld field, value :: .self :: stack, fields => some (stack, fields.store field value)
  | .call (.method id), .self :: stack, fields => (call id fields).map (stack, ·)
  | _, _, _ => none

/-- Runs code up to its return, which leaves nothing on the stack. -/
def buildWith (call : MethodId → BuiltFields → Option BuiltFields) :
    List Instr → List BuiltValue → BuiltFields → Option BuiltFields
  | [], _, _ => none
  | .ret :: _, stack, fields => if stack.isEmpty then some fields else none
  | instr :: code, stack, fields =>
      match instr.build? call stack fields with
      | some (stack, fields) => buildWith call code stack fields
      | none => none

def TargetModule.construct (module : TargetModule) :
    (depth : Nat) → MethodId → BuiltFields → Option BuiltFields
  | 0, _, _ => none
  | depth + 1, id, fields =>
      match module.method? id with
      | some { kind := .constructor, body, .. } => buildWith (module.construct depth) body [] fields
      | _ => none

section Building

variable {call : MethodId → BuiltFields → Option BuiltFields} {fields : BuiltFields}

theorem BuiltFields.store_self (field : FieldRef) (value : BuiltValue) :
    fields.store field value field = some value := if_pos rfl

theorem BuiltFields.store_other {field other : FieldRef} (value : BuiltValue)
    (h : other ≠ field) : fields.store field value other = fields other := if_neg h

theorem buildWith_bind (method : MethodId) (field : FieldRef) (code : List Instr) :
    buildWith call
        ([Instr.ldArg 0, .ldArg 0, .newDelegate method true, .stFld field] ++ code) [] fields
      = buildWith call code [] (fields.store field (.bound method)) := rfl

theorem buildWith_base {constructor : MethodId} {after : BuiltFields} (code : List Instr)
    (h : call constructor fields = some after) :
    buildWith call ([Instr.ldArg 0, .call (.method constructor)] ++ code) [] fields
      = buildWith call code [] after := by
  simp [buildWith, Instr.build?, h]

end Building

theorem TargetModule.construct_of_body {module : TargetModule} {constructor : MethodId}
    {body : List Instr} {fields : BuiltFields} (depth : Nat)
    (hkind : (module.method? constructor).map (·.kind) = some .constructor)
    (hbody : (module.method? constructor).map (·.body) = some body) :
    module.construct (depth + 1) constructor fields
      = buildWith (module.construct depth) body [] fields := by
  obtain ⟨method, hmethod, hmethodKind⟩ := Option.map_eq_some_iff.mp hkind
  rw [hmethod, Option.map_some] at hbody
  cases hbody
  rw [construct, hmethod]
  cases method
  cases hmethodKind
  rfl

end BytecodeLowering
