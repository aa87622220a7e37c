import BytecodeLowering.Target.Module

/-!
# Closed modules

Every declaration of a closed module carries its own position, and every number
by which a declaration or an instruction names a type, a field, a global, a
method, an argument or a local is the number of one that exists.  The
declarations alone are called framed; the code of the methods refers to them and
stays valid while a module grows.
-/

namespace BytecodeLowering

/-! ## Types -/

namespace TargetType

mutual

def ids : TargetType → List TypeId
  | .builtin _ => []
  | .declared _ id => [id]
  | .delegate params ret => idsOf params ++ ids ret
  | .ref inner => ids inner
  | .nullable inner => ids inner

def idsOf : List TargetType → List TypeId
  | [] => []
  | type :: types => ids type ++ idsOf types

end

def Within (count : Nat) (type : TargetType) : Prop := ∀ id ∈ type.ids, id < count

instance (count : Nat) (type : TargetType) : Decidable (type.Within count) :=
  inferInstanceAs (Decidable (∀ id ∈ type.ids, id < count))

theorem mem_idsOf {types : List TargetType} {id : TypeId} :
    id ∈ idsOf types ↔ ∃ type ∈ types, id ∈ type.ids := by
  induction types with
  | nil => simp [idsOf]
  | cons type types ih => simp [idsOf, ih]

section Within

variable {count : Nat}

@[simp]
theorem within_builtin (type : Builtin) : Within count (.builtin type) := by
  simp [Within, ids]

@[simp]
theorem within_declared {kind : Nominal} {id : TypeId} :
    Within count (.declared kind id) ↔ id < count := by
  simp [Within, ids]

@[simp]
theorem within_ref {inner : TargetType} : Within count (.ref inner) ↔ inner.Within count := by
  simp [Within, ids]

@[simp]
theorem within_nullable {inner : TargetType} :
    Within count (.nullable inner) ↔ inner.Within count := by
  simp [Within, ids]

@[simp]
theorem within_delegate {params : List TargetType} {ret : TargetType} :
    Within count (.delegate params ret)
      ↔ (∀ param ∈ params, param.Within count) ∧ ret.Within count := by
  simp only [Within, ids, List.mem_append, mem_idsOf, or_imp, forall_and]
  exact and_congr_left' ⟨fun h param hparam id hid => h id ⟨param, hparam, hid⟩,
    fun h id ⟨param, hparam, hid⟩ => h param hparam id hid⟩

theorem Within.mono {more : Nat} {type : TargetType} (h : type.Within count)
    (hmore : count ≤ more) : type.Within more :=
  fun id hid => Nat.lt_of_lt_of_le (h id hid) hmore

theorem within_of_isValue {type : TargetType} (h : type.isValue = true) : type.Within count := by
  unfold isValue at h
  split at h
  all_goals first | exact within_builtin _ | cases h

end Within

end TargetType

structure Signature.Within (count : Nat) (signature : Signature) : Prop where
  params : ∀ param ∈ signature.params, param.Within count
  ret : signature.ret.Within count

theorem Signature.Within.mono {count more : Nat} {signature : Signature}
    (h : signature.Within count) (hmore : count ≤ more) : signature.Within more :=
  ⟨fun param hparam => (h.params param hparam).mono hmore, h.ret.mono hmore⟩

theorem TargetType.within_ofSignature {count : Nat} {signature : Signature} :
    Within count (.ofSignature signature) ↔ signature.Within count := by
  rw [within_delegate]
  exact ⟨fun h => ⟨h.1, h.2⟩, fun h => ⟨h.params, h.ret⟩⟩

theorem TargetType.eq_ofSignature {type : TargetType} {signature : Signature}
    (h : type.signature? = some signature) : type = .ofSignature signature := by
  unfold signature? at h
  split at h
  · cases h
    rfl
  · cases h

def RuntimeMember.types : RuntimeMember → List TargetType
  | .refBoxNew inner | .refBoxGet inner | .refBoxSet inner | .nullableNew inner
  | .nullableValue inner => [inner]
  | _ => []

/-! ## Declarations -/

structure TypeDecl.Framed (types methods : Nat) (type : TypeDecl) : Prop where
  base : ∀ base, type.base = some base → base < types
  fields : ∀ field ∈ type.fields, field.type.Within types
  constructor : ∀ id, type.constructor = some id → id < methods

structure MethodDecl.Framed (types : Nat) (method : MethodDecl) : Prop where
  owner : ∀ owner, method.owner = some owner → owner < types
  signature : method.signature.Within types
  locals : ∀ type ∈ method.locals, type.Within types

/-- Declarations carry their positions and name declarations that exist. -/
structure TargetModule.Framed (module : TargetModule) : Prop where
  typeIds : ∀ id type, module.type? id = some type → type.id = id
  methodIds : ∀ id method, module.method? id = some method → method.id = id
  globalIds : ∀ (id : GlobalId) slot, module.globals[id]? = some slot → slot.id = id
  types : ∀ type ∈ module.types, type.Framed module.types.length module.methods.length
  methods : ∀ method ∈ module.methods, method.Framed module.types.length
  globals : ∀ slot ∈ module.globals, slot.type.Within module.types.length
  entrypoint : ∀ id, module.entrypoint = some id → id < module.methods.length
  initializer : ∀ id, module.initializer = some id → id < module.methods.length

/-! ## Code -/

/-- A constructor and its class, which know of each other. -/
def TargetModule.Links (module : TargetModule) (decl : TypeId) (id : MethodId) : Prop :=
  (module.method? id).map (·.kind) = some .constructor ∧
    (module.method? id).bind (·.owner) = some decl ∧
    (module.type? decl).bind (·.constructor) = some id

/-- What an instruction names exists, in a method with so many arguments and
locals. -/
def Instr.Refers (module : TargetModule) (arguments locals : Nat) : Instr → Prop
  | .ldArg number | .stArg number => number.toNat < arguments
  | .ldLoc number | .stLoc number => number.toNat < locals
  | .ldFld field | .stFld field => (module.field? field).isSome
  | .ldSFld global | .stSFld global => global < module.globals.length
  | .call (.method id) | .newDelegate id _ => id < module.methods.length
  | .newObj (.method id) => ∃ decl, module.Links decl id
  | .call (.runtime member) | .newObj (.runtime member) =>
      ∀ type ∈ member.types, type.Within module.types.length
  | .invokeDelegate signature => signature.Within module.types.length
  | .ldToken type | .box type | .unboxAny type | .castClass type | .isInst type | .newArr type
  | .ldElem type | .stElem type | .beginCatch type => type.Within module.types.length
  | _ => True

structure MethodDecl.Coded (module : TargetModule) (method : MethodDecl) : Prop where
  body : ∀ instr ∈ method.body,
    instr.Refers module (method.signature.params.length + method.argumentOffset)
      method.locals.length
  /-- A constructor calls no method but the constructor of the base of its class. -/
  base : method.kind = .constructor → ∀ id, .call (.method id) ∈ method.body →
    ∃ decl base, method.owner = some decl ∧ (module.type? decl).bind (·.base) = some base ∧
      module.Links base id

structure TargetModule.Closed (module : TargetModule) : Prop extends module.Framed where
  code : ∀ method ∈ module.methods, method.Coded module

/-! ## Building declarations -/

theorem TypeDecl.Framed.mono {types methods moreTypes moreMethods : Nat} {type : TypeDecl}
    (h : type.Framed types methods) (htypes : types ≤ moreTypes)
    (hmethods : methods ≤ moreMethods) : type.Framed moreTypes moreMethods where
  base base hbase := Nat.lt_of_lt_of_le (h.base base hbase) htypes
  fields field hfield := (h.fields field hfield).mono htypes
  constructor id hid := Nat.lt_of_lt_of_le (h.constructor id hid) hmethods

theorem MethodDecl.Framed.mono {types more : Nat} {method : MethodDecl}
    (h : method.Framed types) (hmore : types ≤ more) : method.Framed more where
  owner owner howner := Nat.lt_of_lt_of_le (h.owner owner howner) hmore
  signature := h.signature.mono hmore
  locals type htype := (h.locals type htype).mono hmore

/-! ## Growing modules -/

/-- A module goes on to another with the same classes, the same methods and
more, and no fewer globals. -/
structure TargetModule.Grows (before after : TargetModule) : Prop where
  types : after.types = before.types
  methods : ∀ id method, before.method? id = some method → ∃ method',
    after.method? id = some method' ∧ method'.kind = method.kind ∧
      ∀ decl, method.owner = some decl → method'.owner = some decl
  globals : before.globals.length ≤ after.globals.length

namespace TargetModule.Grows

variable {before after : TargetModule} (h : before.Grows after)

include h

theorem type? (id : TypeId) : after.type? id = before.type? id := by
  rw [TargetModule.type?, h.types]
  rfl

theorem field? (field : FieldRef) : after.field? field = before.field? field := by
  rw [TargetModule.field?, h.type?]
  rfl

theorem method_lt {id : MethodId} (hid : id < before.methods.length) :
    id < after.methods.length := by
  obtain ⟨method, hmethod, -⟩ := h.methods id _ (List.getElem?_eq_getElem hid)
  exact (List.getElem?_eq_some_iff.mp hmethod).1

theorem links {decl : TypeId} {id : MethodId} (hlinks : before.Links decl id) :
    after.Links decl id := by
  obtain ⟨hkind, howner, hclass⟩ := hlinks
  obtain ⟨method, hmethod, hkind⟩ := Option.map_eq_some_iff.mp hkind
  obtain ⟨method', hmethod', hsame, hkept⟩ := h.methods id method hmethod
  rw [hmethod, Option.bind_some] at howner
  refine ⟨?_, ?_, by rw [h.type?, hclass]⟩
  · rw [hmethod', Option.map_some, hsame, hkind]
  · rw [hmethod', Option.bind_some, hkept decl howner]

end TargetModule.Grows

theorem Instr.Refers.mono {module : TargetModule} {arguments locals more : Nat} {instr : Instr}
    (h : instr.Refers module arguments locals) (hmore : locals ≤ more) :
    instr.Refers module arguments more := by
  cases instr with
  | ldLoc number | stLoc number => exact Nat.lt_of_lt_of_le h hmore
  | call target | newObj target => cases target <;> exact h
  | _ => exact h

theorem Instr.Refers.grows {before after : TargetModule} {arguments locals : Nat} {instr : Instr}
    (h : instr.Refers before arguments locals) (hgrows : before.Grows after) :
    instr.Refers after arguments locals := by
  cases instr with
  | ldFld field | stFld field =>
      rw [Refers, hgrows.field?]
      exact h
  | ldSFld global | stSFld global => exact Nat.lt_of_lt_of_le h hgrows.globals
  | newDelegate id bound => exact hgrows.method_lt h
  | call target =>
      cases target with
      | method id => exact hgrows.method_lt h
      | runtime member =>
          rw [Refers, hgrows.types]
          exact h
  | newObj target =>
      cases target with
      | method id =>
          obtain ⟨decl, hlinks⟩ := h
          exact ⟨decl, hgrows.links hlinks⟩
      | runtime member =>
          rw [Refers, hgrows.types]
          exact h
  | ldToken type | box type | unboxAny type | castClass type | isInst type | newArr type
  | ldElem type | stElem type | beginCatch type | invokeDelegate signature =>
      rw [Refers, hgrows.types]
      exact h
  | _ => exact h

theorem MethodDecl.Coded.grows {before after : TargetModule} {method : MethodDecl}
    (h : method.Coded before) (hgrows : before.Grows after) : method.Coded after := by
  refine ⟨fun instr hinstr => (h.body instr hinstr).grows hgrows, ?_⟩
  intro hkind id hid
  obtain ⟨decl, base, howner, hbase, hlinks⟩ := h.base hkind id hid
  exact ⟨decl, base, howner, by rw [hgrows.type?, hbase], hgrows.links hlinks⟩

end BytecodeLowering
