import BytecodeLowering.Proofs.Body.Names

/-!
# References of lowered functions

Every instruction of a source function is lowered to code that names only what
exists, and so is the whole function.
-/

namespace BytecodeLowering

namespace Emit

def FieldOrigin.Declared (target : TargetModule) : FieldOrigin → Prop
  | .field found type => target.Declares found type
  | .dynamic => True

section Instructions

variable {scope : Scope} (hscope : scope.Grounded)

include hscope

/-! ## Moves and constants -/

omit hscope in
theorem names_fromPool (pool : List α) (name : String) (index : Int) :
    Names scope (fromPool pool name index) :=
  (names_orUnsupported _ _).mono fun _ _ => trivial

theorem names_move (target source : Int) : Names scope (move target source) :=
  (names_registerType hscope target).bind fun _ htype =>
    (names_loadAs hscope source htype).bind fun _ _ => names_store target

theorem names_intConstant (target index : Int) : Names scope (intConstant target index) := by
  refine Names.read.bind fun other _ => (names_fromPool _ _ _).bind fun value _ => ?_
  refine (names_registerType hscope target).bind fun type _ => Names.ite (fun _ => ?_) fun _ => ?_
  · exact .emit_bind (fun _ _ => trivial) (names_store target)
  · exact .emit_bind (fun _ _ => trivial)
      (names_storeFrom hscope target (TargetType.within_builtin _))

theorem names_floatConstant (target index : Int) : Names scope (floatConstant target index) := by
  refine Names.read.bind fun other _ => (names_fromPool _ _ _).bind fun value _ => ?_
  exact .emit_bind (fun _ _ => trivial)
    (names_storeFrom hscope target (TargetType.within_builtin _))

theorem names_boolConstant (target value : Int) : Names scope (boolConstant target value) :=
  .emit_bind (fun _ _ => trivial) (names_storeFrom hscope target (TargetType.within_builtin _))

theorem names_stringConstant (target index : Int) :
    Names scope (stringConstant target index) := by
  refine Names.read.bind fun other _ => (names_fromPool _ _ _).bind fun value _ => ?_
  refine .emit_bind (fun _ _ => trivial) ?_
  refine (names_registerType hscope target).bind fun type _ => Names.ite (fun _ => ?_) fun _ => ?_
  · exact (names_callRuntime .bytesFromString nofun).bind fun _ _ => names_store target
  · exact names_storeFrom hscope target (TargetType.within_builtin _)

theorem names_bytesConstant (target index : Int) : Names scope (bytesConstant target index) := by
  have hstore : Names scope (storeFrom target .bytes) :=
    names_storeFrom hscope target (TargetType.within_builtin _)
  refine Names.read.bind fun other _ => (names_orUnsupported _ _).bind fun position _ => ?_
  refine Names.ite (fun _ => ?_) fun _ => ?_
  · refine (names_orUnsupported _ _).bind fun blob _ => .emit_bind (fun _ _ => trivial) ?_
    exact (names_callRuntime .bytesFromRaw nofun).bind fun _ _ => hstore
  · refine (names_fromPool _ _ _).bind fun text _ => .emit_bind (fun _ _ => trivial) ?_
    exact (names_callRuntime .bytesFromString nofun).bind fun _ _ => hstore

omit hscope in
theorem names_nullConstant (target : Int) : Names scope (nullConstant target) :=
  .emit_bind (fun _ _ => trivial) (names_store target)

/-! ## Arithmetic -/

omit hscope in
theorem names_wrap (type : TargetType) : Names scope (wrap type) := by
  unfold wrap
  split
  · exact Names.emit fun _ _ => trivial
  · exact Names.emit fun _ _ => trivial
  · exact Names.pure trivial

theorem names_arithmeticType (target : Int) :
    Names scope (arithmeticType target)
      (TargetType.Within scope.registry.target.types.length) :=
  (names_registerType hscope target).bind fun _ htype =>
    Names.ite (fun _ => Names.pure htype) fun _ => names_unsupported _

theorem names_negate (target source : Int) : Names scope (negate target source) := by
  refine (names_arithmeticType hscope target).bind fun type htype => ?_
  refine (names_loadAs hscope source htype).bind fun _ _ => .emit_bind (fun _ _ => trivial) ?_
  exact (names_wrap type).bind fun _ _ => names_store target

theorem names_complement (target source : Int) : Names scope (complement target source) := by
  refine (names_arithmeticType hscope target).bind fun type htype => ?_
  refine (names_loadAs hscope source htype).bind fun _ _ => Names.ite (fun _ => ?_) fun _ => ?_
  · refine .emit_bind (fun _ _ => trivial) (.emit_bind (fun _ _ => trivial) ?_)
    exact names_store target
  · refine Names.ite (fun _ => ?_) fun _ => ?_
    · exact Names.fails fun _ => rfl
    · refine .emit_bind (fun _ _ => trivial) ?_
      exact (names_wrap type).bind fun _ _ => names_store target

theorem names_stepRegister (target : Int) (op : BinaryOp) :
    Names scope (stepRegister target op) := by
  refine (names_arithmeticType hscope target).bind fun type _ => ?_
  refine (names_load hscope target).bind fun _ _ => .emit_bind ?_ ?_
  · intro _ _
    unfold one
    split <;> trivial
  · refine .emit_bind (fun _ _ => trivial) ?_
    exact (names_wrap type).bind fun _ _ => names_store target

theorem names_arithmetic (opcode : Opcode) (target left right : Int) :
    Names scope (arithmetic opcode target left right) := by
  refine (names_arithmeticType hscope target).bind fun type htype => ?_
  refine (names_orUnsupported _ _).bind fun op _ => ?_
  refine (names_loadAs hscope left htype).bind fun _ _ => ?_
  refine (names_loadAs hscope right ?_).bind fun _ _ => .emit_bind (fun _ _ => trivial) ?_
  · split
    · exact TargetType.within_builtin _
    · exact htype
  · exact (names_wrap type).bind fun _ _ => names_store target

/-! ## Calls -/

theorem names_callee (function : Int) :
    Names scope (callee function) fun entry =>
      entry.method < scope.registry.target.methods.length ∧
        entry.signature.Within scope.registry.target.types.length := by
  refine Names.read.bind ?_
  rintro _ rfl
  split
  · rename_i entry hentry
    obtain ⟨index, -, hentry⟩ := Option.bind_eq_some_iff.mp hentry
    exact Names.pure ⟨hscope.registry.method_lt hentry,
      (hscope.registry.functions index entry hentry).2.1⟩
  · exact Names.fails fun _ => rfl

theorem names_pushArguments (args : List Int) {params : List TargetType}
    (hparams : ∀ param ∈ params, param.Within scope.registry.target.types.length) :
    Names scope (pushArguments args params) := by
  refine Names.ite (fun _ => Names.forM ?_) fun _ => names_unsupported _
  rintro ⟨register, type⟩ hitem
  exact names_loadAs hscope register (hparams type (List.of_mem_zip hitem).2)

theorem names_storeResult (target : Int) {ret : TargetType}
    (hret : ret.Within scope.registry.target.types.length) :
    Names scope (storeResult target ret) :=
  Names.ite (fun _ => names_storeFrom hscope target hret) fun _ => Names.pure trivial

theorem names_directCall (target function : Int) (args : List Int) :
    Names scope (directCall target function args) := by
  refine (names_callee hscope function).bind ?_
  rintro entry ⟨hmethod, hsignature⟩
  refine (names_pushArguments hscope args hsignature.params).bind fun _ _ => ?_
  exact .emit_bind (fun _ _ => hmethod) (names_storeResult hscope target hsignature.ret)

theorem names_receiverSlot (receiver slot : Int) :
    Names scope (receiverSlot receiver slot) fun found =>
      scope.registry.target.Declares found.1 (.ofSignature found.2) := by
  refine Names.read.bind ?_
  rintro _ rfl
  refine (names_sourceTypeIndex receiver).bind fun index _ => ?_
  refine (names_sourceType receiver).bind fun source _ => ?_
  split
  case h_1 | h_2 =>
    refine (names_orUnsupported _ _).bind fun shape hshape => ?_
    obtain ⟨decl, -, -, hplaced⟩ := hscope.registry.object hshape
    split
    · rename_i found hfound
      obtain ⟨place, -, hplace⟩ := Option.bind_eq_some_iff.mp hfound
      exact Names.pure (hplaced.2 found (List.mem_of_getElem? hplace))
    · exact names_throwAt _
  case h_3 =>
    refine (names_orUnsupported _ _).bind fun shape hshape => ?_
    obtain ⟨decl, -, -, hlists⟩ := hscope.registry.virtual hshape
    split
    · rename_i found hfound
      obtain ⟨place, -, hplace⟩ := Option.bind_eq_some_iff.mp hfound
      refine (names_orUnsupported _ _).bind fun signature hsignature => Names.pure ?_
      rw [← TargetType.eq_ofSignature hsignature]
      exact (hlists found (List.mem_of_getElem? hplace)).2
    · exact names_throwAt _
  case h_4 => exact names_unsupported _

theorem names_methodCall (target receiver slot : Int) (args : List Int) :
    Names scope (methodCall target receiver slot args) := by
  refine (names_receiverSlot hscope receiver slot).bind ?_
  rintro ⟨field, signature⟩ hdeclares
  have hsignature := TargetType.within_ofSignature.mp
    (hscope.registry.closed.within_of_declares hdeclares)
  refine (names_load hscope receiver).bind fun _ _ => .emit_bind (fun _ _ => hdeclares.isSome) ?_
  refine (names_pushArguments hscope args hsignature.params).bind fun _ _ => ?_
  exact .emit_bind (fun _ _ => hsignature) (names_storeResult hscope target hsignature.ret)

theorem names_receiverCall (target slot : Int) (args : List Int) :
    Names scope (receiverCall target slot args) := by
  cases args with
  | nil => exact names_unsupported _
  | cons receiver args => exact names_methodCall hscope target receiver slot args

theorem names_storeArgument (item : Int × Nat) : Names scope (storeArgument item) := by
  refine .emit_bind (fun _ _ => trivial) (.emit_bind (fun _ _ => trivial) ?_)
  refine (names_loadAs hscope item.1 (TargetType.within_builtin _)).bind fun _ _ => ?_
  exact Names.emit fun _ _ => TargetType.within_builtin _

theorem names_dynamicCall (target closure : Int) (args : List Int) :
    Names scope (dynamicCall target closure args) := by
  refine (names_load hscope closure).bind fun _ _ => .emit_bind (fun _ _ => trivial) ?_
  refine .emit_bind (fun _ _ => TargetType.within_builtin _) ?_
  refine Names.bind (Names.forM fun item _ => names_storeArgument hscope item) fun _ _ => ?_
  refine (names_callRuntime .dynamicInvoke nofun).bind fun _ _ => names_bridge.bind fun _ _ => ?_
  exact names_storeResult hscope target (TargetType.within_builtin _)

theorem names_delegateCall (target closure : Int) (args : List Int) {signature : Signature}
    (hsignature : signature.Within scope.registry.target.types.length) :
    Names scope (delegateCall target closure args signature) := by
  refine (names_load hscope closure).bind fun _ _ => ?_
  refine (names_pushArguments hscope args hsignature.params).bind fun _ _ => ?_
  exact .emit_bind (fun _ _ => hsignature) (names_storeResult hscope target hsignature.ret)

theorem names_closureCall (target closure : Int) (args : List Int) :
    Names scope (closureCall target closure args) := by
  refine (names_registerType hscope closure).bind fun type htype => ?_
  split
  · exact names_dynamicCall hscope target closure args
  · exact names_delegateCall hscope target closure args
      (TargetType.within_ofSignature.mp htype)
  · exact names_unsupported _

theorem names_staticClosure (target function : Int) :
    Names scope (staticClosure target function) := by
  refine (names_callee hscope function).bind ?_
  rintro entry ⟨hmethod, hsignature⟩
  exact .emit_bind (fun _ _ => hmethod)
    (names_storeResult hscope target (TargetType.within_ofSignature.mpr hsignature))

theorem names_instanceClosure (target function receiver : Int) :
    Names scope (instanceClosure target function receiver) := by
  refine (names_callee hscope function).bind ?_
  rintro entry ⟨hmethod, hsignature⟩
  split
  · exact names_unsupported _
  · rename_i first others hparams
    have hparam := hsignature.params
    rw [hparams] at hparam
    refine (names_loadAs hscope receiver (hparam first List.mem_cons_self)).bind fun _ _ => ?_
    refine .emit_bind (fun _ _ => hmethod) (names_storeResult hscope target ?_)
    exact TargetType.within_delegate.mpr
      ⟨fun param hmem => hparam param (List.mem_cons_of_mem first hmem), hsignature.ret⟩

theorem names_virtualClosure (target receiver slot : Int) :
    Names scope (virtualClosure target receiver slot) := by
  refine (names_receiverSlot hscope receiver slot).bind ?_
  rintro ⟨field, signature⟩ hdeclares
  refine (names_load hscope receiver).bind fun _ _ => .emit_bind (fun _ _ => hdeclares.isSome) ?_
  exact names_storeResult hscope target (hscope.registry.closed.within_of_declares hdeclares)

/-! ## Fields and globals -/

theorem names_fieldOf (register field : Int) :
    Names scope (fieldOf register field) fun found =>
      scope.registry.target.Declares found.1 found.2 := by
  refine Names.read.bind ?_
  rintro _ rfl
  refine (names_sourceTypeIndex register).bind fun index _ => ?_
  refine (names_sourceType register).bind fun source _ => ?_
  split
  case h_1 | h_2 =>
    split
    · rename_i found hfound
      obtain ⟨shape, hshape, hfound⟩ := Option.bind_eq_some_iff.mp hfound
      obtain ⟨place, -, hplace⟩ := Option.bind_eq_some_iff.mp hfound
      obtain ⟨decl, -, -, hplaced⟩ := hscope.registry.object hshape
      exact Names.pure (hplaced.1 found (List.mem_of_getElem? hplace))
    · exact names_throwAt _
  case h_3 =>
    split
    · rename_i found hfound
      obtain ⟨shape, hshape, hfound⟩ := Option.bind_eq_some_iff.mp hfound
      obtain ⟨place, -, hplace⟩ := Option.bind_eq_some_iff.mp hfound
      obtain ⟨decl, -, -, hlists⟩ := hscope.registry.virtual hshape
      exact Names.pure (hlists found (List.mem_of_getElem? hplace)).2
    · exact names_throwAt _
  case h_4 => exact names_unsupported _

theorem names_getField (target register field : Int) :
    Names scope (getField target register field) := by
  refine (names_fieldOf hscope register field).bind ?_
  rintro ⟨found, type⟩ hdeclares
  refine (names_load hscope register).bind fun _ _ => .emit_bind (fun _ _ => hdeclares.isSome) ?_
  exact names_storeFrom hscope target (hscope.registry.closed.within_of_declares hdeclares)

theorem names_setField (register field source : Int) :
    Names scope (setField register field source) := by
  refine (names_fieldOf hscope register field).bind ?_
  rintro ⟨found, type⟩ hdeclares
  have htype := hscope.registry.closed.within_of_declares hdeclares
  refine (names_load hscope register).bind fun _ _ => ?_
  exact (names_loadAs hscope source htype).bind fun _ _ => Names.emit fun _ _ => hdeclares.isSome

omit hscope in
theorem names_fieldName (index : Int) : Names scope (fieldName index) :=
  Names.read.bind fun _ _ => (names_orUnsupported _ _).mono fun _ _ => trivial

theorem names_getDynamic (target register name : Int) :
    Names scope (getDynamic target register name) := by
  refine (names_fieldName name).bind fun text _ => ?_
  refine (names_loadAs hscope register (TargetType.within_builtin _)).bind fun _ _ => ?_
  refine .emit_bind (fun _ _ => trivial) ?_
  refine (names_callRuntime .dynamicGetField nofun).bind fun _ _ => ?_
  exact names_storeFrom hscope target (TargetType.within_builtin _)

theorem names_setDynamic (register name source : Int) :
    Names scope (setDynamic register name source) := by
  refine (names_fieldName name).bind fun text _ => ?_
  refine (names_loadAs hscope register (TargetType.within_builtin _)).bind fun _ _ => ?_
  refine .emit_bind (fun _ _ => trivial) ?_
  refine (names_loadAs hscope source (TargetType.within_builtin _)).bind fun _ _ => ?_
  exact names_callRuntime .dynamicSetField nofun

theorem names_globalOf (index : Int) :
    Names scope (globalOf index) fun found =>
      found.1 < scope.registry.target.globals.length ∧
        found.2.Within scope.registry.target.types.length := by
  refine Names.read.bind ?_
  rintro _ rfl
  refine (names_orUnsupported _ _).mono ?_
  rintro ⟨id, type⟩ hfound
  obtain ⟨place, -, hfound⟩ := Option.bind_eq_some_iff.mp hfound
  obtain ⟨slot, hslot, hpair⟩ := Option.map_eq_some_iff.mp hfound
  cases hpair
  exact ⟨(List.getElem?_eq_some_iff.mp hslot).1,
    hscope.registry.closed.globals slot (List.mem_of_getElem? hslot)⟩

theorem names_getGlobal (target index : Int) : Names scope (getGlobal target index) := by
  refine (names_globalOf hscope index).bind ?_
  rintro ⟨id, type⟩ ⟨hid, htype⟩
  exact .emit_bind (fun _ _ => hid) (names_storeFrom hscope target htype)

theorem names_setGlobal (index source : Int) : Names scope (setGlobal index source) := by
  refine (names_globalOf hscope index).bind ?_
  rintro ⟨id, type⟩ ⟨hid, htype⟩
  exact (names_loadAs hscope source htype).bind fun _ _ => Names.emit fun _ _ => hid

/-! ## Casts and records -/

theorem names_toFloat (target source : Int) (unsigned : Bool) :
    Names scope (toFloat target source unsigned) := by
  have hrest : Names scope (do
      emit (.conv .r8)
      storeFrom target .f64) :=
    .emit_bind (fun _ _ => trivial) (names_storeFrom hscope target (TargetType.within_builtin _))
  refine (names_load hscope source).bind fun type htype => Names.ite (fun _ => ?_) fun _ => ?_
  · exact names_storeFrom hscope target htype
  · refine Names.ite (fun _ => names_unsupported _) fun _ => Names.ite (fun _ => ?_) fun _ => hrest
    exact .emit_bind (fun _ _ => trivial) hrest

theorem names_toInt (target source : Int) : Names scope (toInt target source) := by
  refine (names_registerType hscope target).bind fun wanted hwanted => ?_
  refine (names_load hscope source).bind fun type htype => Names.ite (fun _ => ?_) fun _ => ?_
  · refine Names.ite (fun _ => ?_) fun _ => ?_
    all_goals
      exact .emit_bind (fun _ _ => trivial)
        (names_storeFrom hscope target (TargetType.within_builtin _))
  · exact (names_convert true htype hwanted).bind fun _ _ => names_store target

theorem names_cast (target source : Int) (checked : Bool) :
    Names scope (cast target source checked) := by
  refine (names_registerType hscope target).bind fun wanted hwanted => ?_
  refine (names_load hscope source).bind fun type htype => ?_
  exact (names_convert checked htype hwanted).bind fun _ _ => names_store target

theorem names_safeCast (target source : Int) : Names scope (safeCast target source) :=
  Names.read.bind fun _ _ => names_cast hscope target source _

theorem fieldOrigin?_declared {index : TypeIndex} {source : SourceType} {name : String}
    {origin : FieldOrigin} (h : fieldOrigin? scope.registry index source name = some origin) :
    origin.Declared scope.registry.target := by
  have hnamed {fields : List FlatField}
      (hfields : ∀ field ∈ fields, scope.registry.target.Declares field.field field.type)
      (hfound : (fields.find? (·.name == name)).map
        (fun found => FieldOrigin.field found.field found.type) = some origin) :
      origin.Declared scope.registry.target := by
    obtain ⟨field, hfield, rfl⟩ := Option.map_eq_some_iff.mp hfound
    exact hfields field (List.mem_of_find?_eq_some hfield)
  unfold fieldOrigin? at h
  split at h
  case h_1 | h_2 =>
    obtain ⟨shape, hshape, hfield⟩ := Option.bind_eq_some_iff.mp h
    obtain ⟨decl, -, -, hplaced⟩ := hscope.registry.object hshape
    exact hnamed hplaced.1 hfield
  case h_3 =>
    obtain ⟨shape, hshape, hfield⟩ := Option.bind_eq_some_iff.mp h
    obtain ⟨decl, -, -, hlists⟩ := hscope.registry.virtual hshape
    exact hnamed (fun field hmem => (hlists field hmem).2) hfield
  case h_4 =>
    cases h
    trivial

theorem names_pushOrigin (source : Int) (name : String) {wanted : TargetType}
    {origin : FieldOrigin} (horigin : origin.Declared scope.registry.target)
    (hwanted : wanted.Within scope.registry.target.types.length) :
    Names scope (pushOrigin source name wanted origin) := by
  cases origin with
  | field field type =>
      refine (names_load hscope source).bind fun _ _ => .emit_bind (fun _ _ => horigin.isSome) ?_
      exact names_convert true (hscope.registry.closed.within_of_declares horigin) hwanted
  | dynamic =>
      refine (names_loadAs hscope source (TargetType.within_builtin _)).bind fun _ _ => ?_
      refine .emit_bind (fun _ _ => trivial) ?_
      refine (names_callRuntime .dynamicGetField nofun).bind fun _ _ => ?_
      exact names_convert true (TargetType.within_builtin _) hwanted

theorem names_copyField (source : Int) {field : FlatField} {origin : FieldOrigin}
    (hfield : scope.registry.target.Declares field.field field.type)
    (horigin : origin.Declared scope.registry.target) :
    Names scope (copyField source (field, origin)) := by
  refine .emit_bind (fun _ _ => trivial) ?_
  refine (names_pushOrigin hscope source field.name horigin
    (hscope.registry.closed.within_of_declares hfield)).bind fun _ _ => ?_
  exact Names.emit fun _ _ => hfield.isSome

theorem names_toVirtual (target source : Int) : Names scope (toVirtual target source) := by
  refine Names.read.bind ?_
  rintro _ rfl
  refine (names_sourceTypeIndex target).bind fun index _ => ?_
  refine (names_orUnsupported _ _).bind fun shape hshape => ?_
  obtain ⟨decl, hdecl, hlinks, hlists⟩ := hscope.registry.virtual hshape
  refine (names_sourceTypeIndex source).bind fun sourceIndex _ => ?_
  refine (names_sourceType source).bind fun origin _ => ?_
  refine Names.ite (fun _ => names_unsupported _) fun _ => ?_
  refine .emit_bind (fun _ _ => ⟨decl, hlinks⟩) ?_
  refine Names.bind (Names.forM ?_) fun _ _ =>
    names_storeFrom hscope target (hscope.registry.class_within _ hdecl)
  rintro ⟨field, found⟩ hitem
  obtain ⟨entry, hentry, hfound⟩ := List.mem_filterMap.mp hitem
  obtain ⟨_, horigin, hpair⟩ := Option.map_eq_some_iff.mp hfound
  cases hpair
  exact names_copyField hscope source (hlists _ hentry).2 (fieldOrigin?_declared hscope horigin)

/-! ## Instances, byte strings, arrays and boxes -/

theorem names_construct (target : Int) {constructor : MethodId} {type : TargetType} {decl : TypeId}
    (hlinks : scope.registry.target.Links decl constructor)
    (htype : type.Within scope.registry.target.types.length) :
    Names scope (construct target constructor type) :=
  .emit_bind (fun _ _ => ⟨decl, hlinks⟩) (names_storeFrom hscope target htype)

theorem names_newInstance (target : Int) : Names scope (newInstance target) := by
  have hdynamic : Names scope (do
      emit .ldNull
      callRuntime .dynamicNew
      storeFrom target .dynamic) := by
    refine .emit_bind (fun _ _ => trivial) ?_
    refine (names_callRuntime .dynamicNew nofun).bind fun _ _ => ?_
    exact names_storeFrom hscope target (TargetType.within_builtin _)
  refine Names.read.bind ?_
  rintro _ rfl
  refine (names_sourceTypeIndex target).bind fun index _ => ?_
  refine (names_sourceType target).bind fun source _ => ?_
  split
  case h_1 | h_2 =>
    refine (names_orUnsupported _ _).bind fun shape hshape => ?_
    obtain ⟨decl, hdecl, hlinks, -⟩ := hscope.registry.object hshape
    exact names_construct hscope target hlinks (hscope.registry.class_within _ hdecl)
  case h_3 =>
    refine (names_orUnsupported _ _).bind fun shape hshape => ?_
    obtain ⟨decl, hdecl, hlinks, -⟩ := hscope.registry.virtual hshape
    exact names_construct hscope target hlinks (hscope.registry.class_within _ hdecl)
  case h_4 | h_5 => exact hdynamic
  case h_6 => exact names_unsupported _

omit hscope in
theorem names_memoryWidth (register : Int) : Names scope (memoryWidth register) := by
  refine (names_sourceType register).bind fun source _ => ?_
  split
  all_goals first | exact Names.pure trivial | exact names_unsupported _

omit hscope in
theorem within_stackType {count : Nat} (width : MemoryWidth) : width.stackType.Within count := by
  cases width <;> exact TargetType.within_builtin _

theorem names_getMemory (target bytes position : Int) (width : MemoryWidth) :
    Names scope (getMemory target bytes position width) := by
  refine (names_loadAs hscope bytes (TargetType.within_builtin _)).bind fun _ _ => ?_
  refine (names_loadAs hscope position (TargetType.within_builtin _)).bind fun _ _ => ?_
  refine (names_callRuntime (.bytesGet width) nofun).bind fun _ _ => ?_
  exact names_storeFrom hscope target (within_stackType width)

theorem names_setMemory (bytes position source : Int) (width : MemoryWidth) :
    Names scope (setMemory bytes position source width) := by
  refine (names_loadAs hscope bytes (TargetType.within_builtin _)).bind fun _ _ => ?_
  refine (names_loadAs hscope position (TargetType.within_builtin _)).bind fun _ _ => ?_
  refine (names_loadAs hscope source (within_stackType width)).bind fun _ _ => ?_
  exact names_callRuntime (.bytesSet width) nofun

theorem names_arraySize (target array : Int) : Names scope (arraySize target array) := by
  refine (names_loadAs hscope array (TargetType.within_builtin _)).bind fun _ _ => ?_
  refine (names_callRuntime .arraySize nofun).bind fun _ _ => ?_
  exact names_storeFrom hscope target (TargetType.within_builtin _)

theorem names_getElement (target array position : Int) :
    Names scope (getElement target array position) := by
  refine (names_loadAs hscope array (TargetType.within_builtin _)).bind fun _ _ => ?_
  refine (names_loadAs hscope position (TargetType.within_builtin _)).bind fun _ _ => ?_
  exact .emit_bind (fun _ _ => TargetType.within_builtin _)
    (names_storeFrom hscope target (TargetType.within_builtin _))

theorem names_setElement (array position source : Int) :
    Names scope (setElement array position source) := by
  refine (names_loadAs hscope array (TargetType.within_builtin _)).bind fun _ _ => ?_
  refine (names_loadAs hscope position (TargetType.within_builtin _)).bind fun _ _ => ?_
  refine (names_loadAs hscope source (TargetType.within_builtin _)).bind fun _ _ => ?_
  exact Names.emit fun _ _ => TargetType.within_builtin _

theorem names_typeToken (target type : Int) : Names scope (typeToken target type) := by
  refine Names.read.bind ?_
  rintro _ rfl
  refine (names_orUnsupported _ _).bind fun index _ => ?_
  refine (names_ofExcept _).bind fun mapped hmapped => ?_
  have hwithin : mapped.Within scope.registry.target.types.length :=
    Registry.within_of_mapType (fun _ _ => hscope.registry.decl_lt) hmapped
  exact .emit_bind (fun _ _ => hwithin)
    (names_storeFrom hscope target (TargetType.within_builtin _))

theorem names_typeOfValue (target source : Int) : Names scope (typeOfValue target source) := by
  refine (names_loadAs hscope source (TargetType.within_builtin _)).bind fun _ _ => ?_
  refine (names_callRuntime .typeOf nofun).bind fun _ _ => ?_
  exact names_storeFrom hscope target (TargetType.within_builtin _)

theorem names_kindOfType (target source : Int) : Names scope (kindOfType target source) := by
  refine (names_loadAs hscope source (TargetType.within_builtin _)).bind fun _ _ => ?_
  refine (names_callRuntime .typeKindOf nofun).bind fun _ _ => ?_
  exact names_storeFrom hscope target (TargetType.within_builtin _)

theorem names_boxed (register : Int) :
    Names scope (boxed register) (TargetType.Within scope.registry.target.types.length) := by
  refine (names_registerType hscope register).bind fun type htype => ?_
  split
  · exact Names.pure (TargetType.within_ref.mp htype)
  · exact names_unsupported _

omit hscope in
theorem names_callBox {member : RuntimeMember} {inner : TargetType}
    (hinner : inner.Within scope.registry.target.types.length) (hmember : member.types = [inner]) :
    Names scope (callRuntime member) := by
  refine names_callRuntime member fun type htype => ?_
  rw [hmember] at htype
  rwa [List.mem_singleton.mp htype]

theorem names_makeBox (target source : Int) : Names scope (makeBox target source) := by
  refine (names_load hscope source).bind fun inner hinner => ?_
  refine (names_callBox hinner rfl).bind fun _ _ => ?_
  exact names_storeFrom hscope target (TargetType.within_ref.mpr hinner)

theorem names_getBoxed (target box : Int) : Names scope (getBoxed target box) := by
  refine (names_boxed hscope box).bind fun inner hinner => ?_
  refine (names_load hscope box).bind fun _ _ => (names_callBox hinner rfl).bind fun _ _ => ?_
  exact names_storeFrom hscope target hinner

theorem names_setBoxed (box source : Int) : Names scope (setBoxed box source) := by
  refine (names_boxed hscope box).bind fun inner hinner => ?_
  refine (names_load hscope box).bind fun _ _ => ?_
  exact (names_loadAs hscope source hinner).bind fun _ _ => names_callBox hinner rfl

/-! ## Values of enum types -/

theorem names_enumOf (register : Int) :
    Names scope (enumOf register) fun found =>
      TargetType.Within scope.registry.target.types.length (.enum found.1) ∧
        (scope.registry.target.field? found.2.indexField).isSome ∧
        ∀ construct ∈ found.2.constructs,
          scope.registry.target.Links construct.decl construct.constructor ∧
            scope.registry.target.Lists construct.decl construct.fields := by
  refine Names.read.bind ?_
  rintro _ rfl
  refine (names_sourceTypeIndex register).bind fun index _ => ?_
  refine (names_orUnsupported _ _).bind fun shape hshape => ?_
  obtain ⟨decl, hdecl, hindex, hconstructs⟩ := hscope.registry.enum hshape
  exact Names.pure ⟨hscope.registry.class_within _ hdecl, hindex, hconstructs⟩

omit hscope in
theorem names_constructOf (shape : EnumShape) (construct : Int) :
    Names scope (constructOf shape construct) (· ∈ shape.constructs) := by
  refine (names_orUnsupported _ _).mono fun found hfound => ?_
  obtain ⟨place, -, hplace⟩ := Option.bind_eq_some_iff.mp hfound
  exact List.mem_of_getElem? hplace

theorem names_makeEnum (target construct : Int) (args : List Int) :
    Names scope (makeEnum target construct args) := by
  refine (names_enumOf hscope target).bind ?_
  rintro ⟨decl, shape⟩ ⟨hdecl, -, hconstructs⟩
  refine (names_constructOf shape construct).bind fun found hfound => ?_
  obtain ⟨hlinks, hlists⟩ := hconstructs found hfound
  refine Names.ite (fun _ => ?_) fun _ => names_unsupported _
  refine Names.bind (Names.forM ?_) fun _ _ => names_construct hscope target hlinks hdecl
  rintro ⟨register, field⟩ hitem
  exact names_loadAs hscope register (hscope.registry.closed.within_of_declares
    (hlists field (List.of_mem_zip hitem).2).2)

theorem names_allocateEnum (target construct : Int) :
    Names scope (allocateEnum target construct) := by
  refine (names_enumOf hscope target).bind ?_
  rintro ⟨decl, shape⟩ ⟨hdecl, -, hconstructs⟩
  refine (names_constructOf shape construct).bind fun found hfound => ?_
  refine Names.bind (Names.forM fun field _ => names_pushDefault field.type) fun _ _ => ?_
  exact names_construct hscope target (hconstructs found hfound).1 hdecl

theorem names_enumIndex (target source : Int) : Names scope (enumIndex target source) := by
  refine (names_enumOf hscope source).bind ?_
  rintro ⟨decl, shape⟩ ⟨-, hindex, -⟩
  refine (names_load hscope source).bind fun _ _ => .emit_bind (fun _ _ => hindex) ?_
  exact names_storeFrom hscope target (TargetType.within_builtin _)

theorem names_enumParameter (value construct field : Int) :
    Names scope (enumParameter value construct field) fun found =>
      scope.registry.target.Declares found.1.field found.1.type ∧
        found.2.Within scope.registry.target.types.length := by
  refine (names_enumOf hscope value).bind ?_
  rintro ⟨decl, shape⟩ ⟨-, -, hconstructs⟩
  refine (names_constructOf shape construct).bind fun chosen hchosen => ?_
  obtain ⟨hlinks, hlists⟩ := hconstructs chosen hchosen
  split
  · rename_i found hfound
    obtain ⟨place, -, hplace⟩ := Option.bind_eq_some_iff.mp hfound
    exact Names.pure ⟨(hlists found (List.mem_of_getElem? hplace)).2,
      TargetType.within_declared.mpr hlinks.type_lt⟩
  · exact names_throwAt _

theorem names_getEnumField (target value construct field : Int) :
    Names scope (getEnumField target value construct field) := by
  refine (names_enumParameter hscope value construct field).bind ?_
  rintro ⟨found, type⟩ ⟨hdeclares, htype⟩
  refine (names_load hscope value).bind fun _ _ => .emit_bind (fun _ _ => htype) ?_
  refine .emit_bind (fun _ _ => hdeclares.isSome) ?_
  exact names_storeFrom hscope target (hscope.registry.closed.within_of_declares hdeclares)

theorem names_setEnumField (value field source : Int) :
    Names scope (setEnumField value field source) := by
  refine (names_enumParameter hscope value 0 field).bind ?_
  rintro ⟨found, type⟩ ⟨hdeclares, htype⟩
  refine (names_load hscope value).bind fun _ _ => .emit_bind (fun _ _ => htype) ?_
  refine (names_loadAs hscope source
    (hscope.registry.closed.within_of_declares hdeclares)).bind fun _ _ => ?_
  exact Names.emit fun _ _ => hdeclares.isSome

/-! ## Branches -/

omit hscope in
theorem names_branchLabel (offset : Int) : Names scope (branchLabel offset) := by
  refine Names.get.bind fun progress _ => ?_
  dsimp only
  split
  · exact Names.read.bind fun _ _ => Names.ite (fun _ => Names.pure trivial) fun _ => names_throwAt _
  · exact names_throwAt _

omit hscope in
theorem names_jump (offset : Int) : Names scope (jump offset) := by
  refine (names_branchLabel offset).bind fun target _ => Names.get.bind fun progress _ => ?_
  refine Names.emit fun _ _ => ?_
  split <;> trivial

omit hscope in
theorem names_branch (offset : Int) {make : Label → Instr} (hmake : ∀ label, scope.Permits (make label)) :
    Names scope (branch offset make) := by
  refine (names_branchLabel offset).bind fun target _ => Names.get.bind fun progress _ => ?_
  refine Names.ite (fun _ => ?_) fun _ => Names.emit (hmake target)
  refine Names.newLabel.bind fun taken _ => Names.newLabel.bind fun skip _ => ?_
  refine .emit_bind (hmake taken) (.emit_bind (fun _ _ => trivial) ?_)
  exact Names.mark.bind fun _ _ => .emit_bind (fun _ _ => trivial) Names.mark

theorem names_truthBranch (register offset : Int) {make : Label → Instr}
    (hmake : ∀ label, scope.Permits (make label)) :
    Names scope (truthBranch register offset make) :=
  (names_load hscope register).bind fun _ _ => names_branch offset hmake

theorem names_nullBranch (register offset : Int) : Names scope (nullBranch register offset) :=
  (names_registerType hscope register).bind fun _ _ =>
    Names.ite (fun _ => names_truthBranch hscope register offset fun _ _ _ => trivial)
      fun _ => Names.pure trivial

theorem names_notNullBranch (register offset : Int) :
    Names scope (notNullBranch register offset) :=
  (names_registerType hscope register).bind fun _ _ =>
    Names.ite (fun _ => names_jump offset)
      fun _ => names_truthBranch hscope register offset fun _ _ _ => trivial

omit hscope in
theorem within_comparedAs {count : Nat} {a b : TargetType} (ha : a.Within count)
    (hb : b.Within count) : (a.comparedAs b).Within count := by
  have hjoin : (a.join b).Within count := by
    unfold TargetType.join
    split
    · exact TargetType.within_builtin _
    · split <;> exact TargetType.within_builtin _
  unfold TargetType.comparedAs
  repeat' split
  all_goals first | exact hjoin | exact ha | exact hb | exact TargetType.within_builtin _

theorem names_compareBranch (comparison : Comparison) (left right offset : Int) :
    Names scope (compareBranch comparison left right offset) := by
  refine (names_registerType hscope left).bind fun a ha => ?_
  refine (names_registerType hscope right).bind fun b hb => ?_
  refine Names.ite (fun _ => names_unsupported _) fun _ => ?_
  refine (names_loadAs hscope left (within_comparedAs ha hb)).bind fun _ _ => ?_
  refine (names_loadAs hscope right (within_comparedAs ha hb)).bind fun _ _ => ?_
  exact names_branch offset fun _ _ _ => trivial

omit hscope in
theorem names_switchEntry (offset : Int) : Names scope (switchEntry offset) := by
  refine (names_branchLabel offset).bind fun target _ => Names.get.bind fun progress _ => ?_
  refine Names.ite (fun _ => ?_) fun _ => Names.pure trivial
  exact Names.newLabel.bind fun _ _ => Names.pure trivial

theorem names_switchOn (register : Int) (offsets : List Int) :
    Names scope (switchOn register offsets) := by
  refine (names_loadAs hscope register (TargetType.within_builtin _)).bind fun _ _ => ?_
  refine Names.bind (Names.mapM fun offset _ => names_switchEntry offset) fun entries _ => ?_
  refine .emit_bind (fun _ _ => trivial) (Names.ite (fun _ => ?_) fun _ => Names.pure trivial)
  refine Names.newLabel.bind fun skip _ => .emit_bind (fun _ _ => trivial) ?_
  refine Names.bind (Names.forM fun exit _ => ?_) fun _ _ => Names.mark
  exact Names.mark.bind fun _ _ => Names.emit fun _ _ => trivial

/-! ## Traps and returns -/

theorem names_throwValue (register : Int) : Names scope (throwValue register) := by
  refine (names_loadAs hscope register (TargetType.within_builtin _)).bind fun _ _ => ?_
  refine (names_callRuntime .exceptionNew nofun).bind fun _ _ => ?_
  exact Names.emit fun _ _ => trivial

theorem names_rethrowValue (register : Int) : Names scope (rethrowValue register) :=
  (names_loadAs hscope register (TargetType.within_builtin _)).bind fun _ _ =>
    names_callRuntime .rethrow nofun

theorem names_openTrap (register offset : Int) : Names scope (openTrap register offset) := by
  have hregion : Names scope trapRegion :=
    Names.read.bind fun _ _ => Names.get.bind fun _ _ =>
      (names_orUnsupported _ _).mono fun _ _ => trivial
  refine (names_registerType hscope register).bind fun _ _ => ?_
  refine (names_branchLabel offset).bind fun handler _ => hregion.bind fun region _ => ?_
  exact Names.bind (Names.tally fun _ => ⟨rfl, rfl⟩) fun _ _ => Names.emit fun _ _ => trivial

omit hscope in
theorem names_popTrap? : Names scope popTrap? := by
  intro before result after hbefore hstep
  cases hstep
  exact ⟨hbefore.append (List.append_nil _).symm rfl rfl nofun, trivial⟩

theorem names_closeTrap (register : Int) : Names scope (closeTrap register) := by
  refine names_popTrap?.bind fun found _ => (names_orUnsupported _ _).bind fun frame _ => ?_
  refine Names.ite (fun _ => names_unsupported _) fun _ => Names.newLabel.bind fun after _ => ?_
  refine .emit_bind (fun _ _ => trivial) ?_
  refine .emit_bind (fun _ _ => TargetType.within_builtin _) ?_
  refine (names_callRuntime .exceptionValue nofun).bind fun _ _ => ?_
  refine (names_storeFrom hscope frame.register (TargetType.within_builtin _)).bind fun _ _ => ?_
  refine .emit_bind (fun _ _ => trivial) (.emit_bind (fun _ _ => trivial) ?_)
  exact Names.mark

theorem names_nullCheck (register : Int) : Names scope (nullCheck register) := by
  refine (names_registerType hscope register).bind fun _ _ =>
    Names.ite (fun _ => ?_) fun _ => Names.pure trivial
  refine Names.newLabel.bind fun present _ => (names_load hscope register).bind fun _ _ => ?_
  refine .emit_bind (fun _ _ => trivial) ?_
  refine (names_callRuntime .nullCheckErrorNew nofun).bind fun _ _ => ?_
  exact .emit_bind (fun _ _ => trivial) Names.mark

omit hscope in
theorem declareLocal_refers {type : TargetType} {slot : UInt16} {before after : Progress}
    (htype : type.Within scope.registry.target.types.length) (hbefore : before.Refers scope)
    (h : declareLocal type scope before = .ok slot after) :
    after.Refers scope ∧ slot.toNat < after.builder.locals.length := by
  cases h
  have hlength : (before.builder.declareLocal type).2.locals.length
      = before.builder.locals.length + 1 := List.length_append
  have hmore := Nat.le_of_lt (Nat.lt_of_lt_of_eq (Nat.lt_succ_self _) hlength.symm)
  refine ⟨⟨?_, ?_, ?_, ?_⟩, ?_⟩
  · exact fun instr hinstr => (hbefore.body instr hinstr).mono hmore
  · intro found hfound
    rcases List.mem_append.mp hfound with hearlier | hnew
    · exact hbefore.locals found hearlier
    · rwa [List.mem_singleton.mp hnew]
  · exact Nat.le_trans hbefore.registers (Nat.add_le_add_left hmore _)
  · exact fun exit slot hexit hslot => Nat.lt_of_lt_of_le (hbefore.exit exit slot hexit hslot) hmore
  · exact toNat_ofNat_lt (Nat.lt_of_lt_of_eq (Nat.lt_succ_self _) hlength.symm)

omit hscope in
theorem returnExit_refers {type : TargetType} {exit : ReturnExit} {before after : Progress}
    (htype : type.Within scope.registry.target.types.length) (hbefore : before.Refers scope)
    (h : returnExit type scope before = .ok exit after) : after.Refers scope := by
  obtain ⟨_, _, hget, h⟩ := bind_ok h
  obtain ⟨rfl, rfl⟩ := get_ok hget
  have hmade {middle : Progress} {label : Label} {slot : Option UInt16}
      (hmiddle : middle.Refers scope)
      (hslot : ∀ found, slot = some found → found.toNat < middle.builder.locals.length) :
      Progress.Refers scope { middle with returnExit := some { label, slot } } := by
    refine ⟨hmiddle.body, hmiddle.locals, hmiddle.registers, ?_⟩
    rintro _ found ⟨⟩ hfound
    exact hslot found hfound
  cases hexit : before.returnExit with
  | some found =>
      simp only [hexit] at h
      cases h
      exact hbefore
  | none =>
      simp only [hexit] at h
      obtain ⟨label, labelled, hlabel, h⟩ := bind_ok h
      have hlabelled := (Names.newLabel before label labelled hbefore hlabel).1
      split at h
      · obtain ⟨slot, _, hslot, h⟩ := bind_ok h
        cases hslot
        obtain ⟨_, _, hmodify, h⟩ := bind_ok h
        cases hmodify
        cases h
        exact hmade hlabelled nofun
      · obtain ⟨slot, middle, hslot, h⟩ := bind_ok h
        cases hslot
        obtain ⟨hmiddle, hfound⟩ := declareLocal_refers htype hlabelled rfl
        obtain ⟨_, _, hmodify, h⟩ := bind_ok h
        cases hmodify
        cases h
        refine hmade hmiddle ?_
        rintro _ ⟨⟩
        exact hfound

theorem names_leaveToExit : Names scope (do
    let exit ← returnExit scope.signature.ret
    if let some slot := exit.slot then emit (.stLoc slot)
    emit (.leave exit.label)) := by
  intro before result after hbefore h
  obtain ⟨exit, middle, hexit, h⟩ := bind_ok h
  have hmiddle := returnExit_refers hscope.ret hbefore hexit
  obtain ⟨-, -, hfound, -⟩ := returnExit_ok hexit
  have hleave : Names scope (emit (.leave exit.label)) := Names.emit fun _ _ => trivial
  cases hslot : exit.slot with
  | none =>
      simp only [hslot] at h
      exact hleave middle result after hmiddle h
  | some slot =>
      simp only [hslot] at h
      obtain ⟨_, stored, hstore, h⟩ := bind_ok h
      exact hleave stored result after (emit_slot_refers hmiddle hfound hslot (Or.inr rfl) hstore) h

theorem names_ret (register : Int) : Names scope (ret register) := by
  have hrest : Names scope (do
      if (← get).traps.isEmpty then emit .ret
      else
        let exit ← returnExit scope.signature.ret
        if let some slot := exit.slot then emit (.stLoc slot)
        emit (.leave exit.label)) :=
    Names.get.bind fun _ _ =>
      Names.ite (fun _ => Names.emit fun _ _ => trivial) fun _ => names_leaveToExit hscope
  refine Names.read.bind ?_
  rintro _ rfl
  refine Names.ite (fun _ => ?_) fun _ => hrest
  exact (names_loadAs hscope register hscope.ret).bind fun _ _ => hrest

/-! ## Whole functions -/

theorem names_operation (op : Operation) : Names scope (operation op) := by
  unfold operation
  dsimp only
  match op.opcode with
  | .mov | .toDyn => exact names_move hscope _ _
  | .int => exact names_intConstant hscope _ _
  | .float => exact names_floatConstant hscope _ _
  | .bool => exact names_boolConstant hscope _ _
  | .bytes => exact names_bytesConstant hscope _ _
  | .string => exact names_stringConstant hscope _ _
  | .null => exact names_nullConstant _
  | .neg => exact names_negate hscope _ _
  | .not => exact names_complement hscope _ _
  | .incr | .decr => exact names_stepRegister hscope _ _
  | .add | .sub | .mul | .sDiv | .uDiv | .sMod | .uMod | .shl | .sShr | .uShr | .and | .or
  | .xor => exact names_arithmetic hscope _ _ _ _
  | .call0 | .call1 | .call2 | .call3 | .call4 | .callN => exact names_directCall hscope _ _ _
  | .callMethod => exact names_receiverCall hscope _ _ _
  | .callThis => exact names_methodCall hscope _ _ _ _
  | .callClosure => exact names_closureCall hscope _ _ _
  | .staticClosure => exact names_staticClosure hscope _ _
  | .instanceClosure => exact names_instanceClosure hscope _ _ _
  | .virtualClosure => exact names_virtualClosure hscope _ _ _
  | .getGlobal => exact names_getGlobal hscope _ _
  | .setGlobal => exact names_setGlobal hscope _ _
  | .field | .getThis => exact names_getField hscope _ _ _
  | .setField | .setThis => exact names_setField hscope _ _ _
  | .dynGet => exact names_getDynamic hscope _ _ _
  | .dynSet => exact names_setDynamic hscope _ _ _
  | .jTrue | .jFalse => exact names_truthBranch hscope _ _ fun _ _ _ => trivial
  | .jNull => exact names_nullBranch hscope _ _
  | .jNotNull => exact names_notNullBranch hscope _ _
  | .jSLt | .jSGte | .jSGt | .jSLte | .jULt | .jUGte | .jNotLt | .jNotGte | .jEq | .jNotEq =>
      exact names_compareBranch hscope _ _ _ _
  | .jAlways => exact names_jump _
  | .toSFloat | .toUFloat => exact names_toFloat hscope _ _ _
  | .toInt => exact names_toInt hscope _ _
  | .safeCast => exact names_safeCast hscope _ _
  | .uncheckedCast => exact names_cast hscope _ _ _
  | .toVirtual => exact names_toVirtual hscope _ _
  | .label => exact Names.pure trivial
  | .ret => exact names_ret hscope _
  | .throw => exact names_throwValue hscope _
  | .rethrow => exact names_rethrowValue hscope _
  | .switch => exact names_switchOn hscope _ _
  | .nullCheck => exact names_nullCheck hscope _
  | .trap => exact names_openTrap hscope _ _
  | .endTrap => exact names_closeTrap hscope _
  | .getI8 | .getI16 => exact names_getMemory hscope _ _ _ _
  | .getMem => exact (names_memoryWidth _).bind fun width _ => names_getMemory hscope _ _ _ width
  | .setI8 | .setI16 => exact names_setMemory hscope _ _ _ _
  | .setMem => exact (names_memoryWidth _).bind fun width _ => names_setMemory hscope _ _ _ width
  | .getArray => exact names_getElement hscope _ _ _
  | .setArray => exact names_setElement hscope _ _ _
  | .new => exact names_newInstance hscope _
  | .arraySize => exact names_arraySize hscope _ _
  | .type => exact names_typeToken hscope _ _
  | .getType => exact names_typeOfValue hscope _ _
  | .getTID => exact names_kindOfType hscope _ _
  | .ref => exact names_makeBox hscope _ _
  | .unref => exact names_getBoxed hscope _ _
  | .setref => exact names_setBoxed hscope _ _
  | .makeEnum => exact names_makeEnum hscope _ _ _
  | .enumAlloc => exact names_allocateEnum hscope _ _
  | .enumIndex => exact names_enumIndex hscope _ _
  | .enumField => exact names_getEnumField hscope _ _ _ _
  | .setEnumField => exact names_setEnumField hscope _ _ _
  | .assert => exact names_callRuntime .assert nofun
  | .nop => exact Names.emit fun _ _ => trivial
  | .refData | .refOffset | .prefetch | .asm => exact names_gap

omit hscope in
theorem names_sequencePoint : Names scope sequencePoint := by
  refine Names.get.bind fun progress _ => Names.read.bind fun other _ => ?_
  split
  · exact Names.pure trivial
  · refine Names.ite (fun _ => ?_) fun _ => Names.pure trivial
    exact .emit_bind (fun _ _ => trivial) (Names.tally fun _ => ⟨rfl, rfl⟩)

omit hscope in
theorem names_begin (position : Nat) (opcode : Opcode) : Names scope (begin position opcode) := by
  refine Names.bind (Names.tally fun _ => ⟨rfl, rfl⟩) fun _ _ => Names.read.bind fun other _ => ?_
  refine Names.ite (fun _ => ?_) fun _ => names_sequencePoint
  exact Names.mark.bind fun _ _ => names_sequencePoint

omit hscope in
theorem names_closeExit : Names scope closeExit := by
  have hret : Names scope (emitAll [.ret]) := by
    refine Names.forM fun instr hinstr => ?_
    rw [List.mem_singleton.mp hinstr]
    exact Names.emit fun _ _ => trivial
  intro before result after hbefore h
  obtain ⟨_, _, hget, h⟩ := bind_ok h
  obtain ⟨rfl, rfl⟩ := get_ok hget
  cases hexit : before.returnExit with
  | none =>
      simp only [hexit] at h
      cases h
      exact ⟨hbefore, trivial⟩
  | some exit =>
      simp only [hexit, exitCode] at h
      obtain ⟨_, marked, hmark, h⟩ := bind_ok h
      have hmarked := (Names.mark before () marked hbefore hmark).1
      cases hmark
      cases hslot : exit.slot with
      | none =>
          simp only [hslot] at h
          exact hret _ result after hmarked h
      | some slot =>
          simp only [hslot] at h
          obtain ⟨_, loaded, hload, h⟩ := bind_ok h
          exact hret loaded result after (emit_slot_refers hmarked hexit hslot (Or.inl rfl) hload) h

omit hscope in
theorem names_finish : Names scope finish fun result =>
    result.1.Refers scope.registry.target scope.parameterCount := by
  refine Names.get.bind fun progress _ => Names.ite (fun _ => Names.fails fun _ => rfl) fun _ => ?_
  refine Names.bind names_closeExit fun _ _ => ?_
  intro before result after hbefore h
  obtain ⟨_, _, hget, h⟩ := bind_ok h
  obtain ⟨rfl, rfl⟩ := get_ok hget
  cases hfinish : before.builder.finish with
  | error label =>
      simp only [hfinish] at h
      cases h
  | ok body =>
      simp only [hfinish] at h
      cases h
      obtain rfl := finish_eq hfinish
      exact ⟨hbefore, hbefore.body, hbefore.locals⟩

theorem names_body : Names scope body fun result =>
    result.1.Refers scope.registry.target scope.parameterCount := by
  refine Names.read.bind fun other _ => Names.bind (Names.forM ?_) fun _ _ => names_finish
  rintro ⟨op, position⟩ -
  exact (names_begin position op.opcode).bind fun _ _ => names_operation hscope op

end Instructions

end Emit

/-! ## Functions -/

theorem Scope.Grounded.begin {scope : Scope} (h : scope.Grounded) :
    scope.begin.Refers scope := by
  refine ⟨nofun, ?_, ?_, nofun⟩
  · intro type htype
    obtain ⟨register, hregister, rfl⟩ := List.mem_map.mp htype
    have hwithin := h.registers register (List.mem_of_mem_drop hregister)
    unfold localType
    split
    · exact TargetType.within_builtin _
    · exact hwithin
  · simp only [Scope.begin, List.length_map, List.length_drop]
    omega

theorem FunctionDef.refers_of_lower {function : FunctionDef} {image : Image} {registry : Registry}
    {settings : Settings} {signature : Signature} {result : MethodBody × BodyStats}
    (hregistry : registry.Grounded) (hsignature : signature.Within registry.target.types.length)
    (h : function.lower image registry settings signature = .ok result) :
    result.1.Refers registry.target signature.params.length := by
  obtain ⟨scope, final, hscope, hbody⟩ := lower_ok h
  obtain ⟨-, htypes, rfl, rfl, rfl, rfl⟩ := scope_ok hscope
  have hgrounded : scope.Grounded := by
    refine ⟨hregistry, ?_, hsignature.ret⟩
    intro type htype
    obtain ⟨index, -, hmapped⟩ := mem_of_mapM htypes htype
    exact scope.registry.within_of_mapType (fun _ _ => hregistry.decl_lt) hmapped
  exact (Emit.names_body hgrounded scope.begin result final hgrounded.begin hbody).2

end BytecodeLowering
