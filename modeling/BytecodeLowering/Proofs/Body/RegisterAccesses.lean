import BytecodeLowering.Proofs.Body.RegisterUses

/-!
# Register accesses of the instructions

Every instruction of a source function accesses the registers that it names, in
their order.
-/

namespace BytecodeLowering

open scoped Computability

namespace Emit

section Instructions

variable {scope : Scope} (hscope : scope.registerTypes.length ≤ maxRegisters)

include hscope

/-! ## Moves and constants -/

omit hscope in
theorem accesses_fromPool (pool : List α) (name : String) (index : Int) :
    Accesses scope (fromPool pool name index) 1 :=
  accesses_orUnsupported _ _

theorem accesses_move (target source : Int) :
    Accesses scope (move target source) ({[.read source]} * {[.write target]}) :=
  (accesses_registerType target).skip fun type =>
    (accesses_loadAs hscope source type).bind fun _ => accesses_store hscope target

theorem accesses_intConstant (target index : Int) :
    Accesses scope (intConstant target index) {[.write target]} := by
  refine Accesses.read.skip fun other => (accesses_fromPool _ _ _).skip fun value => ?_
  refine (accesses_registerType target).skip fun type => Accesses.ite (fun _ => ?_) fun _ => ?_
  · exact .emit_bind rfl (accesses_store hscope target)
  · exact .emit_bind rfl (accesses_storeFrom hscope target _)

theorem accesses_floatConstant (target index : Int) :
    Accesses scope (floatConstant target index) {[.write target]} := by
  refine Accesses.read.skip fun other => (accesses_fromPool _ _ _).skip fun value => ?_
  exact .emit_bind rfl (accesses_storeFrom hscope target _)

theorem accesses_boolConstant (target value : Int) :
    Accesses scope (boolConstant target value) {[.write target]} :=
  .emit_bind rfl (accesses_storeFrom hscope target _)

theorem accesses_stringConstant (target index : Int) :
    Accesses scope (stringConstant target index) {[.write target]} := by
  refine Accesses.read.skip fun other => (accesses_fromPool _ _ _).skip fun value => ?_
  refine .emit_bind rfl ?_
  refine (accesses_registerType target).skip fun type => Accesses.ite (fun _ => ?_) fun _ => ?_
  · exact (accesses_callRuntime .bytesFromString).skip fun _ => accesses_store hscope target
  · exact accesses_storeFrom hscope target _

theorem accesses_bytesConstant (target index : Int) :
    Accesses scope (bytesConstant target index) {[.write target]} := by
  have hstore := accesses_storeFrom hscope target .bytes
  refine Accesses.read.skip fun other => (accesses_orUnsupported _ _).skip fun position => ?_
  refine Accesses.ite (fun _ => ?_) fun _ => ?_
  · refine (accesses_orUnsupported _ _).skip fun blob => .emit_bind rfl ?_
    exact (accesses_callRuntime .bytesFromRaw).skip fun _ => hstore
  · refine (accesses_fromPool _ _ _).skip fun text => .emit_bind rfl ?_
    exact (accesses_callRuntime .bytesFromString).skip fun _ => hstore

theorem accesses_nullConstant (target : Int) :
    Accesses scope (nullConstant target) {[.write target]} :=
  .emit_bind rfl (accesses_store hscope target)

/-! ## Arithmetic -/

omit hscope in
theorem accesses_wrap (type : TargetType) : Accesses scope (wrap type) 1 := by
  unfold wrap
  split
  · exact Accesses.emit rfl
  · exact Accesses.emit rfl
  · exact Accesses.pure ()

omit hscope in
theorem accesses_arithmeticType (target : Int) : Accesses scope (arithmeticType target) 1 :=
  (accesses_registerType target).skip fun _ =>
    Accesses.ite (fun _ => Accesses.pure _) fun _ => accesses_unsupported _

theorem accesses_wrap_store (type : TargetType) (target : Int) :
    Accesses scope (do
      wrap type
      store target) {[.write target]} :=
  (accesses_wrap type).skip fun _ => accesses_store hscope target

theorem accesses_negate (target source : Int) :
    Accesses scope (negate target source) ({[.read source]} * {[.write target]}) := by
  refine (accesses_arithmeticType target).skip fun type => ?_
  refine (accesses_loadAs hscope source type).bind fun _ => ?_
  exact .emit_bind rfl (accesses_wrap_store hscope type target)

theorem accesses_complement (target source : Int) :
    Accesses scope (complement target source) ({[.read source]} * {[.write target]}) := by
  refine (accesses_arithmeticType target).skip fun type => ?_
  refine (accesses_loadAs hscope source type).bind fun _ => Accesses.ite (fun _ => ?_) fun _ => ?_
  · exact .emit_bind rfl (.emit_bind rfl (accesses_store hscope target))
  · refine Accesses.ite (fun _ => Accesses.fails fun _ => rfl) fun _ => ?_
    exact .emit_bind rfl (accesses_wrap_store hscope type target)

theorem accesses_stepRegister (target : Int) (op : BinaryOp) :
    Accesses scope (stepRegister target op) ({[.read target]} * {[.write target]}) := by
  refine (accesses_arithmeticType target).skip fun type => ?_
  refine (accesses_load hscope target).bind fun _ => .emit_bind ?_ ?_
  · unfold one
    split <;> rfl
  · exact .emit_bind rfl (accesses_wrap_store hscope type target)

theorem accesses_arithmetic (opcode : Opcode) (target left right : Int) :
    Accesses scope (arithmetic opcode target left right)
      ({[.read left]} * {[.read right]} * {[.write target]}) := by
  rw [mul_assoc]
  refine (accesses_arithmeticType target).skip fun type => ?_
  refine (accesses_orUnsupported _ _).skip fun op => ?_
  refine (accesses_loadAs hscope left type).bind fun _ => ?_
  refine (accesses_loadAs hscope right _).bind fun _ => ?_
  exact .emit_bind rfl (accesses_wrap_store hscope type target)

/-! ## Calls -/

omit hscope in
theorem accesses_callee (function : Int) : Accesses scope (callee function) 1 := by
  refine Accesses.read.skip fun other => ?_
  split
  · exact Accesses.pure _
  · exact Accesses.fails fun _ => rfl

omit hscope in
theorem accesses_forM (items : List α) (register : α → Int) {step : α → Emit PUnit}
    (h : ∀ item, Accesses scope (step item) {[.read (register item)]}) :
    Accesses scope (items.forM step) {(items.map register).map .read} := by
  induction items with
  | nil => exact Accesses.pure _
  | cons item items ih =>
      have hall := (h item).bind fun _ => ih
      rwa [singleton_mul_singleton] at hall

theorem accesses_pushArguments (args : List Int) (params : List TargetType) :
    Accesses scope (pushArguments args params) {args.map .read} := by
  refine Accesses.ite (fun hlength => ?_) fun _ => accesses_unsupported _
  have hall := accesses_forM (args.zip params) Prod.fst
    fun item => accesses_loadAs hscope item.1 item.2
  rwa [List.map_fst_zip hlength.le] at hall

theorem accesses_storeResult (target : Int) (ret : TargetType) :
    Accesses scope (storeResult target ret) (1 + {[.write target]}) :=
  Accesses.ite (fun _ => (accesses_storeFrom hscope target ret).right)
    fun _ => (Accesses.pure ()).left

theorem accesses_directCall (target function : Int) (args : List Int) :
    Accesses scope (directCall target function args)
      ({args.map .read} * (1 + {[.write target]})) := by
  refine (accesses_callee function).skip fun entry => ?_
  refine (accesses_pushArguments hscope args _).bind fun _ => ?_
  exact .emit_bind rfl (accesses_storeResult hscope target _)

omit hscope in
theorem accesses_receiverSlot (receiver slot : Int) :
    Accesses scope (receiverSlot receiver slot) 1 := by
  refine Accesses.read.skip fun other => ?_
  refine (accesses_sourceTypeIndex receiver).skip fun index => ?_
  refine (accesses_sourceType receiver).skip fun source => ?_
  split
  case h_1 | h_2 =>
    refine (accesses_orUnsupported _ _).skip fun shape => ?_
    split
    · exact Accesses.pure _
    · exact accesses_throwAt _
  case h_3 =>
    refine (accesses_orUnsupported _ _).skip fun shape => ?_
    split
    · exact (accesses_orUnsupported _ _).skip fun _ => Accesses.pure _
    · exact accesses_throwAt _
  case h_4 => exact accesses_unsupported _

theorem accesses_methodCall (target receiver slot : Int) (args : List Int) :
    Accesses scope (methodCall target receiver slot args)
      ({[.read receiver]} * {args.map .read} * (1 + {[.write target]})) := by
  rw [mul_assoc]
  refine (accesses_receiverSlot receiver slot).skip fun found => ?_
  refine (accesses_load hscope receiver).bind fun _ => .emit_bind rfl ?_
  refine (accesses_pushArguments hscope args _).bind fun _ => ?_
  exact .emit_bind rfl (accesses_storeResult hscope target _)

theorem accesses_receiverCall (target slot : Int) (args : List Int) :
    Accesses scope (receiverCall target slot args)
      ({args.map .read} * (1 + {[.write target]})) := by
  cases args with
  | nil => exact accesses_unsupported _
  | cons receiver args =>
      have hcall := accesses_methodCall hscope target receiver slot args
      rwa [singleton_mul_singleton] at hcall

theorem accesses_storeArgument (item : Int × Nat) :
    Accesses scope (storeArgument item) {[.read item.1]} := by
  refine .emit_bind rfl (.emit_bind rfl ?_)
  exact (accesses_loadAs hscope item.1 .any).thenSilent fun _ => Accesses.emit rfl

theorem accesses_dynamicCall (target closure : Int) (args : List Int) :
    Accesses scope (dynamicCall target closure args)
      ({[.read closure]} * {args.map .read} * (1 + {[.write target]})) := by
  have hall := accesses_forM args.zipIdx Prod.fst (accesses_storeArgument hscope)
  rw [List.zipIdx_map_fst] at hall
  rw [mul_assoc]
  refine (accesses_load hscope closure).bind fun _ => .emit_bind rfl (.emit_bind rfl ?_)
  refine hall.bind fun _ => (accesses_callRuntime .dynamicInvoke).skip fun _ => ?_
  exact accesses_bridge.skip fun _ => accesses_storeResult hscope target _

theorem accesses_delegateCall (target closure : Int) (args : List Int) (signature : Signature) :
    Accesses scope (delegateCall target closure args signature)
      ({[.read closure]} * {args.map .read} * (1 + {[.write target]})) := by
  rw [mul_assoc]
  refine (accesses_load hscope closure).bind fun _ => ?_
  refine (accesses_pushArguments hscope args _).bind fun _ => ?_
  exact .emit_bind rfl (accesses_storeResult hscope target _)

theorem accesses_closureCall (target closure : Int) (args : List Int) :
    Accesses scope (closureCall target closure args)
      ({[.read closure]} * {args.map .read} * (1 + {[.write target]})) := by
  refine (accesses_registerType closure).skip fun type => ?_
  split
  · exact accesses_dynamicCall hscope target closure args
  · exact accesses_delegateCall hscope target closure args _
  · exact accesses_unsupported _

theorem accesses_storeDelegate (target : Int) (params : List TargetType) (ret : TargetType) :
    Accesses scope (storeResult target (.delegate params ret)) {[.write target]} := by
  rw [storeResult, if_pos (by simp)]
  exact accesses_storeFrom hscope target _

theorem accesses_staticClosure (target function : Int) :
    Accesses scope (staticClosure target function) {[.write target]} := by
  refine (accesses_callee function).skip fun entry => .emit_bind rfl ?_
  exact accesses_storeDelegate hscope target _ _

theorem accesses_instanceClosure (target function receiver : Int) :
    Accesses scope (instanceClosure target function receiver)
      ({[.read receiver]} * {[.write target]}) := by
  refine (accesses_callee function).skip fun entry => ?_
  split
  · exact accesses_unsupported _
  · refine (accesses_loadAs hscope receiver _).bind fun _ => .emit_bind rfl ?_
    exact accesses_storeDelegate hscope target _ _

theorem accesses_virtualClosure (target receiver slot : Int) :
    Accesses scope (virtualClosure target receiver slot)
      ({[.read receiver]} * {[.write target]}) := by
  refine (accesses_receiverSlot receiver slot).skip fun found => ?_
  refine (accesses_load hscope receiver).bind fun _ => .emit_bind rfl ?_
  exact accesses_storeDelegate hscope target _ _

/-! ## Fields and globals -/

omit hscope in
theorem accesses_fieldOf (register field : Int) : Accesses scope (fieldOf register field) 1 := by
  refine Accesses.read.skip fun other => ?_
  refine (accesses_sourceTypeIndex register).skip fun index => ?_
  refine (accesses_sourceType register).skip fun source => ?_
  split
  case h_1 | h_2 | h_3 =>
    split
    · exact Accesses.pure _
    · exact accesses_throwAt _
  case h_4 => exact accesses_unsupported _

theorem accesses_getField (target register field : Int) :
    Accesses scope (getField target register field)
      ({[.read register]} * {[.write target]}) := by
  refine (accesses_fieldOf register field).skip fun found => ?_
  refine (accesses_load hscope register).bind fun _ => ?_
  exact .emit_bind rfl (accesses_storeFrom hscope target _)

theorem accesses_setField (register field source : Int) :
    Accesses scope (setField register field source)
      ({[.read register]} * {[.read source]}) := by
  refine (accesses_fieldOf register field).skip fun found => ?_
  refine (accesses_load hscope register).bind fun _ => ?_
  exact (accesses_loadAs hscope source _).thenSilent fun _ => Accesses.emit rfl

omit hscope in
theorem accesses_fieldName (index : Int) : Accesses scope (fieldName index) 1 :=
  Accesses.read.skip fun _ => accesses_orUnsupported _ _

theorem accesses_getDynamic (target register name : Int) :
    Accesses scope (getDynamic target register name)
      ({[.read register]} * {[.write target]}) := by
  refine (accesses_fieldName name).skip fun text => ?_
  refine (accesses_loadAs hscope register .dynamic).bind fun _ => .emit_bind rfl ?_
  exact (accesses_callRuntime .dynamicGetField).skip fun _ => accesses_storeFrom hscope target _

theorem accesses_setDynamic (register name source : Int) :
    Accesses scope (setDynamic register name source)
      ({[.read register]} * {[.read source]}) := by
  refine (accesses_fieldName name).skip fun text => ?_
  refine (accesses_loadAs hscope register .dynamic).bind fun _ => .emit_bind rfl ?_
  exact (accesses_loadAs hscope source .dynamic).thenSilent fun _ => accesses_callRuntime _

omit hscope in
theorem accesses_globalOf (index : Int) : Accesses scope (globalOf index) 1 :=
  Accesses.read.skip fun _ => accesses_orUnsupported _ _

theorem accesses_getGlobal (target index : Int) :
    Accesses scope (getGlobal target index) {[.write target]} :=
  (accesses_globalOf index).skip fun _ => .emit_bind rfl (accesses_storeFrom hscope target _)

theorem accesses_setGlobal (index source : Int) :
    Accesses scope (setGlobal index source) {[.read source]} :=
  (accesses_globalOf index).skip fun _ =>
    (accesses_loadAs hscope source _).thenSilent fun _ => Accesses.emit rfl

/-! ## Casts and records -/

theorem accesses_toFloat (target source : Int) (unsigned : Bool) :
    Accesses scope (toFloat target source unsigned) ({[.read source]} * {[.write target]}) := by
  have hrest : Accesses scope (do
      emit (.conv .r8)
      storeFrom target .f64) {[.write target]} :=
    .emit_bind rfl (accesses_storeFrom hscope target _)
  refine (accesses_load hscope source).bind fun type => Accesses.ite (fun _ => ?_) fun _ => ?_
  · exact accesses_storeFrom hscope target type
  · refine Accesses.ite (fun _ => accesses_unsupported _) fun _ => ?_
    exact Accesses.ite (fun _ => .emit_bind rfl hrest) fun _ => hrest

theorem accesses_toInt (target source : Int) :
    Accesses scope (toInt target source) ({[.read source]} * {[.write target]}) := by
  refine (accesses_registerType target).skip fun wanted => ?_
  refine (accesses_load hscope source).bind fun type => Accesses.ite (fun _ => ?_) fun _ => ?_
  · refine Accesses.ite (fun _ => ?_) fun _ => ?_
    all_goals exact .emit_bind rfl (accesses_storeFrom hscope target _)
  · exact (accesses_convert true type wanted).skip fun _ => accesses_store hscope target

theorem accesses_cast (target source : Int) (checked : Bool) :
    Accesses scope (cast target source checked) ({[.read source]} * {[.write target]}) := by
  refine (accesses_registerType target).skip fun wanted => ?_
  refine (accesses_load hscope source).bind fun type => ?_
  exact (accesses_convert checked type wanted).skip fun _ => accesses_store hscope target

theorem accesses_safeCast (target source : Int) :
    Accesses scope (safeCast target source) ({[.read source]} * {[.write target]}) :=
  Accesses.read.skip fun _ => accesses_cast hscope target source _

theorem accesses_copyField (source : Int) (item : FlatField × FieldOrigin) :
    Accesses scope (copyField source item) {[.read source]} := by
  obtain ⟨field, origin⟩ := item
  refine .emit_bind rfl (Accesses.thenSilent ?_ fun _ => Accesses.emit rfl)
  cases origin with
  | field found type =>
      refine (accesses_load hscope source).thenSilent fun _ => .emit_bind rfl ?_
      exact accesses_convert true type field.type
  | dynamic =>
      refine (accesses_loadAs hscope source .dynamic).thenSilent fun _ => .emit_bind rfl ?_
      exact (accesses_callRuntime .dynamicGetField).skip fun _ => accesses_convert true _ _

theorem accesses_toVirtual (target source : Int) :
    Accesses scope (toVirtual target source) ({[.read source]}∗ * {[.write target]}) := by
  refine Accesses.read.skip fun other => (accesses_sourceTypeIndex target).skip fun index => ?_
  refine (accesses_orUnsupported _ _).skip fun shape => ?_
  refine (accesses_sourceTypeIndex source).skip fun sourceIndex => ?_
  refine (accesses_sourceType source).skip fun origin => ?_
  refine Accesses.ite (fun _ => accesses_unsupported _) fun _ => .emit_bind rfl ?_
  refine Accesses.bind (Accesses.forM_star _ fun item => accesses_copyField hscope source item) ?_
  exact fun _ => accesses_storeFrom hscope target _

/-! ## Instances, byte strings, arrays and boxes -/

theorem accesses_construct (target : Int) (constructor : MethodId) (type : TargetType) :
    Accesses scope (construct target constructor type) {[.write target]} :=
  .emit_bind rfl (accesses_storeFrom hscope target type)

theorem accesses_newInstance (target : Int) :
    Accesses scope (newInstance target) {[.write target]} := by
  refine Accesses.read.skip fun other => (accesses_sourceTypeIndex target).skip fun index => ?_
  refine (accesses_sourceType target).skip fun source => ?_
  split
  case h_1 | h_2 | h_3 =>
    exact (accesses_orUnsupported _ _).skip fun shape => accesses_construct hscope target _ _
  case h_4 | h_5 =>
    refine .emit_bind rfl ?_
    exact (accesses_callRuntime .dynamicNew).skip fun _ => accesses_storeFrom hscope target _
  case h_6 => exact accesses_unsupported _

omit hscope in
theorem accesses_memoryWidth (register : Int) : Accesses scope (memoryWidth register) 1 := by
  refine (accesses_sourceType register).skip fun source => ?_
  split
  all_goals first | exact Accesses.pure _ | exact accesses_unsupported _

theorem accesses_getMemory (target bytes position : Int) (width : MemoryWidth) :
    Accesses scope (getMemory target bytes position width)
      ({[.read bytes]} * {[.read position]} * {[.write target]}) := by
  rw [mul_assoc]
  refine (accesses_loadAs hscope bytes .bytes).bind fun _ => ?_
  refine (accesses_loadAs hscope position .i32).bind fun _ => ?_
  exact (accesses_callRuntime (.bytesGet width)).skip fun _ => accesses_storeFrom hscope target _

theorem accesses_setMemory (bytes position source : Int) (width : MemoryWidth) :
    Accesses scope (setMemory bytes position source width)
      ({[.read bytes]} * {[.read position]} * {[.read source]}) := by
  rw [mul_assoc]
  refine (accesses_loadAs hscope bytes .bytes).bind fun _ => ?_
  refine (accesses_loadAs hscope position .i32).bind fun _ => ?_
  exact (accesses_loadAs hscope source _).thenSilent fun _ => accesses_callRuntime _

theorem accesses_arraySize (target array : Int) :
    Accesses scope (arraySize target array) ({[.read array]} * {[.write target]}) := by
  refine (accesses_loadAs hscope array .array).bind fun _ => ?_
  exact (accesses_callRuntime .arraySize).skip fun _ => accesses_storeFrom hscope target _

theorem accesses_getElement (target array position : Int) :
    Accesses scope (getElement target array position)
      ({[.read array]} * {[.read position]} * {[.write target]}) := by
  rw [mul_assoc]
  refine (accesses_loadAs hscope array .array).bind fun _ => ?_
  refine (accesses_loadAs hscope position .i32).bind fun _ => ?_
  exact .emit_bind rfl (accesses_storeFrom hscope target _)

theorem accesses_setElement (array position source : Int) :
    Accesses scope (setElement array position source)
      ({[.read array]} * {[.read position]} * {[.read source]}) := by
  rw [mul_assoc]
  refine (accesses_loadAs hscope array .array).bind fun _ => ?_
  refine (accesses_loadAs hscope position .i32).bind fun _ => ?_
  exact (accesses_loadAs hscope source .any).thenSilent fun _ => Accesses.emit rfl

theorem accesses_typeToken (target type : Int) :
    Accesses scope (typeToken target type) {[.write target]} := by
  refine Accesses.read.skip fun other => (accesses_orUnsupported _ _).skip fun index => ?_
  refine (accesses_ofExcept _).skip fun mapped => ?_
  exact .emit_bind rfl (accesses_storeFrom hscope target _)

theorem accesses_typeOfValue (target source : Int) :
    Accesses scope (typeOfValue target source) ({[.read source]} * {[.write target]}) := by
  refine (accesses_loadAs hscope source .dynamic).bind fun _ => ?_
  exact (accesses_callRuntime .typeOf).skip fun _ => accesses_storeFrom hscope target _

theorem accesses_kindOfType (target source : Int) :
    Accesses scope (kindOfType target source) ({[.read source]} * {[.write target]}) := by
  refine (accesses_loadAs hscope source .typeValue).bind fun _ => ?_
  exact (accesses_callRuntime .typeKindOf).skip fun _ => accesses_storeFrom hscope target _

omit hscope in
theorem accesses_boxed (register : Int) : Accesses scope (boxed register) 1 := by
  refine (accesses_registerType register).skip fun type => ?_
  split
  · exact Accesses.pure _
  · exact accesses_unsupported _

theorem accesses_makeBox (target source : Int) :
    Accesses scope (makeBox target source) ({[.read source]} * {[.write target]}) := by
  refine (accesses_load hscope source).bind fun inner => ?_
  exact (accesses_callRuntime _).skip fun _ => accesses_storeFrom hscope target _

theorem accesses_getBoxed (target box : Int) :
    Accesses scope (getBoxed target box) ({[.read box]} * {[.write target]}) := by
  refine (accesses_boxed box).skip fun inner => (accesses_load hscope box).bind fun _ => ?_
  exact (accesses_callRuntime _).skip fun _ => accesses_storeFrom hscope target inner

theorem accesses_setBoxed (box source : Int) :
    Accesses scope (setBoxed box source) ({[.read box]} * {[.read source]}) := by
  refine (accesses_boxed box).skip fun inner => (accesses_load hscope box).bind fun _ => ?_
  exact (accesses_loadAs hscope source inner).thenSilent fun _ => accesses_callRuntime _

/-! ## Values of enum types -/

omit hscope in
theorem accesses_enumOf (register : Int) : Accesses scope (enumOf register) 1 :=
  Accesses.read.skip fun _ => (accesses_sourceTypeIndex register).skip fun _ =>
    (accesses_orUnsupported _ _).skip fun _ => Accesses.pure _

omit hscope in
theorem accesses_constructOf (shape : EnumShape) (construct : Int) :
    Accesses scope (constructOf shape construct) 1 :=
  accesses_orUnsupported _ _

theorem accesses_makeEnum (target construct : Int) (args : List Int) :
    Accesses scope (makeEnum target construct args) ({args.map .read} * {[.write target]}) := by
  refine (accesses_enumOf target).skip fun found => ?_
  refine (accesses_constructOf _ construct).skip fun chosen => ?_
  refine Accesses.ite (fun hlength => ?_) fun _ => accesses_unsupported _
  have hall := accesses_forM (args.zip chosen.fields) Prod.fst
    fun item => accesses_loadAs hscope item.1 item.2.type
  rw [List.map_fst_zip hlength.le] at hall
  exact hall.bind fun _ => accesses_construct hscope target _ _

theorem accesses_allocateEnum (target construct : Int) :
    Accesses scope (allocateEnum target construct) {[.write target]} := by
  refine (accesses_enumOf target).skip fun found => ?_
  refine (accesses_constructOf _ construct).skip fun chosen => ?_
  refine Accesses.skip (Accesses.forM fun field => accesses_pushDefault field.type) fun _ => ?_
  exact accesses_construct hscope target _ _

theorem accesses_enumIndex (target source : Int) :
    Accesses scope (enumIndex target source) ({[.read source]} * {[.write target]}) := by
  refine (accesses_enumOf source).skip fun found => (accesses_load hscope source).bind fun _ => ?_
  exact .emit_bind rfl (accesses_storeFrom hscope target _)

omit hscope in
theorem accesses_enumParameter (value construct field : Int) :
    Accesses scope (enumParameter value construct field) 1 := by
  refine (accesses_enumOf value).skip fun found => ?_
  refine (accesses_constructOf _ construct).skip fun chosen => ?_
  split
  · exact Accesses.pure _
  · exact accesses_throwAt _

theorem accesses_getEnumField (target value construct field : Int) :
    Accesses scope (getEnumField target value construct field)
      ({[.read value]} * {[.write target]}) := by
  refine (accesses_enumParameter value construct field).skip fun found => ?_
  refine (accesses_load hscope value).bind fun _ => .emit_bind rfl (.emit_bind rfl ?_)
  exact accesses_storeFrom hscope target _

theorem accesses_setEnumField (value field source : Int) :
    Accesses scope (setEnumField value field source)
      ({[.read value]} * {[.read source]}) := by
  refine (accesses_enumParameter value 0 field).skip fun found => ?_
  refine (accesses_load hscope value).bind fun _ => .emit_bind rfl ?_
  exact (accesses_loadAs hscope source _).thenSilent fun _ => Accesses.emit rfl

/-! ## Branches -/

omit hscope in
theorem accesses_branchLabel (offset : Int) : Accesses scope (branchLabel offset) 1 := by
  refine Accesses.get.skip fun progress => ?_
  dsimp only
  split
  · exact Accesses.read.skip fun _ =>
      Accesses.ite (fun _ => Accesses.pure _) fun _ => accesses_throwAt _
  · exact accesses_throwAt _

omit hscope in
theorem accesses_jump (offset : Int) : Accesses scope (jump offset) 1 := by
  refine (accesses_branchLabel offset).skip fun target => Accesses.get.skip fun progress => ?_
  refine Accesses.emit ?_
  split <;> rfl

omit hscope in
theorem accesses_branch (offset : Int) {make : Label → Instr}
    (hmake : ∀ label, (make label).accessesVariable = false) :
    Accesses scope (branch offset make) 1 := by
  refine (accesses_branchLabel offset).skip fun target => Accesses.get.skip fun progress => ?_
  refine Accesses.ite (fun _ => ?_) fun _ => Accesses.emit (hmake target)
  refine Accesses.newLabel.skip fun taken => Accesses.newLabel.skip fun skip => ?_
  refine .emit_bind (hmake taken) (.emit_bind rfl ?_)
  exact (Accesses.mark taken).skip fun _ => .emit_bind rfl (Accesses.mark skip)

theorem accesses_truthBranch (register offset : Int) {make : Label → Instr}
    (hmake : ∀ label, (make label).accessesVariable = false) :
    Accesses scope (truthBranch register offset make) {[.read register]} :=
  (accesses_load hscope register).thenSilent fun _ => accesses_branch offset hmake

theorem accesses_nullBranch (register offset : Int) :
    Accesses scope (nullBranch register offset) (1 + {[.read register]}) :=
  (accesses_registerType register).skip fun _ =>
    Accesses.ite (fun _ => (accesses_truthBranch hscope register offset fun _ => rfl).right)
      fun _ => (Accesses.pure ()).left

theorem accesses_notNullBranch (register offset : Int) :
    Accesses scope (notNullBranch register offset) (1 + {[.read register]}) :=
  (accesses_registerType register).skip fun _ =>
    Accesses.ite (fun _ => (accesses_jump offset).left)
      fun _ => (accesses_truthBranch hscope register offset fun _ => rfl).right

theorem accesses_compareBranch (comparison : Comparison) (left right offset : Int) :
    Accesses scope (compareBranch comparison left right offset)
      ({[.read left]} * {[.read right]}) := by
  refine (accesses_registerType left).skip fun a => (accesses_registerType right).skip fun b => ?_
  refine Accesses.ite (fun _ => accesses_unsupported _) fun _ => ?_
  refine (accesses_loadAs hscope left _).bind fun _ => ?_
  exact (accesses_loadAs hscope right _).thenSilent fun _ => accesses_branch offset fun _ => rfl

omit hscope in
theorem accesses_switchEntry (offset : Int) : Accesses scope (switchEntry offset) 1 := by
  refine (accesses_branchLabel offset).skip fun target => Accesses.get.skip fun progress => ?_
  refine Accesses.ite (fun _ => ?_) fun _ => Accesses.pure _
  exact Accesses.newLabel.skip fun _ => Accesses.pure _

theorem accesses_switchOn (register : Int) (offsets : List Int) :
    Accesses scope (switchOn register offsets) {[.read register]} := by
  refine (accesses_loadAs hscope register .i32).thenSilent fun _ => ?_
  refine Accesses.skip (Accesses.mapM accesses_switchEntry) fun entries => .emit_bind rfl ?_
  refine Accesses.ite (fun _ => ?_) fun _ => Accesses.pure _
  refine Accesses.newLabel.skip fun skip => .emit_bind rfl ?_
  refine Accesses.skip (Accesses.forM fun exit => ?_) fun _ => Accesses.mark skip
  exact (Accesses.mark exit.1).skip fun _ => Accesses.emit rfl

/-! ## Traps -/

theorem accesses_throwValue (register : Int) :
    Accesses scope (throwValue register) {[.read register]} := by
  refine (accesses_loadAs hscope register .dynamic).thenSilent fun _ => ?_
  exact (accesses_callRuntime .exceptionNew).skip fun _ => Accesses.emit rfl

theorem accesses_rethrowValue (register : Int) :
    Accesses scope (rethrowValue register) {[.read register]} :=
  (accesses_loadAs hscope register .dynamic).thenSilent fun _ => accesses_callRuntime .rethrow

omit hscope in
theorem accesses_openTrap (register offset : Int) :
    Accesses scope (openTrap register offset) 1 := by
  have hregion : Accesses scope trapRegion 1 :=
    Accesses.read.skip fun _ => Accesses.get.skip fun _ => accesses_orUnsupported _ _
  refine (accesses_registerType register).skip fun _ => ?_
  refine (accesses_branchLabel offset).skip fun handler => hregion.skip fun region => ?_
  refine Accesses.skip (Accesses.quiet fun before result after hstep => ?_) fun _ =>
    Accesses.emit rfl
  cases hstep
  exact ⟨rfl, rfl, rfl⟩

omit hscope in
theorem accesses_popTrap? : Accesses scope popTrap? 1 := by
  refine Accesses.quiet fun before result after hstep => ?_
  cases hstep
  exact ⟨rfl, rfl, rfl⟩

/-- The register that receives a caught value is the one that the end names. -/
theorem accesses_closeTrap (register : Int) :
    Accesses scope (closeTrap register) {[.write register]} := by
  refine accesses_popTrap?.skip fun found => (accesses_orUnsupported _ _).skip fun frame => ?_
  refine Accesses.ite (fun _ => accesses_unsupported _) fun hsame => ?_
  rw [not_not.mp hsame]
  refine Accesses.newLabel.skip fun after => .emit_bind rfl (.emit_bind rfl ?_)
  refine (accesses_callRuntime .exceptionValue).skip fun _ => ?_
  refine (accesses_storeFrom hscope register .dynamic).thenSilent fun _ => ?_
  exact .emit_bind rfl (.emit_bind rfl (Accesses.mark after))

theorem accesses_nullCheck (register : Int) :
    Accesses scope (nullCheck register) (1 + {[.read register]}) := by
  refine (accesses_registerType register).skip fun type => Accesses.ite (fun _ => ?_) fun _ => ?_
  · refine Accesses.newLabel.skip fun present => ?_
    refine ((accesses_load hscope register).thenSilent fun _ => .emit_bind rfl ?_).right
    refine (accesses_callRuntime .nullCheckErrorNew).skip fun _ => ?_
    exact .emit_bind rfl (Accesses.mark present)
  · exact (Accesses.pure ()).left

/-! ## All instructions -/

/-- A return has code of its own behind what it reads, so it is left out. -/
theorem accesses_operation {op : Operation} (hreturn : op.opcode ≠ .ret) :
    Accesses scope (operation op) op.uses := by
  unfold operation Operation.uses
  dsimp only
  generalize op.opcode = opcode at hreturn
  match opcode, hreturn with
  | .mov, _ | .toDyn, _ => exact accesses_move hscope _ _
  | .int, _ => exact accesses_intConstant hscope _ _
  | .float, _ => exact accesses_floatConstant hscope _ _
  | .bool, _ => exact accesses_boolConstant hscope _ _
  | .bytes, _ => exact accesses_bytesConstant hscope _ _
  | .string, _ => exact accesses_stringConstant hscope _ _
  | .null, _ => exact accesses_nullConstant hscope _
  | .neg, _ => exact accesses_negate hscope _ _
  | .not, _ => exact accesses_complement hscope _ _
  | .incr, _ | .decr, _ => exact accesses_stepRegister hscope _ _
  | .add, _ | .sub, _ | .mul, _ | .sDiv, _ | .uDiv, _ | .sMod, _ | .uMod, _ | .shl, _
  | .sShr, _ | .uShr, _ | .and, _ | .or, _ | .xor, _ =>
      exact accesses_arithmetic hscope _ _ _ _
  | .call0, _ | .call1, _ | .call2, _ | .call3, _ | .call4, _ | .callN, _ =>
      exact accesses_directCall hscope _ _ _
  | .callMethod, _ => exact accesses_receiverCall hscope _ _ _
  | .callThis, _ => exact accesses_methodCall hscope _ _ _ _
  | .callClosure, _ => exact accesses_closureCall hscope _ _ _
  | .staticClosure, _ => exact accesses_staticClosure hscope _ _
  | .instanceClosure, _ => exact accesses_instanceClosure hscope _ _ _
  | .virtualClosure, _ => exact accesses_virtualClosure hscope _ _ _
  | .getGlobal, _ => exact accesses_getGlobal hscope _ _
  | .setGlobal, _ => exact accesses_setGlobal hscope _ _
  | .field, _ | .getThis, _ => exact accesses_getField hscope _ _ _
  | .setField, _ | .setThis, _ => exact accesses_setField hscope _ _ _
  | .dynGet, _ => exact accesses_getDynamic hscope _ _ _
  | .dynSet, _ => exact accesses_setDynamic hscope _ _ _
  | .jTrue, _ | .jFalse, _ => exact accesses_truthBranch hscope _ _ fun _ => rfl
  | .jNull, _ => exact accesses_nullBranch hscope _ _
  | .jNotNull, _ => exact accesses_notNullBranch hscope _ _
  | .jSLt, _ | .jSGte, _ | .jSGt, _ | .jSLte, _ | .jULt, _ | .jUGte, _ | .jNotLt, _
  | .jNotGte, _ | .jEq, _ | .jNotEq, _ => exact accesses_compareBranch hscope _ _ _ _
  | .jAlways, _ => exact accesses_jump _
  | .toSFloat, _ | .toUFloat, _ => exact accesses_toFloat hscope _ _ _
  | .toInt, _ => exact accesses_toInt hscope _ _
  | .safeCast, _ => exact accesses_safeCast hscope _ _
  | .uncheckedCast, _ => exact accesses_cast hscope _ _ _
  | .toVirtual, _ => exact accesses_toVirtual hscope _ _
  | .label, _ => exact Accesses.pure ()
  | .ret, hreturn => exact absurd rfl hreturn
  | .throw, _ => exact accesses_throwValue hscope _
  | .rethrow, _ => exact accesses_rethrowValue hscope _
  | .switch, _ => exact accesses_switchOn hscope _ _
  | .nullCheck, _ => exact accesses_nullCheck hscope _
  | .trap, _ => exact accesses_openTrap _ _
  | .endTrap, _ => exact accesses_closeTrap hscope _
  | .getI8, _ | .getI16, _ => exact accesses_getMemory hscope _ _ _ _
  | .getMem, _ =>
      exact (accesses_memoryWidth _).skip fun width => accesses_getMemory hscope _ _ _ width
  | .setI8, _ | .setI16, _ => exact accesses_setMemory hscope _ _ _ _
  | .setMem, _ =>
      exact (accesses_memoryWidth _).skip fun width => accesses_setMemory hscope _ _ _ width
  | .getArray, _ => exact accesses_getElement hscope _ _ _
  | .setArray, _ => exact accesses_setElement hscope _ _ _
  | .new, _ => exact accesses_newInstance hscope _
  | .arraySize, _ => exact accesses_arraySize hscope _ _
  | .type, _ => exact accesses_typeToken hscope _ _
  | .getType, _ => exact accesses_typeOfValue hscope _ _
  | .getTID, _ => exact accesses_kindOfType hscope _ _
  | .ref, _ => exact accesses_makeBox hscope _ _
  | .unref, _ => exact accesses_getBoxed hscope _ _
  | .setref, _ => exact accesses_setBoxed hscope _ _
  | .makeEnum, _ => exact accesses_makeEnum hscope _ _ _
  | .enumAlloc, _ => exact accesses_allocateEnum hscope _ _
  | .enumIndex, _ => exact accesses_enumIndex hscope _ _
  | .enumField, _ => exact accesses_getEnumField hscope _ _ _ _
  | .setEnumField, _ => exact accesses_setEnumField hscope _ _ _
  | .assert, _ => exact accesses_callRuntime .assert
  | .nop, _ => exact Accesses.emit rfl
  | .refData, _ | .refOffset, _ | .prefetch, _ | .asm, _ => exact accesses_gap

end Instructions

end Emit

end BytecodeLowering
