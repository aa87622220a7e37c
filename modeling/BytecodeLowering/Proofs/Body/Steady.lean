import BytecodeLowering.Body.Function
import BytecodeLowering.Proofs.Body.Tandem

/-!
# What lowering does not look at

Every instruction of the source is lowered alike in two settings that differ in
what lowering does not look at.  Two instructions look further: an unchecked safe
cast leaves out the casts that a checked one makes, and an instruction without
counterpart succeeds or not as the user has chosen.
-/

namespace BytecodeLowering

def Opcode.isGap : Opcode → Bool
  | .refData | .refOffset | .prefetch | .asm => true
  | _ => false

namespace Emit

abbrev Steady (scope : Scope) (other : Surroundings) (step : Emit α) : Prop :=
  Tandem true scope (scope.within other) step step

section Handlers

variable {scope : Scope} {other : Surroundings}

/-! ## Loads, stores and moves -/

theorem steady_convert (checked : Bool) (source target : TargetType) :
    Steady scope other (convert checked source target) := by
  have h : Tandem true scope (scope.within other) _ _ := tandem_convert source target checked
  rwa [Bool.and_true] at h

theorem steady_loadAs (register : Int) (target : TargetType) :
    Steady scope other (loadAs register target) :=
  (tandem_load register).bind fun source => steady_convert true source target

theorem steady_storeFrom (register : Int) (source : TargetType) :
    Steady scope other (storeFrom register source) := by
  refine (tandem_registerType register).bind fun target => ?_
  exact (steady_convert true source target).bind fun _ => tandem_store register

theorem steady_emit_store {instr : Instr} (hcommon : instr.isCommon = true) (target : Int) :
    Steady scope other (do
      emit instr
      store target) :=
  (tandem_emit hcommon).bind fun _ => tandem_store target

theorem steady_emit_storeFrom {instr : Instr} (hcommon : instr.isCommon = true) (target : Int)
    (type : TargetType) :
    Steady scope other (do
      emit instr
      storeFrom target type) :=
  (tandem_emit hcommon).bind fun _ => steady_storeFrom target type

theorem steady_call_storeFrom (member : RuntimeMember) (target : Int) (type : TargetType) :
    Steady scope other (do
      callRuntime member
      storeFrom target type) :=
  (tandem_callRuntime member).bind fun _ => steady_storeFrom target type

theorem steady_fromPool (pool : List α) (name : String) (index : Int) :
    Steady scope other (fromPool pool name index) :=
  tandem_orUnsupported _ _

theorem steady_move (target source : Int) : Steady scope other (move target source) := by
  refine (tandem_registerType target).bind fun type => ?_
  exact (steady_loadAs source type).bind fun _ => tandem_store target

theorem steady_intConstant (target index : Int) :
    Steady scope other (intConstant target index) := by
  refine .read ((steady_fromPool scope.image.ints "int" index).bind fun value => ?_)
  refine (tandem_registerType target).bind fun type => .ite (fun _ => ?_) fun _ => ?_
  · exact steady_emit_store rfl target
  · exact steady_emit_storeFrom rfl target _

theorem steady_floatConstant (target index : Int) :
    Steady scope other (floatConstant target index) :=
  .read ((steady_fromPool scope.image.floats "float" index).bind fun _ =>
    steady_emit_storeFrom rfl target _)

theorem steady_boolConstant (target value : Int) : Steady scope other (boolConstant target value) :=
  steady_emit_storeFrom rfl target _

theorem steady_stringConstant (target index : Int) :
    Steady scope other (stringConstant target index) := by
  refine .read ((steady_fromPool scope.image.strings "string" index).bind fun text => ?_)
  refine (tandem_emit rfl).bind fun _ => (tandem_registerType target).bind fun type => ?_
  refine .ite (fun _ => ?_) fun _ => steady_storeFrom target _
  exact (tandem_callRuntime _).bind fun _ => tandem_store target

theorem steady_bytesConstant (target index : Int) :
    Steady scope other (bytesConstant target index) := by
  have hrest (member : RuntimeMember) : Steady scope other (do
      callRuntime member
      storeFrom target .bytes) := steady_call_storeFrom member target _
  refine .read ((tandem_orUnsupported _ _).bind fun position => .ite (fun _ => ?_) fun _ => ?_)
  · refine (tandem_orUnsupported (scope.image.blob? position) _).bind fun blob => ?_
    exact (tandem_emit rfl).bind fun _ => hrest _
  · refine (steady_fromPool scope.image.strings "string" index).bind fun text => ?_
    exact (tandem_emit rfl).bind fun _ => hrest _

theorem steady_nullConstant (target : Int) : Steady scope other (nullConstant target) :=
  steady_emit_store rfl target

/-! ## Arithmetic -/

theorem steady_wrap (type : TargetType) : Steady scope other (wrap type) := by
  unfold wrap
  split
  · exact tandem_emit rfl
  · exact tandem_emit rfl
  · exact .pure ()

theorem steady_wrap_store (type : TargetType) (target : Int) :
    Steady scope other (do
      wrap type
      store target) :=
  (steady_wrap type).bind fun _ => tandem_store target

theorem steady_arithmeticType (target : Int) : Steady scope other (arithmeticType target) :=
  (tandem_registerType target).bind fun _ =>
    .ite (fun _ => .pure _) fun _ => tandem_unsupported _

theorem steady_negate (target source : Int) : Steady scope other (negate target source) := by
  refine (steady_arithmeticType target).bind fun type => ?_
  refine (steady_loadAs source type).bind fun _ => ?_
  exact (tandem_emit rfl).bind fun _ => steady_wrap_store type target

theorem steady_complement (target source : Int) :
    Steady scope other (complement target source) := by
  refine (steady_arithmeticType target).bind fun type => ?_
  refine (steady_loadAs source type).bind fun _ => ?_
  refine .ite (fun _ => ?_) fun _ => .ite (fun _ => ?_) fun _ => ?_
  · exact (tandem_emit rfl).bind fun _ => steady_emit_store rfl target
  · exact (tandem_unsupported _).bind fun _ => tandem_store target
  · exact (tandem_emit rfl).bind fun _ => steady_wrap_store type target

theorem steady_stepRegister (target : Int) (op : BinaryOp) :
    Steady scope other (stepRegister target op) := by
  have hone (type : TargetType) : (one type).isCommon = true := by
    unfold one
    split <;> rfl
  refine (steady_arithmeticType target).bind fun type => (tandem_load target).bind fun _ => ?_
  refine (tandem_emit (hone type)).bind fun _ => (tandem_emit rfl).bind fun _ => ?_
  exact steady_wrap_store type target

theorem steady_arithmetic (opcode : Opcode) (target left right : Int) :
    Steady scope other (arithmetic opcode target left right) := by
  refine (steady_arithmeticType target).bind fun type => ?_
  refine (tandem_orUnsupported _ _).bind fun op => (steady_loadAs left type).bind fun _ => ?_
  refine (steady_loadAs right _).bind fun _ => (tandem_emit rfl).bind fun _ => ?_
  exact steady_wrap_store type target

/-! ## Calls and closures -/

theorem steady_callee (function : Int) : Steady scope other (callee function) := by
  refine .read ?_
  rw [show (scope.within other).registry.function? = scope.registry.function? from rfl]
  split
  · exact .pure _
  · exact .throw _

theorem steady_pushArguments (args : List Int) (params : List TargetType) :
    Steady scope other (pushArguments args params) := by
  refine .ite (fun _ => .forM ?_) fun _ => tandem_unsupported _
  rintro ⟨register, type⟩ -
  exact steady_loadAs register type

theorem steady_storeResult (target : Int) (ret : TargetType) :
    Steady scope other (storeResult target ret) :=
  .ite (fun _ => steady_storeFrom target ret) fun _ => .pure ()

theorem steady_directCall (target function : Int) (args : List Int) :
    Steady scope other (directCall target function args) := by
  refine (steady_callee function).bind fun entry => ?_
  refine (steady_pushArguments args _).bind fun _ => (tandem_emit rfl).bind fun _ => ?_
  exact steady_storeResult target _

theorem steady_receiverSlot (receiver slot : Int) :
    Steady scope other (receiverSlot receiver slot) := by
  refine .read ((tandem_sourceTypeIndex receiver).bind fun index => ?_)
  refine (tandem_sourceType receiver).bind fun source => ?_
  split
  case h_1 | h_2 =>
    refine (tandem_orUnsupported (scope.registry.object? index) _).bind fun shape => ?_
    split
    · exact .pure _
    · exact tandem_throwAt _
  case h_3 =>
    refine (tandem_orUnsupported (scope.registry.virtual? index) _).bind fun shape => ?_
    split
    · exact (tandem_orUnsupported _ _).bind fun signature => .pure _
    · exact tandem_throwAt _
  case h_4 => exact tandem_unsupported _

theorem steady_invoke (target : Int) (args : List Int) (signature : Signature) :
    Steady scope other (do
      pushArguments args signature.params
      emit (.invokeDelegate signature)
      storeResult target signature.ret) := by
  refine (steady_pushArguments args _).bind fun _ => (tandem_emit rfl).bind fun _ => ?_
  exact steady_storeResult target _

theorem steady_methodCall (target receiver slot : Int) (args : List Int) :
    Steady scope other (methodCall target receiver slot args) := by
  refine (steady_receiverSlot receiver slot).bind fun found => ?_
  refine (tandem_load receiver).bind fun _ => (tandem_emit rfl).bind fun _ => ?_
  exact steady_invoke target args _

theorem steady_receiverCall (target slot : Int) (args : List Int) :
    Steady scope other (receiverCall target slot args) := by
  cases args with
  | nil => exact tandem_unsupported _
  | cons receiver args => exact steady_methodCall target receiver slot args

theorem steady_dynamicCall (target closure : Int) (args : List Int) :
    Steady scope other (dynamicCall target closure args) := by
  refine (tandem_load closure).bind fun _ => (tandem_emit rfl).bind fun _ => ?_
  refine (tandem_emit rfl).bind fun _ => Tandem.bind (.forM ?_) fun _ => ?_
  · rintro ⟨register, position⟩ -
    refine (tandem_emit rfl).bind fun _ => (tandem_emit rfl).bind fun _ => ?_
    exact (steady_loadAs register _).bind fun _ => tandem_emit rfl
  · refine (tandem_callRuntime _).bind fun _ => tandem_bridge.bind fun _ => ?_
    exact steady_storeResult target _

theorem steady_closureCall (target closure : Int) (args : List Int) :
    Steady scope other (closureCall target closure args) := by
  refine (tandem_registerType closure).bind fun type => ?_
  split
  · exact steady_dynamicCall target closure args
  · exact (tandem_load closure).bind fun _ => steady_invoke target args _
  · exact tandem_unsupported _

theorem steady_staticClosure (target function : Int) :
    Steady scope other (staticClosure target function) :=
  (steady_callee function).bind fun _ => (tandem_emit rfl).bind fun _ => steady_storeResult target _

theorem steady_instanceClosure (target function receiver : Int) :
    Steady scope other (instanceClosure target function receiver) := by
  refine (steady_callee function).bind fun entry => ?_
  split
  · exact tandem_unsupported _
  · refine (steady_loadAs receiver _).bind fun _ => (tandem_emit rfl).bind fun _ => ?_
    exact steady_storeResult target _

theorem steady_virtualClosure (target receiver slot : Int) :
    Steady scope other (virtualClosure target receiver slot) := by
  refine (steady_receiverSlot receiver slot).bind fun found => ?_
  refine (tandem_load receiver).bind fun _ => (tandem_emit rfl).bind fun _ => ?_
  exact steady_storeResult target _

/-! ## Fields and globals -/

theorem steady_fieldOf (register field : Int) : Steady scope other (fieldOf register field) := by
  refine .read ((tandem_sourceTypeIndex register).bind fun index => ?_)
  refine (tandem_sourceType register).bind fun source => ?_
  split
  case h_1 object | h_2 object =>
    rw [show (scope.within other).registry.object? index = scope.registry.object? index from rfl]
    split
    · exact .pure _
    · exact tandem_throwAt _
  case h_3 =>
    rw [show (scope.within other).registry.virtual? index = scope.registry.virtual? index from rfl]
    split
    · exact .pure _
    · exact tandem_throwAt _
  case h_4 => exact tandem_unsupported _

theorem steady_getField (target register field : Int) :
    Steady scope other (getField target register field) := by
  refine (steady_fieldOf register field).bind fun found => (tandem_load register).bind fun _ => ?_
  exact steady_emit_storeFrom rfl target _

theorem steady_setField (register field source : Int) :
    Steady scope other (setField register field source) := by
  refine (steady_fieldOf register field).bind fun found => (tandem_load register).bind fun _ => ?_
  exact (steady_loadAs source _).bind fun _ => tandem_emit rfl

theorem steady_fieldName (index : Int) : Steady scope other (fieldName index) :=
  .read (tandem_orUnsupported (index.toNat?.bind (scope.image.strings[·]?)) _)

theorem steady_getDynamic (target register name : Int) :
    Steady scope other (getDynamic target register name) := by
  refine (steady_fieldName name).bind fun name => (steady_loadAs register _).bind fun _ => ?_
  exact (tandem_emit rfl).bind fun _ => steady_call_storeFrom _ target _

theorem steady_setDynamic (register name source : Int) :
    Steady scope other (setDynamic register name source) := by
  refine (steady_fieldName name).bind fun name => (steady_loadAs register _).bind fun _ => ?_
  refine (tandem_emit rfl).bind fun _ => (steady_loadAs source _).bind fun _ => ?_
  exact tandem_callRuntime _

theorem steady_globalOf (index : Int) : Steady scope other (globalOf index) :=
  .read (tandem_orUnsupported (index.toNat?.bind fun id =>
    scope.registry.target.globals[id]?.map fun slot => (id, slot.type)) _)

theorem steady_getGlobal (target index : Int) : Steady scope other (getGlobal target index) :=
  (steady_globalOf index).bind fun _ => steady_emit_storeFrom rfl target _

theorem steady_setGlobal (index source : Int) : Steady scope other (setGlobal index source) :=
  (steady_globalOf index).bind fun _ => (steady_loadAs source _).bind fun _ => tandem_emit rfl

/-! ## Casts and records -/

theorem steady_toFloat (target source : Int) (unsigned : Bool) :
    Steady scope other (toFloat target source unsigned) := by
  have hrest : Steady scope other (do
      emit (.conv .r8)
      storeFrom target .f64) := steady_emit_storeFrom rfl target _
  refine (tandem_load source).bind fun type => .ite (fun _ => ?_) fun _ => ?_
  · exact steady_storeFrom target type
  · refine .ite (fun _ => tandem_unsupported _) fun _ => .ite (fun _ => ?_) fun _ => hrest
    exact (tandem_emit rfl).bind fun _ => hrest

theorem steady_toInt (target source : Int) : Steady scope other (toInt target source) := by
  refine (tandem_registerType target).bind fun wanted => ?_
  refine (tandem_load source).bind fun type => .ite (fun _ => ?_) fun _ => ?_
  · refine .ite (fun _ => ?_) fun _ => ?_
    · exact steady_emit_storeFrom rfl target _
    · exact steady_emit_storeFrom rfl target _
  · exact (steady_convert true type wanted).bind fun _ => tandem_store target

theorem steady_cast (target source : Int) (checked : Bool) :
    Steady scope other (cast target source checked) := by
  have h : Tandem true scope (scope.within other) _ _ := tandem_cast checked target source
  rwa [Bool.and_true] at h

theorem steady_pushOrigin (source : Int) (name : String) (wanted : TargetType)
    (origin : FieldOrigin) : Steady scope other (pushOrigin source name wanted origin) := by
  cases origin with
  | field field type =>
      refine (tandem_load source).bind fun _ => (tandem_emit rfl).bind fun _ => ?_
      exact steady_convert true type wanted
  | dynamic =>
      refine (steady_loadAs source _).bind fun _ => (tandem_emit rfl).bind fun _ => ?_
      exact (tandem_callRuntime _).bind fun _ => steady_convert true _ wanted

theorem steady_copyField (source : Int) (item : FlatField × FieldOrigin) :
    Steady scope other (copyField source item) := by
  refine (tandem_emit rfl).bind fun _ => ?_
  exact (steady_pushOrigin source _ _ _).bind fun _ => tandem_emit rfl

theorem steady_toVirtual (target source : Int) : Steady scope other (toVirtual target source) := by
  refine .read ((tandem_sourceTypeIndex target).bind fun index => ?_)
  refine (tandem_orUnsupported (scope.registry.virtual? index) _).bind fun shape => ?_
  refine (tandem_sourceTypeIndex source).bind fun sourceIndex => ?_
  refine (tandem_sourceType source).bind fun origin => ?_
  refine .ite (fun _ => tandem_unsupported _) fun _ => (tandem_emit rfl).bind fun _ => ?_
  exact Tandem.bind (.forM fun item _ => steady_copyField source item) fun _ =>
    steady_storeFrom target _

/-! ## Instances, byte strings, arrays and boxes -/

theorem steady_construct (target : Int) (constructor : MethodId) (type : TargetType) :
    Steady scope other (construct target constructor type) :=
  steady_emit_storeFrom rfl target type

theorem steady_newInstance (target : Int) : Steady scope other (newInstance target) := by
  refine .read ((tandem_sourceTypeIndex target).bind fun index => ?_)
  refine (tandem_sourceType target).bind fun source => ?_
  split
  case h_1 | h_2 =>
    refine (tandem_orUnsupported (scope.registry.object? index) _).bind fun shape => ?_
    exact steady_construct target _ _
  case h_3 =>
    refine (tandem_orUnsupported (scope.registry.virtual? index) _).bind fun shape => ?_
    exact steady_construct target _ _
  case h_4 | h_5 => exact (tandem_emit rfl).bind fun _ => steady_call_storeFrom _ target _
  case h_6 => exact tandem_unsupported _

theorem steady_memoryWidth (register : Int) : Steady scope other (memoryWidth register) := by
  refine (tandem_sourceType register).bind fun source => ?_
  split
  all_goals first | exact .pure _ | exact tandem_unsupported _

theorem steady_getMemory (target bytes position : Int) (width : MemoryWidth) :
    Steady scope other (getMemory target bytes position width) := by
  refine (steady_loadAs bytes _).bind fun _ => (steady_loadAs position _).bind fun _ => ?_
  exact steady_call_storeFrom _ target _

theorem steady_setMemory (bytes position source : Int) (width : MemoryWidth) :
    Steady scope other (setMemory bytes position source width) := by
  refine (steady_loadAs bytes _).bind fun _ => (steady_loadAs position _).bind fun _ => ?_
  exact (steady_loadAs source _).bind fun _ => tandem_callRuntime _

theorem steady_arraySize (target array : Int) : Steady scope other (arraySize target array) :=
  (steady_loadAs array _).bind fun _ => steady_call_storeFrom _ target _

theorem steady_getElement (target array position : Int) :
    Steady scope other (getElement target array position) := by
  refine (steady_loadAs array _).bind fun _ => (steady_loadAs position _).bind fun _ => ?_
  exact steady_emit_storeFrom rfl target _

theorem steady_setElement (array position source : Int) :
    Steady scope other (setElement array position source) := by
  refine (steady_loadAs array _).bind fun _ => (steady_loadAs position _).bind fun _ => ?_
  exact (steady_loadAs source _).bind fun _ => tandem_emit rfl

theorem steady_typeToken (target type : Int) : Steady scope other (typeToken target type) := by
  refine .read ((tandem_orUnsupported _ _).bind fun index => ?_)
  rw [show (scope.within other).registry.mapType (scope.within other).image = _ from
    Registry.mapType_within scope.image scope.registry other]
  refine (tandem_ofExcept _).bind fun mapped => ?_
  exact steady_emit_storeFrom rfl target _

theorem steady_typeOfValue (target source : Int) : Steady scope other (typeOfValue target source) :=
  (steady_loadAs source _).bind fun _ => steady_call_storeFrom _ target _

theorem steady_kindOfType (target source : Int) : Steady scope other (kindOfType target source) :=
  (steady_loadAs source _).bind fun _ => steady_call_storeFrom _ target _

theorem steady_boxed (register : Int) : Steady scope other (boxed register) := by
  refine (tandem_registerType register).bind fun type => ?_
  split
  · exact .pure _
  · exact tandem_unsupported _

theorem steady_makeBox (target source : Int) : Steady scope other (makeBox target source) :=
  (tandem_load source).bind fun _ => steady_call_storeFrom _ target _

theorem steady_getBoxed (target box : Int) : Steady scope other (getBoxed target box) :=
  (steady_boxed box).bind fun _ => (tandem_load box).bind fun _ => steady_call_storeFrom _ target _

theorem steady_setBoxed (box source : Int) : Steady scope other (setBoxed box source) := by
  refine (steady_boxed box).bind fun inner => (tandem_load box).bind fun _ => ?_
  exact (steady_loadAs source inner).bind fun _ => tandem_callRuntime _

/-! ## Values of enum types -/

theorem steady_enumOf (register : Int) : Steady scope other (enumOf register) := by
  refine .read ((tandem_sourceTypeIndex register).bind fun index => ?_)
  exact (tandem_orUnsupported (scope.registry.enum? index) _).bind fun shape =>
    .pure (((scope.registry.declaration? index).map (·.decl)).getD 0, shape)

theorem steady_constructOf (shape : EnumShape) (construct : Int) :
    Steady scope other (constructOf shape construct) :=
  tandem_orUnsupported _ _

theorem steady_makeEnum (target construct : Int) (args : List Int) :
    Steady scope other (makeEnum target construct args) := by
  refine (steady_enumOf target).bind fun found => ?_
  refine (steady_constructOf found.2 construct).bind fun construct => ?_
  refine .ite (fun _ => Tandem.bind (.forM ?_) fun _ => ?_) fun _ => tandem_unsupported _
  · rintro ⟨register, field⟩ -
    exact steady_loadAs register field.type
  · exact steady_construct target _ _

theorem steady_allocateEnum (target construct : Int) :
    Steady scope other (allocateEnum target construct) := by
  refine (steady_enumOf target).bind fun found => ?_
  refine (steady_constructOf found.2 construct).bind fun construct => ?_
  refine Tandem.bind (.forM fun field _ => tandem_pushDefault field.type) fun _ => ?_
  exact steady_construct target _ _

theorem steady_enumIndex (target source : Int) : Steady scope other (enumIndex target source) := by
  refine (steady_enumOf source).bind fun found => (tandem_load source).bind fun _ => ?_
  exact steady_emit_storeFrom rfl target _

theorem steady_enumParameter (value construct field : Int) :
    Steady scope other (enumParameter value construct field) := by
  refine (steady_enumOf value).bind fun found => ?_
  refine (steady_constructOf found.2 construct).bind fun construct => ?_
  split
  · exact .pure _
  · exact tandem_throwAt _

theorem steady_getEnumField (target value construct field : Int) :
    Steady scope other (getEnumField target value construct field) := by
  refine (steady_enumParameter value construct field).bind fun found => ?_
  refine (tandem_load value).bind fun _ => (tandem_castClass _).bind fun _ => ?_
  exact steady_emit_storeFrom rfl target _

theorem steady_setEnumField (value field source : Int) :
    Steady scope other (setEnumField value field source) := by
  refine (steady_enumParameter value 0 field).bind fun found => ?_
  refine (tandem_load value).bind fun _ => (tandem_castClass _).bind fun _ => ?_
  exact (steady_loadAs source _).bind fun _ => tandem_emit rfl

/-! ## Branches -/

section Branches

variable (hlength : other.operations.length = scope.function.operations.length)

include hlength

theorem steady_branchLabel (offset : Int) : Steady scope other (branchLabel offset) := by
  refine .get fun progress body line opcode => ?_
  rw [show (progress.recast body line opcode).position = progress.position from rfl]
  dsimp only
  split
  · rename_i position _
    refine .read ?_
    have hsame : (scope.within other).function.operations.length
        = scope.function.operations.length := hlength
    rw [hsame]
    exact .ite (fun _ => .pure position) fun _ => tandem_throwAt _
  · exact tandem_throwAt _

omit hlength in
theorem leavesTrap_recast (progress : Progress) (body : List Instr) (line : Option SourceLine)
    (opcode : Opcode) (offset : Int) :
    leavesTrap (progress.recast body line opcode) offset = leavesTrap progress offset := by
  unfold leavesTrap
  rw [show (progress.recast body line opcode).traps = progress.traps from rfl,
    show (progress.recast body line opcode).position = progress.position from rfl]

theorem steady_jump (offset : Int) : Steady scope other (jump offset) := by
  refine (steady_branchLabel hlength offset).bind fun target => .get fun progress _ _ _ => ?_
  rw [leavesTrap_recast]
  split
  · exact tandem_emit rfl
  · exact tandem_emit rfl

theorem steady_branch (offset : Int) {make : Label → Instr}
    (hcommon : ∀ label, (make label).isCommon = true) :
    Steady scope other (branch offset make) := by
  refine (steady_branchLabel hlength offset).bind fun target => .get fun progress _ _ _ => ?_
  rw [leavesTrap_recast]
  refine .ite (fun _ => ?_) fun _ => tandem_emit (hcommon _)
  refine tandem_newLabel.bind fun taken => tandem_newLabel.bind fun skip => ?_
  refine (tandem_emit (hcommon _)).bind fun _ => (tandem_emit rfl).bind fun _ => ?_
  refine (tandem_mark taken).bind fun _ => (tandem_emit rfl).bind fun _ => ?_
  exact tandem_mark skip

theorem steady_truthBranch (register offset : Int) {make : Label → Instr}
    (hcommon : ∀ label, (make label).isCommon = true) :
    Steady scope other (truthBranch register offset make) :=
  (tandem_load register).bind fun _ => steady_branch hlength offset hcommon

theorem steady_nullBranch (register offset : Int) :
    Steady scope other (nullBranch register offset) := by
  refine (tandem_registerType register).bind fun type => .ite (fun _ => ?_) fun _ => .pure ()
  exact steady_truthBranch hlength register offset fun _ => rfl

theorem steady_notNullBranch (register offset : Int) :
    Steady scope other (notNullBranch register offset) := by
  refine (tandem_registerType register).bind fun type => .ite (fun _ => ?_) fun _ => ?_
  · exact steady_jump hlength offset
  · exact steady_truthBranch hlength register offset fun _ => rfl

theorem steady_compareBranch (comparison : Comparison) (left right offset : Int) :
    Steady scope other (compareBranch comparison left right offset) := by
  refine (tandem_registerType left).bind fun a => (tandem_registerType right).bind fun b => ?_
  refine .ite (fun _ => tandem_unsupported _) fun _ => ?_
  refine (steady_loadAs left _).bind fun _ => (steady_loadAs right _).bind fun _ => ?_
  exact steady_branch hlength offset fun _ => rfl

theorem steady_switchEntry (offset : Int) : Steady scope other (switchEntry offset) := by
  refine (steady_branchLabel hlength offset).bind fun target => .get fun progress _ _ _ => ?_
  rw [leavesTrap_recast]
  exact .ite (fun _ => tandem_newLabel.bind fun taken => .pure _) fun _ => .pure _

theorem steady_switchOn (register : Int) (offsets : List Int) :
    Steady scope other (switchOn register offsets) := by
  refine (steady_loadAs register _).bind fun _ => ?_
  refine Tandem.bind (.mapM fun offset _ => steady_switchEntry hlength offset) fun entries => ?_
  refine (tandem_emit rfl).bind fun _ => .ite (fun _ => ?_) fun _ => .pure ()
  refine tandem_newLabel.bind fun skip => (tandem_emit rfl).bind fun _ => ?_
  refine Tandem.bind (.forM fun exit _ => ?_) fun _ => tandem_mark skip
  exact (tandem_mark _).bind fun _ => tandem_emit rfl

/-! ## Traps and returns -/

theorem steady_openTrap (register offset : Int) :
    Steady scope other (openTrap register offset) := by
  refine (tandem_registerType register).bind fun _ => ?_
  refine (steady_branchLabel hlength offset).bind fun handler => ?_
  have hregion : Steady scope other trapRegion :=
    .read (.get fun progress _ _ _ =>
      tandem_orUnsupported (scope.flow.regionAt? progress.position) _)
  refine hregion.bind fun region => Tandem.bind ?_ fun _ => tandem_emit rfl
  exact .silent (fun _ => .idle rfl rfl rfl rfl) fun _ _ _ _ => rfl

end Branches

theorem steady_popTrap? : Steady scope other popTrap? :=
  .silent (fun _ => .idle rfl rfl rfl rfl) fun _ _ _ _ => rfl

theorem steady_closeTrap (register : Int) : Steady scope other (closeTrap register) := by
  refine steady_popTrap?.bind fun found => (tandem_orUnsupported _ _).bind fun frame => ?_
  refine .ite (fun _ => tandem_unsupported _) fun _ => tandem_newLabel.bind fun after => ?_
  refine (tandem_emit rfl).bind fun _ => (tandem_emit rfl).bind fun _ => ?_
  refine (tandem_callRuntime _).bind fun _ => (steady_storeFrom _ _).bind fun _ => ?_
  exact (tandem_emit rfl).bind fun _ => (tandem_emit rfl).bind fun _ => tandem_mark after

theorem steady_throwValue (register : Int) : Steady scope other (throwValue register) :=
  (steady_loadAs register _).bind fun _ => (tandem_callRuntime _).bind fun _ => tandem_emit rfl

theorem steady_rethrowValue (register : Int) : Steady scope other (rethrowValue register) :=
  (steady_loadAs register _).bind fun _ => tandem_callRuntime _

theorem steady_nullCheck (register : Int) : Steady scope other (nullCheck register) := by
  refine (tandem_registerType register).bind fun type => .ite (fun _ => ?_) fun _ => .pure ()
  refine tandem_newLabel.bind fun present => (tandem_load register).bind fun _ => ?_
  refine (tandem_emit rfl).bind fun _ => (tandem_callRuntime _).bind fun _ => ?_
  exact (tandem_emit rfl).bind fun _ => tandem_mark present

theorem steady_declareLocal (type : TargetType) : Steady scope other (declareLocal type) :=
  .silent (fun _ => .idle rfl rfl rfl rfl) fun _ _ _ _ => rfl

theorem steady_returnExit (type : TargetType) : Steady scope other (returnExit type) := by
  have hslot (label : Label) (slot : Option UInt16) : Steady scope other (do
      modify fun progress => { progress with returnExit := some { label, slot } }
      return { label, slot } : Emit ReturnExit) := by
    refine Tandem.bind ?_ fun _ => .pure _
    exact .silent (fun _ => .idle rfl rfl rfl rfl) fun _ _ _ _ => rfl
  refine .get fun progress body line opcode => ?_
  rw [show (progress.recast body line opcode).returnExit = progress.returnExit from rfl]
  split
  · exact .pure _
  · refine tandem_newLabel.bind fun label => .ite (fun _ => ?_) fun _ => ?_
    · exact hslot label none
    · exact Tandem.bind ((steady_declareLocal type).bind fun slot => .pure _) (hslot label)

theorem steady_ret (register : Int) : Steady scope other (ret register) := by
  refine .read (.ite (fun _ => (steady_loadAs register _).bind fun _ => ?_) fun _ => ?_)
  -- what follows is the same with and without a value
  all_goals
    refine .get fun progress _ _ _ => .ite (fun _ => tandem_emit rfl) fun _ => ?_
    refine (steady_returnExit _).bind fun exit => ?_
    split
    · exact (tandem_emit rfl).bind fun _ => tandem_emit rfl
    · exact tandem_emit rfl

theorem steady_closeExit : Steady scope other closeExit := by
  refine .get fun progress body line opcode => ?_
  rw [show (progress.recast body line opcode).returnExit = progress.returnExit from rfl]
  split
  · rename_i exit _
    refine (tandem_mark _).bind fun _ => .forM fun instr hinstr => ?_
    have hcommon : instr.isCommon = true := by
      unfold exitCode at hinstr
      split at hinstr <;> simp at hinstr
      · rcases hinstr with rfl | rfl <;> rfl
      · rw [hinstr]
        rfl
    exact tandem_emit hcommon
  · exact .pure ()

/-! ## The two instructions that look further -/

theorem steady_safeCast (target source : Int)
    (hsettings : other.settings.safeCast = scope.settings.safeCast) :
    Steady scope other (safeCast target source) := by
  refine .read ?_
  rw [show (scope.within other).settings.safeCast = _ from hsettings]
  exact steady_cast target source _

theorem tandem_safeCast (target source : Int) (hscope : scope.settings.safeCast = .checked)
    (hother : other.settings.safeCast = .unchecked) :
    Tandem false scope (scope.within other) (safeCast target source) (safeCast target source) := by
  refine .read ?_
  rw [show (scope.within other).settings.safeCast = _ from hother, hscope]
  exact tandem_cast true target source

theorem tandem_uncheckedCast (target source : Int)
    (hscope : scope.settings.safeCast = .unchecked) :
    Tandem true scope (scope.within other) (safeCast target source) (cast target source false) := by
  change Tandem true scope (scope.within other)
    (cast target source (scope.settings.safeCast == .checked)) _
  rw [hscope]
  exact steady_cast target source false

theorem gap_strict (h : scope.settings.gapPolicy = .strict) (before : Progress) :
    gap scope before
      = .error (.loweringGap ⟨scope.function.index, before.position⟩ before.opcode) before := by
  obtain ⟨_, _, ⟨_, _, policy, _⟩, _, _, _, _⟩ := scope
  cases h
  rfl

theorem gap_bestEffort (h : scope.settings.gapPolicy = .bestEffort) (before : Progress) :
    gap scope before = .ok () { before with
      builder := before.builder.emit .nop
      stats := { before.stats with gaps := before.stats.gaps + 1 } } := by
  obtain ⟨_, _, ⟨_, _, policy, _⟩, _, _, _, _⟩ := scope
  cases h
  rfl

theorem tandem_gap (hsettings : other.settings.gapPolicy = scope.settings.gapPolicy) :
    Tandem true scope (scope.within other) gap gap 1 := by
  intro before body line opcode
  cases hpolicy : scope.settings.gapPolicy with
  | strict =>
      have hother : (scope.within other).settings.gapPolicy = _ := hsettings.trans hpolicy
      rw [gap_strict hpolicy, gap_strict hother]
      refine .error ?_
      rintro rfl
      rfl
  | bestEffort =>
      have hother : (scope.within other).settings.gapPolicy = _ := hsettings.trans hpolicy
      rw [gap_bestEffort hpolicy, gap_bestEffort hother]
      exact .ok ⟨rfl, by simp [Instr.isPoint], rfl, rfl, rfl⟩ rfl

end Handlers

/-! ## Every instruction -/

section Operations

variable {scope : Scope} {other : Surroundings}
  (hlength : other.operations.length = scope.function.operations.length)

include hlength

theorem steady_operation {op : Operation} (hgap : op.opcode.isGap = false)
    (hsafe : op.opcode = .safeCast → other.settings.safeCast = scope.settings.safeCast) :
    Steady scope other (operation op) := by
  unfold operation
  dsimp only
  match hop : op.opcode with
  | .mov | .toDyn => exact steady_move _ _
  | .int => exact steady_intConstant _ _
  | .float => exact steady_floatConstant _ _
  | .bool => exact steady_boolConstant _ _
  | .bytes => exact steady_bytesConstant _ _
  | .string => exact steady_stringConstant _ _
  | .null => exact steady_nullConstant _
  | .neg => exact steady_negate _ _
  | .not => exact steady_complement _ _
  | .incr | .decr => exact steady_stepRegister _ _
  | .add | .sub | .mul | .sDiv | .uDiv | .sMod | .uMod | .shl | .sShr | .uShr | .and | .or
  | .xor => exact steady_arithmetic _ _ _ _
  | .call0 | .call1 | .call2 | .call3 | .call4 | .callN => exact steady_directCall _ _ _
  | .callMethod => exact steady_receiverCall _ _ _
  | .callThis => exact steady_methodCall _ _ _ _
  | .callClosure => exact steady_closureCall _ _ _
  | .staticClosure => exact steady_staticClosure _ _
  | .instanceClosure => exact steady_instanceClosure _ _ _
  | .virtualClosure => exact steady_virtualClosure _ _ _
  | .getGlobal => exact steady_getGlobal _ _
  | .setGlobal => exact steady_setGlobal _ _
  | .field | .getThis => exact steady_getField _ _ _
  | .setField | .setThis => exact steady_setField _ _ _
  | .dynGet => exact steady_getDynamic _ _ _
  | .dynSet => exact steady_setDynamic _ _ _
  | .jTrue | .jFalse => exact steady_truthBranch hlength _ _ fun _ => rfl
  | .jNull => exact steady_nullBranch hlength _ _
  | .jNotNull => exact steady_notNullBranch hlength _ _
  | .jSLt | .jSGte | .jSGt | .jSLte | .jULt | .jUGte | .jNotLt | .jNotGte | .jEq | .jNotEq =>
      exact steady_compareBranch hlength _ _ _ _
  | .jAlways => exact steady_jump hlength _
  | .toSFloat | .toUFloat => exact steady_toFloat _ _ _
  | .toInt => exact steady_toInt _ _
  | .safeCast => exact steady_safeCast _ _ (hsafe hop)
  | .uncheckedCast => exact steady_cast _ _ _
  | .toVirtual => exact steady_toVirtual _ _
  | .label => exact .pure ()
  | .ret => exact steady_ret _
  | .throw => exact steady_throwValue _
  | .rethrow => exact steady_rethrowValue _
  | .switch => exact steady_switchOn hlength _ _
  | .nullCheck => exact steady_nullCheck _
  | .trap => exact steady_openTrap hlength _ _
  | .endTrap => exact steady_closeTrap _
  | .getI8 | .getI16 => exact steady_getMemory _ _ _ _
  | .getMem => exact (steady_memoryWidth _).bind fun width => steady_getMemory _ _ _ width
  | .setI8 | .setI16 => exact steady_setMemory _ _ _ _
  | .setMem => exact (steady_memoryWidth _).bind fun width => steady_setMemory _ _ _ width
  | .getArray => exact steady_getElement _ _ _
  | .setArray => exact steady_setElement _ _ _
  | .new => exact steady_newInstance _
  | .arraySize => exact steady_arraySize _ _
  | .type => exact steady_typeToken _ _
  | .getType => exact steady_typeOfValue _ _
  | .getTID => exact steady_kindOfType _ _
  | .ref => exact steady_makeBox _ _
  | .unref => exact steady_getBoxed _ _
  | .setref => exact steady_setBoxed _ _
  | .makeEnum => exact steady_makeEnum _ _ _
  | .enumAlloc => exact steady_allocateEnum _ _
  | .enumIndex => exact steady_enumIndex _ _
  | .enumField => exact steady_getEnumField _ _ _ _
  | .setEnumField => exact steady_setEnumField _ _ _
  | .assert => exact tandem_callRuntime .assert
  | .nop => exact tandem_emit rfl
  | .refData | .refOffset | .prefetch | .asm =>
      rw [hop] at hgap
      cases hgap

omit hlength in
theorem operation_of_isGap {op : Operation} (h : op.opcode.isGap = true) : operation op = gap := by
  unfold Opcode.isGap at h
  split at h
  case h_5 => cases h
  all_goals
    rename_i hop
    simp only [operation, hop]

theorem tandem_operation {op : Operation}
    (hgap : other.settings.gapPolicy = scope.settings.gapPolicy ∨ op.opcode.isGap = false)
    (hsafe : op.opcode = .safeCast → other.settings.safeCast = scope.settings.safeCast) :
    Tandem true scope (scope.within other) (operation op) (operation op)
      (if op.opcode.isGap then 1 else 0) := by
  cases hisGap : op.opcode.isGap with
  | false => exact steady_operation hlength hisGap hsafe
  | true =>
      rw [operation_of_isGap hisGap]
      rcases hgap with hgap | hplain
      · exact tandem_gap hgap
      · rw [hplain] at hisGap
        cases hisGap

end Operations

end Emit

end BytecodeLowering
