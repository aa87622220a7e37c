import BytecodeLowering.Body.Function
import BytecodeLowering.Proofs.Body.Coercion

/-!
# Fragments of the instructions

The fragments of the instructions after which control goes on.  Each of them
leaves the stack at the height at which it found it, provided that what it
stores does not go into a void register.
-/

namespace BytecodeLowering

theorem TargetType.Held.of_isValue {type : TargetType} (h : type.isValue = true) : type.Held := by
  unfold TargetType.isValue at h
  split at h
  all_goals first | exact ⟨by decide, .builtin _⟩ | cases h

theorem TargetType.Held.builtin (type : Builtin) (h : type ≠ .void) :
    TargetType.Held (.builtin type) :=
  ⟨by simpa using h, .builtin type⟩

def Scope.Stores (scope : Scope) (register : Int) : Prop :=
  scope.typeOf? register ≠ some .void

def Registry.calledSignature? (registry : Registry) (index : TypeIndex) (slot : Int) :
    Option Signature :=
  match registry.object? index with
  | some shape => (shape.slot? slot).map (·.signature)
  | none => ((registry.virtual? index).bind (·.field? slot)).bind (·.type.signature?)

theorem Registry.object?_of_virtual? {registry : Registry} {index : TypeIndex}
    {shape : VirtualShape} (h : registry.virtual? index = some shape) :
    registry.object? index = none := by
  unfold Registry.virtual? at h
  unfold Registry.object?
  split at h
  · rename_i hdeclaration
    rw [hdeclaration]
  · cases h

theorem VirtualShape.Sound.field? {module : TargetModule} {shape : VirtualShape}
    (h : shape.Sound module) {index : Int} {field : FlatField} (hfield : shape.field? index = some field) :
    field.type.Held := by
  obtain ⟨position, -, hposition⟩ := Option.bind_eq_some_iff.mp hfield
  exact h.fields field (List.mem_of_getElem? hposition)

theorem ObjectShape.Sound.field? {module : TargetModule} {shape : ObjectShape}
    (h : shape.Sound module) {index : Int} {field : FlatField} (hfield : shape.field? index = some field) :
    field.type.Held := by
  obtain ⟨position, -, hposition⟩ := Option.bind_eq_some_iff.mp hfield
  exact h.fields field (List.mem_of_getElem? hposition)

theorem Registry.Sound.calledSignature? {registry : Registry} (h : registry.Sound)
    {index : TypeIndex} {slot : Int} {signature : Signature}
    (hsignature : registry.calledSignature? index slot = some signature) : signature.Proper := by
  unfold Registry.calledSignature? at hsignature
  split at hsignature
  · rename_i shape hshape
    obtain ⟨found, hfound, rfl⟩ := Option.map_eq_some_iff.mp hsignature
    obtain ⟨position, -, hposition⟩ := Option.bind_eq_some_iff.mp hfound
    exact (h.objects index shape hshape).slots found (List.mem_of_getElem? hposition)
  · obtain ⟨found, hfound, htype⟩ := Option.bind_eq_some_iff.mp hsignature
    obtain ⟨shape, hshape, hfield⟩ := Option.bind_eq_some_iff.mp hfound
    have hproper := ((h.virtuals index shape hshape).field? hfield).proper
    cases hdelegate : found.type with
    | delegate params ret =>
        rw [hdelegate] at htype hproper
        cases htype
        exact hproper.signature
    | _ =>
        rw [hdelegate] at htype
        cases htype

namespace Emit

variable {typed : Prop} {scope : Scope} {depth : Nat} (hscope : typed → scope.Sound)

/-! ## Values -/

theorem emits_fromPool (pool : List α) (name : String) (index : Int) :
    Emits typed scope (fromPool pool name index) depth depth :=
  (emits_orUnsupported _ _).mono fun _ _ => trivial

include hscope

omit hscope in
theorem held_of_stores (hsound : scope.Sound) {register : Int} {type : TargetType}
    (hstores : scope.Stores register) (htype : scope.typeOf? register = some type) : type.Held := by
  refine ⟨?_, hsound.typeOf? htype⟩
  rintro rfl
  exact hstores htype

omit hscope in
theorem emits_newObj {constructor : MethodId} {fields : Nat}
    (h : typed → scope.registry.target.Constructs constructor fields) :
    Emits typed scope (emit (.newObj (.method constructor))) (depth + fields) (depth + 1) := by
  refine emits_emit_of rfl fun htyped => ?_
  have hfields := h htyped
  unfold TargetModule.Constructs at hfields
  simp only [Instr.pops, Instr.pushes, hfields]
  omega

theorem emits_move {target : Int} (source : Int) (htarget : typed → scope.Stores target) :
    Emits typed scope (move target source) depth depth := by
  refine (emits_registerType target).bind fun type htype => ?_
  have hheld (htyped : typed) : type.Held :=
    held_of_stores (hscope htyped) (htarget htyped) htype
  exact (emits_loadAs hscope source hheld).bind fun _ _ => emits_store target

theorem emits_intConstant {target : Int} (index : Int) (htarget : typed → scope.Stores target) :
    Emits typed scope (intConstant target index) depth depth := by
  refine Emits.read.bind fun _ _ => (emits_fromPool _ _ index).bind fun value _ => ?_
  refine (emits_registerType target).bind fun type _ => Emits.ite ?_ ?_
  · intro _
    exact Emits.bind (emits_emit depth rfl) fun _ _ => emits_store target
  · intro _
    exact Emits.bind (emits_emit depth rfl) fun _ _ => emits_storeFrom hscope htarget nofun

theorem emits_floatConstant {target : Int} (index : Int) (htarget : typed → scope.Stores target) :
    Emits typed scope (floatConstant target index) depth depth := by
  refine Emits.read.bind fun _ _ => (emits_fromPool _ _ index).bind fun value _ => ?_
  exact Emits.bind (emits_emit depth rfl) fun _ _ => emits_storeFrom hscope htarget nofun

theorem emits_boolConstant {target : Int} (value : Int) (htarget : typed → scope.Stores target) :
    Emits typed scope (boolConstant target value) depth depth :=
  Emits.bind (emits_emit depth rfl) fun _ _ => emits_storeFrom hscope htarget nofun

theorem emits_stringConstant {target : Int} (index : Int)
    (htarget : typed → scope.Stores target) :
    Emits typed scope (stringConstant target index) depth depth := by
  refine Emits.read.bind fun _ _ => (emits_fromPool _ _ index).bind fun value _ => ?_
  refine Emits.bind (emits_emit depth rfl) fun _ _ => ?_
  refine (emits_registerType target).bind fun type _ => Emits.ite ?_ ?_
  · intro _
    exact (emits_callRuntime depth .bytesFromString).bind fun _ _ => emits_store target
  · intro _
    exact emits_storeFrom hscope htarget nofun

theorem emits_bytesConstant {target : Int} (index : Int) (htarget : typed → scope.Stores target) :
    Emits typed scope (bytesConstant target index) depth depth := by
  have hstore : Emits typed scope (storeFrom target .bytes) (depth + 1) depth :=
    emits_storeFrom hscope htarget nofun
  refine Emits.read.bind fun _ _ => (emits_orUnsupported _ _).bind fun position _ => Emits.ite ?_ ?_
  · intro _
    refine (emits_orUnsupported _ _).bind fun blob _ => ?_
    refine Emits.bind (emits_emit depth rfl) fun _ _ => ?_
    exact (emits_callRuntime depth .bytesFromRaw).bind fun _ _ => hstore
  · intro _
    refine (emits_fromPool _ _ index).bind fun text _ => ?_
    refine Emits.bind (emits_emit depth rfl) fun _ _ => ?_
    exact (emits_callRuntime depth .bytesFromString).bind fun _ _ => hstore

omit hscope in
theorem emits_nullConstant (target : Int) :
    Emits typed scope (nullConstant target) depth depth :=
  Emits.bind (emits_emit depth rfl) fun _ _ => emits_store target

/-! ## Arithmetic -/

omit hscope in
theorem emits_wrap (type : TargetType) : Emits typed scope (wrap type) (depth + 1) (depth + 1) := by
  unfold wrap
  split
  · exact emits_emit depth rfl
  · exact emits_emit depth rfl
  · exact Emits.pure trivial

omit hscope in
theorem emits_arithmeticType (target : Int) :
    Emits typed scope (arithmeticType target) depth depth fun type => type.Held := by
  refine (emits_registerType target).bind fun type _ => Emits.ite ?_ fun _ => emits_unsupported _
  intro hvalue
  exact Emits.pure (.of_isValue hvalue)

theorem emits_negate (target source : Int) :
    Emits typed scope (negate target source) depth depth := by
  refine (emits_arithmeticType target).bind fun type htype => ?_
  refine (emits_loadAs hscope source fun _ => htype).bind fun _ _ => ?_
  refine Emits.bind (emits_emit depth rfl) fun _ _ => ?_
  exact (emits_wrap type).bind fun _ _ => emits_store target

theorem emits_complement (target source : Int) :
    Emits typed scope (complement target source) depth depth := by
  refine (emits_arithmeticType target).bind fun type htype => ?_
  refine (emits_loadAs hscope source fun _ => htype).bind fun _ _ => Emits.ite ?_ ?_
  · intro _
    refine Emits.bind (emits_emit (depth + 1) rfl) fun _ _ => ?_
    exact Emits.bind (emits_emit depth rfl) fun _ _ => emits_store target
  · intro _
    refine Emits.ite (fun _ => emits_unsupported _) fun _ => ?_
    refine Emits.bind (emits_emit depth rfl) fun _ _ => ?_
    exact (emits_wrap type).bind fun _ _ => emits_store target

omit hscope in
theorem emits_stepRegister (target : Int) (op : BinaryOp) :
    Emits typed scope (stepRegister target op) depth depth := by
  have hone (type : TargetType) : Emits typed scope (emit (one type)) (depth + 1) (depth + 2) := by
    unfold one
    split <;> exact emits_emit (depth + 1) rfl
  refine (emits_arithmeticType target).bind fun type _ => ?_
  refine (emits_load target).bind fun _ _ => (hone type).bind fun _ _ => ?_
  refine Emits.bind (emits_emit depth rfl) fun _ _ => ?_
  exact (emits_wrap type).bind fun _ _ => emits_store target

theorem emits_arithmetic (opcode : Opcode) (target left right : Int) :
    Emits typed scope (arithmetic opcode target left right) depth depth := by
  refine (emits_arithmeticType target).bind fun type htype => ?_
  refine (emits_orUnsupported _ _).bind fun op _ => ?_
  have hright : (if opcode.isShift then TargetType.i32 else type).Held := by
    split
    · exact .builtin .i32 nofun
    · exact htype
  refine (emits_loadAs hscope left fun _ => htype).bind fun _ _ => ?_
  refine (emits_loadAs hscope right fun _ => hright).bind fun _ _ => ?_
  refine Emits.bind (emits_emit depth rfl) fun _ _ => ?_
  exact (emits_wrap type).bind fun _ _ => emits_store target

/-! ## Calls -/

omit hscope in
theorem emits_callee (function : Int) :
    Emits typed scope (callee function) depth depth fun entry =>
      function.toNat?.bind scope.registry.function? = some entry := by
  refine Emits.read.bind ?_
  rintro _ rfl
  split
  · exact Emits.pure ‹_›
  · exact Emits.fails (fun _ => rfl) fun _ => rfl

omit hscope in
theorem callee_sound (hregistry : scope.registry.Sound) {function : Int} {entry : FunctionEntry}
    (h : function.toNat?.bind scope.registry.function? = some entry) :
    entry.Sound scope.registry.target := by
  obtain ⟨index, -, hentry⟩ := Option.bind_eq_some_iff.mp h
  exact hregistry.functions index entry hentry

theorem emits_pushArguments (args : List Int) {params : List TargetType}
    (hparams : typed → ∀ param ∈ params, param.Held) :
    Emits typed scope (pushArguments args params) depth (depth + params.length) := by
  refine Emits.ite ?_ fun _ => emits_unsupported _
  intro hlength
  have hzip : (args.zip params).length = params.length := by simp [hlength]
  rw [← hzip]
  refine Emits.forM_push ?_
  rintro ⟨register, type⟩ hitem depth
  exact emits_loadAs hscope register fun htyped =>
    hparams htyped type (List.of_mem_zip hitem).2

theorem emits_storeResult {target : Int} {ret : TargetType}
    (htarget : typed → ret ≠ .void → scope.Stores target)
    (hret : typed → ∀ inner, ret = .nullable inner → inner.Held) :
    Emits typed scope (storeResult target ret) (depth + ret.slots) depth := by
  unfold storeResult TargetType.slots
  by_cases hvoid : ret = .void
  · rw [if_neg (not_not_intro hvoid), if_pos hvoid]
    exact Emits.pure trivial
  · rw [if_pos hvoid, if_neg hvoid]
    exact emits_storeFrom hscope (fun htyped => htarget htyped hvoid) hret

theorem emits_directCall {target function : Int} (args : List Int)
    (htarget : typed → ∀ entry, function.toNat?.bind scope.registry.function? = some entry →
      entry.signature.ret ≠ .void → scope.Stores target) :
    Emits typed scope (directCall target function args) depth depth := by
  refine (emits_callee function).bind fun entry hentry => ?_
  have hsound (htyped : typed) : entry.Sound scope.registry.target :=
    callee_sound (hscope htyped).registry hentry
  refine (emits_pushArguments hscope args fun htyped => (hsound htyped).proper.params).bind
    fun _ _ => ?_
  have hcall : Emits typed scope (emit (.call (.method entry.method)))
      (depth + entry.signature.params.length) (depth + entry.signature.ret.slots) := by
    refine emits_emit_of rfl fun htyped => ?_
    simp only [Instr.pops, Instr.pushes, (hsound htyped).static, (hsound htyped).signature]
    omega
  refine hcall.bind fun _ _ => emits_storeResult hscope (fun htyped => htarget htyped entry hentry) ?_
  rintro htyped inner hinner
  exact (hinner ▸ (hsound htyped).proper.ret).wrapped

omit hscope in
theorem emits_receiverSlot (receiver slot : Int) :
    Emits typed scope (receiverSlot receiver slot) depth depth fun found =>
      scope.registry.calledSignature? (scope.sourceIndex receiver) slot = some found.2 := by
  refine Emits.read.bind ?_
  rintro _ rfl
  refine (emits_sourceTypeIndex receiver).bind ?_
  rintro _ rfl
  refine (emits_sourceType receiver).bind fun source _ => ?_
  split
  case h_1 | h_2 =>
    refine (emits_orUnsupported _ _).bind fun shape hshape => ?_
    split
    · rename_i found hfound
      refine Emits.pure ?_
      simp [Registry.calledSignature?, hshape, hfound]
    · exact emits_throwAt _ fun _ => rfl
  case h_3 =>
    refine (emits_orUnsupported _ _).bind fun shape hshape => ?_
    split
    · rename_i found hfound
      refine (emits_orUnsupported _ _).bind fun signature hsignature => Emits.pure ?_
      simp [Registry.calledSignature?, Registry.object?_of_virtual? hshape, hshape, hfound,
        hsignature]
    · exact emits_throwAt _ fun _ => rfl
  case h_4 => exact emits_unsupported _

theorem emits_invoke {target : Int} (args : List Int) {signature : Signature}
    (hsignature : typed → signature.Proper)
    (htarget : typed → signature.ret ≠ .void → scope.Stores target) :
    Emits typed scope (do
      pushArguments args signature.params
      emit (.invokeDelegate signature)
      storeResult target signature.ret) (depth + 1) depth := by
  refine (emits_pushArguments hscope args fun htyped => (hsignature htyped).params).bind
    fun _ _ => ?_
  have hinvoke : Emits typed scope (emit (.invokeDelegate signature))
      (depth + 1 + signature.params.length) (depth + signature.ret.slots) := by
    refine emits_emit_of rfl fun _ => ?_
    simp only [Instr.pops, Instr.pushes]
    omega
  refine hinvoke.bind fun _ _ => emits_storeResult hscope htarget ?_
  rintro htyped inner hinner
  exact (hinner ▸ (hsignature htyped).ret).wrapped

theorem emits_methodCall {target receiver slot : Int} (args : List Int)
    (htarget : typed → ∀ signature,
      scope.registry.calledSignature? (scope.sourceIndex receiver) slot = some signature →
      signature.ret ≠ .void → scope.Stores target) :
    Emits typed scope (methodCall target receiver slot args) depth depth := by
  refine (emits_receiverSlot receiver slot).bind ?_
  rintro ⟨field, signature⟩ hsignature
  refine (emits_load receiver).bind fun _ _ => Emits.bind (emits_emit depth rfl) fun _ _ => ?_
  exact emits_invoke hscope args
    (fun htyped => (hscope htyped).registry.calledSignature? hsignature)
    (fun htyped => htarget htyped signature hsignature)

theorem emits_receiverCall {target slot : Int} (args : List Int)
    (htarget : typed → ∀ receiver ∈ args.head?, ∀ signature,
      scope.registry.calledSignature? (scope.sourceIndex receiver) slot = some signature →
      signature.ret ≠ .void → scope.Stores target) :
    Emits typed scope (receiverCall target slot args) depth depth := by
  cases args with
  | nil => exact emits_unsupported _
  | cons receiver args =>
      exact emits_methodCall hscope args fun htyped => htarget htyped receiver rfl

theorem emits_dynamicCall {target : Int} (closure : Int) (args : List Int)
    (htarget : typed → scope.Stores target) :
    Emits typed scope (dynamicCall target closure args) depth depth := by
  refine (emits_load closure).bind fun _ _ => ?_
  refine Emits.bind (emits_emit (depth + 1) rfl) fun _ _ => ?_
  refine Emits.bind (emits_emit (depth + 1) rfl) fun _ _ => ?_
  have hargument : ∀ item ∈ args.zipIdx,
      Emits typed scope (storeArgument item) (depth + 2) (depth + 2) := by
    rintro ⟨register, position⟩ _
    refine Emits.bind (emits_emit (depth + 1) rfl) fun _ _ => ?_
    refine Emits.bind (emits_emit (depth + 3) rfl) fun _ _ => ?_
    refine (emits_loadAs hscope register fun _ => .builtin .any nofun).bind fun _ _ => ?_
    exact emits_emit (depth + 2) rfl
  refine (Emits.forM_keep hargument).bind fun _ _ => ?_
  refine (emits_callRuntime depth .dynamicInvoke).bind fun _ _ => emits_bridge.bind fun _ _ => ?_
  exact emits_storeResult hscope (fun htyped _ => htarget htyped) nofun

def closureResult? (type : TargetType) : Option TargetType :=
  match type with
  | .dynamic => some .dynamic
  | .delegate _ ret => some ret
  | _ => none

theorem emits_closureCall {target closure : Int} (args : List Int)
    (htarget : typed → ∀ ret, (scope.typeOf? closure).bind closureResult? = some ret →
      ret ≠ .void → scope.Stores target) :
    Emits typed scope (closureCall target closure args) depth depth := by
  refine (emits_registerType closure).bind fun type htype => ?_
  split
  · refine emits_dynamicCall hscope closure args fun htyped => ?_
    exact htarget htyped .dynamic (by rw [htype]; rfl) nofun
  · rename_i params ret
    refine (emits_load closure).bind fun _ _ => emits_invoke hscope args ?_ ?_
    · exact fun htyped => ((hscope htyped).typeOf? htype).signature
    · exact fun htyped => htarget htyped ret (by rw [htype]; rfl)
  · exact emits_unsupported _

theorem emits_staticClosure {target : Int} (function : Int)
    (htarget : typed → scope.Stores target) :
    Emits typed scope (staticClosure target function) depth depth := by
  refine (emits_callee function).bind fun entry _ => ?_
  refine Emits.bind (emits_emit depth rfl) fun _ _ => ?_
  exact emits_storeResult hscope (fun htyped _ => htarget htyped) nofun

theorem emits_instanceClosure {target : Int} (function receiver : Int)
    (htarget : typed → scope.Stores target) :
    Emits typed scope (instanceClosure target function receiver) depth depth := by
  refine (emits_callee function).bind fun entry hentry => ?_
  split
  · exact emits_unsupported _
  · rename_i first others hparams
    have hfirst (htyped : typed) : first.Held :=
      (callee_sound (hscope htyped).registry hentry).proper.params first (by simp [hparams])
    refine (emits_loadAs hscope receiver hfirst).bind fun _ _ => ?_
    refine Emits.bind (emits_emit depth rfl) fun _ _ => ?_
    exact emits_storeResult hscope (fun htyped _ => htarget htyped) nofun

theorem emits_virtualClosure {target : Int} (receiver slot : Int)
    (htarget : typed → scope.Stores target) :
    Emits typed scope (virtualClosure target receiver slot) depth depth := by
  refine (emits_receiverSlot receiver slot).bind ?_
  rintro ⟨field, signature⟩ _
  refine (emits_load receiver).bind fun _ _ => Emits.bind (emits_emit depth rfl) fun _ _ => ?_
  exact emits_storeResult hscope (fun htyped _ => htarget htyped) nofun

/-! ## Fields and globals -/

theorem emits_fieldOf (register field : Int) :
    Emits typed scope (fieldOf register field) depth depth fun found =>
      typed → found.2.Held := by
  refine Emits.read.bind ?_
  rintro _ rfl
  refine (emits_sourceTypeIndex register).bind ?_
  rintro _ rfl
  refine (emits_sourceType register).bind fun source _ => ?_
  split
  case h_1 | h_2 =>
    split
    · rename_i found hfound
      obtain ⟨shape, hshape, hfield⟩ := Option.bind_eq_some_iff.mp hfound
      exact Emits.pure fun htyped =>
        ((hscope htyped).registry.objects _ shape hshape).field? hfield
    · exact emits_throwAt _ fun _ => rfl
  case h_3 =>
    split
    · rename_i found hfound
      obtain ⟨shape, hshape, hfield⟩ := Option.bind_eq_some_iff.mp hfound
      exact Emits.pure fun htyped =>
        ((hscope htyped).registry.virtuals _ shape hshape).field? hfield
    · exact emits_throwAt _ fun _ => rfl
  case h_4 => exact emits_unsupported _

theorem emits_getField {target : Int} (register field : Int)
    (htarget : typed → scope.Stores target) :
    Emits typed scope (getField target register field) depth depth := by
  refine (emits_fieldOf hscope register field).bind ?_
  rintro ⟨found, type⟩ htype
  refine (emits_load register).bind fun _ _ => Emits.bind (emits_emit depth rfl) fun _ _ => ?_
  refine emits_storeFrom hscope htarget ?_
  rintro htyped inner rfl
  exact (htype htyped).proper.wrapped

theorem emits_setField (register field source : Int) :
    Emits typed scope (setField register field source) depth depth := by
  refine (emits_fieldOf hscope register field).bind ?_
  rintro ⟨found, type⟩ htype
  refine (emits_load register).bind fun _ _ => ?_
  exact (emits_loadAs hscope source htype).bind fun _ _ => emits_emit depth rfl

omit hscope in
theorem emits_fieldName (index : Int) : Emits typed scope (fieldName index) depth depth := by
  refine Emits.read.bind fun _ _ => ?_
  exact (emits_orUnsupported _ _).mono fun _ _ => trivial

theorem emits_getDynamic {target : Int} (register name : Int)
    (htarget : typed → scope.Stores target) :
    Emits typed scope (getDynamic target register name) depth depth := by
  refine (emits_fieldName name).bind fun _ _ => ?_
  refine (emits_loadAs hscope register fun _ => .builtin .dynamic nofun).bind fun _ _ => ?_
  refine Emits.bind (emits_emit (depth + 1) rfl) fun _ _ => ?_
  refine (emits_callRuntime depth .dynamicGetField).bind fun _ _ => ?_
  exact emits_storeFrom hscope htarget nofun

theorem emits_setDynamic (register name source : Int) :
    Emits typed scope (setDynamic register name source) depth depth := by
  refine (emits_fieldName name).bind fun _ _ => ?_
  refine (emits_loadAs hscope register fun _ => .builtin .dynamic nofun).bind fun _ _ => ?_
  refine Emits.bind (emits_emit (depth + 1) rfl) fun _ _ => ?_
  refine (emits_loadAs hscope source fun _ => .builtin .dynamic nofun).bind fun _ _ => ?_
  exact emits_callRuntime depth .dynamicSetField

theorem emits_globalOf (index : Int) :
    Emits typed scope (globalOf index) depth depth fun found => typed → found.2.Held := by
  refine Emits.read.bind ?_
  rintro _ rfl
  refine (emits_orUnsupported _ _).mono ?_
  intro found hfound htyped
  obtain ⟨id, -, hid⟩ := Option.bind_eq_some_iff.mp hfound
  obtain ⟨slot, hslot, rfl⟩ := Option.map_eq_some_iff.mp hid
  exact (hscope htyped).registry.globals slot (List.mem_of_getElem? hslot)

theorem emits_getGlobal {target : Int} (index : Int) (htarget : typed → scope.Stores target) :
    Emits typed scope (getGlobal target index) depth depth := by
  refine (emits_globalOf hscope index).bind ?_
  rintro ⟨id, type⟩ htype
  refine Emits.bind (emits_emit depth rfl) fun _ _ => emits_storeFrom hscope htarget ?_
  rintro htyped inner rfl
  exact (htype htyped).proper.wrapped

theorem emits_setGlobal (index source : Int) :
    Emits typed scope (setGlobal index source) depth depth := by
  refine (emits_globalOf hscope index).bind ?_
  rintro ⟨id, type⟩ htype
  exact (emits_loadAs hscope source htype).bind fun _ _ => emits_emit depth rfl

/-! ## Conversions that the program asks for -/

theorem emits_toFloat {target : Int} (source : Int) (unsigned : Bool)
    (htarget : typed → scope.Stores target) :
    Emits typed scope (toFloat target source unsigned) depth depth := by
  refine (emits_load source).bind fun type htype => Emits.ite ?_ fun _ => ?_
  · intro _
    refine emits_storeFrom hscope htarget ?_
    rintro htyped inner rfl
    exact ((hscope htyped).typeOf? htype).wrapped
  · refine Emits.ite (fun _ => emits_unsupported _) fun _ => ?_
    have hrest : Emits typed scope (do
        emit (.conv .r8)
        storeFrom target .f64) (depth + 1) depth :=
      Emits.bind (emits_emit depth rfl) fun _ _ => emits_storeFrom hscope htarget nofun
    refine Emits.ite (fun _ => ?_) fun _ => hrest
    exact Emits.bind (emits_emit depth rfl) fun _ _ => hrest

theorem emits_toInt {target : Int} (source : Int) (htarget : typed → scope.Stores target) :
    Emits typed scope (toInt target source) depth depth := by
  refine (emits_registerType target).bind fun wanted hwanted => ?_
  refine (emits_load source).bind fun type htype => Emits.ite ?_ fun _ => ?_
  · intro _
    refine Emits.ite (fun _ => ?_) fun _ => ?_
    · exact Emits.bind (emits_emit depth rfl) fun _ _ => emits_storeFrom hscope htarget nofun
    · exact Emits.bind (emits_emit depth rfl) fun _ _ => emits_storeFrom hscope htarget nofun
  · refine Emits.bind (emits_convert true ?_ ?_) fun _ _ => emits_store target
    · rintro htyped inner rfl
      exact ((hscope htyped).typeOf? htype).wrapped
    · exact fun htyped => held_of_stores (hscope htyped) (htarget htyped) hwanted

theorem emits_cast {target : Int} (source : Int) (checked : Bool)
    (htarget : typed → scope.Stores target) :
    Emits typed scope (cast target source checked) depth depth := by
  refine (emits_registerType target).bind fun wanted hwanted => ?_
  refine (emits_load source).bind fun type htype => ?_
  refine Emits.bind (emits_convert checked ?_ ?_) fun _ _ => emits_store target
  · rintro htyped inner rfl
    exact ((hscope htyped).typeOf? htype).wrapped
  · exact fun htyped => held_of_stores (hscope htyped) (htarget htyped) hwanted

theorem emits_safeCast {target : Int} (source : Int) (htarget : typed → scope.Stores target) :
    Emits typed scope (safeCast target source) depth depth :=
  Emits.read.bind fun _ _ => emits_cast hscope source _ htarget

def FieldOrigin.Held : FieldOrigin → Prop
  | .field _ type => type.Held
  | .dynamic => True

omit hscope in
theorem fieldOrigin?_held {registry : Registry} (hregistry : registry.Sound) {index : TypeIndex}
    {source : SourceType} {name : String} {origin : FieldOrigin}
    (h : fieldOrigin? registry index source name = some origin) : origin.Held := by
  have hnamed {fields : List FlatField} (hfields : ∀ field ∈ fields, field.type.Held)
      (hfound : (fields.find? (·.name == name)).map
        (fun found => FieldOrigin.field found.field found.type) = some origin) :
      origin.Held := by
    obtain ⟨field, hfield, rfl⟩ := Option.map_eq_some_iff.mp hfound
    exact hfields field (List.mem_of_find?_eq_some hfield)
  unfold fieldOrigin? at h
  split at h
  · obtain ⟨shape, hshape, hfield⟩ := Option.bind_eq_some_iff.mp h
    exact hnamed (hregistry.objects index shape hshape).fields hfield
  · obtain ⟨shape, hshape, hfield⟩ := Option.bind_eq_some_iff.mp h
    exact hnamed (hregistry.objects index shape hshape).fields hfield
  · obtain ⟨shape, hshape, hfield⟩ := Option.bind_eq_some_iff.mp h
    exact hnamed (hregistry.virtuals index shape hshape).fields hfield
  · cases h
    trivial

theorem emits_pushOrigin (source : Int) (name : String) {wanted : TargetType}
    {origin : FieldOrigin} (horigin : typed → origin.Held) (hwanted : typed → wanted.Held) :
    Emits typed scope (pushOrigin source name wanted origin) depth (depth + 1) := by
  cases origin with
  | field field type =>
      refine (emits_load source).bind fun _ _ => Emits.bind (emits_emit depth rfl) fun _ _ => ?_
      refine emits_convert true ?_ hwanted
      rintro htyped inner rfl
      exact (horigin htyped).proper.wrapped
  | dynamic =>
      refine (emits_loadAs hscope source fun _ => .builtin .dynamic nofun).bind fun _ _ => ?_
      refine Emits.bind (emits_emit (depth + 1) rfl) fun _ _ => ?_
      refine (emits_callRuntime depth .dynamicGetField).bind fun _ _ => ?_
      exact emits_convert true nofun hwanted

theorem emits_toVirtual {target : Int} (source : Int) (htarget : typed → scope.Stores target) :
    Emits typed scope (toVirtual target source) depth depth := by
  refine Emits.read.bind ?_
  rintro _ rfl
  refine (emits_sourceTypeIndex target).bind fun index _ => ?_
  refine (emits_orUnsupported _ _).bind fun shape hshape => ?_
  refine (emits_sourceTypeIndex source).bind fun sourceIndex _ => ?_
  refine (emits_sourceType source).bind fun origin _ => ?_
  refine Emits.ite (fun _ => emits_unsupported _) fun _ => ?_
  refine Emits.bind (emits_newObj fun htyped =>
    ((hscope htyped).registry.virtuals index shape hshape).constructor) fun _ _ => ?_
  refine Emits.bind (Emits.forM_keep ?_) fun _ _ => emits_storeFrom hscope htarget nofun
  rintro ⟨field, found⟩ hitem
  obtain ⟨entry, hentry, hfound⟩ := List.mem_filterMap.mp hitem
  obtain ⟨_, horigin, hpair⟩ := Option.map_eq_some_iff.mp hfound
  cases hpair
  refine Emits.bind (emits_emit depth rfl) fun _ _ => ?_
  refine Emits.bind (emits_pushOrigin hscope source _ ?_ ?_) fun _ _ => emits_emit (depth + 1) rfl
  · exact fun htyped => fieldOrigin?_held (hscope htyped).registry horigin
  · exact fun htyped => ((hscope htyped).registry.virtuals index shape hshape).fields _ hentry

/-! ## Instances, byte strings, arrays and boxes -/

theorem emits_construct {target : Int} {constructor : MethodId} {type : TargetType}
    (hconstructor : typed → scope.registry.target.Constructs constructor 0)
    (htarget : typed → scope.Stores target)
    (htype : typed → ∀ inner, type = .nullable inner → inner.Held) :
    Emits typed scope (construct target constructor type) depth depth :=
  (emits_newObj hconstructor).bind fun _ _ => emits_storeFrom hscope htarget htype

theorem emits_newInstance {target : Int} (htarget : typed → scope.Stores target) :
    Emits typed scope (newInstance target) depth depth := by
  refine Emits.read.bind ?_
  rintro _ rfl
  refine (emits_sourceTypeIndex target).bind fun index _ => ?_
  have hobject (found : String) (decl : TypeId) : Emits typed scope (do
      let shape ← orUnsupported (scope.registry.object? index) found
      construct target shape.constructor (.object decl)) depth depth := by
    refine (emits_orUnsupported _ _).bind fun shape hshape => emits_construct hscope ?_ htarget nofun
    exact fun htyped => ((hscope htyped).registry.objects index shape hshape).constructor
  have hdynamic : Emits typed scope (do
      emit .ldNull
      callRuntime .dynamicNew
      storeFrom target .dynamic) depth depth := by
    refine Emits.bind (emits_emit depth rfl) fun _ _ => ?_
    refine (emits_callRuntime depth .dynamicNew).bind fun _ _ => ?_
    exact emits_storeFrom hscope htarget nofun
  refine (emits_sourceType target).bind fun source _ => ?_
  split
  · exact hobject _ _
  · exact hobject _ _
  · refine (emits_orUnsupported _ _).bind fun shape hshape => emits_construct hscope ?_ htarget nofun
    exact fun htyped => ((hscope htyped).registry.virtuals index shape hshape).constructor
  · exact hdynamic
  · exact hdynamic
  · exact emits_unsupported _

omit hscope in
theorem emits_memoryWidth (register : Int) :
    Emits typed scope (memoryWidth register) depth depth := by
  refine (emits_sourceType register).bind fun source _ => ?_
  split
  case h_8 => exact emits_unsupported _
  all_goals exact Emits.pure trivial

omit hscope in
theorem held_stackType (width : MemoryWidth) : width.stackType.Held := by
  cases width <;> exact .of_isValue rfl

theorem emits_getMemory {target : Int} (bytes position : Int) (width : MemoryWidth)
    (htarget : typed → scope.Stores target) :
    Emits typed scope (getMemory target bytes position width) depth depth := by
  refine (emits_loadAs hscope bytes fun _ => .builtin .bytes nofun).bind fun _ _ => ?_
  refine (emits_loadAs hscope position fun _ => .builtin .i32 nofun).bind fun _ _ => ?_
  have hget := @emits_callRuntime typed scope depth (.bytesGet width)
  rw [RuntimeMember.signature, (held_stackType width).slots] at hget
  refine hget.bind fun _ _ => emits_storeFrom hscope htarget ?_
  intro _ inner hinner
  exact (hinner ▸ (held_stackType width).proper).wrapped

theorem emits_setMemory (bytes position source : Int) (width : MemoryWidth) :
    Emits typed scope (setMemory bytes position source width) depth depth := by
  refine (emits_loadAs hscope bytes fun _ => .builtin .bytes nofun).bind fun _ _ => ?_
  refine (emits_loadAs hscope position fun _ => .builtin .i32 nofun).bind fun _ _ => ?_
  refine (emits_loadAs hscope source fun _ => held_stackType width).bind fun _ _ => ?_
  exact emits_callRuntime depth (.bytesSet width)

theorem emits_arraySize {target : Int} (array : Int) (htarget : typed → scope.Stores target) :
    Emits typed scope (arraySize target array) depth depth := by
  refine (emits_loadAs hscope array fun _ => .builtin .array nofun).bind fun _ _ => ?_
  refine (emits_callRuntime depth .arraySize).bind fun _ _ => ?_
  exact emits_storeFrom hscope htarget nofun

theorem emits_getElement {target : Int} (array position : Int)
    (htarget : typed → scope.Stores target) :
    Emits typed scope (getElement target array position) depth depth := by
  refine (emits_loadAs hscope array fun _ => .builtin .array nofun).bind fun _ _ => ?_
  refine (emits_loadAs hscope position fun _ => .builtin .i32 nofun).bind fun _ _ => ?_
  exact Emits.bind (emits_emit depth rfl) fun _ _ => emits_storeFrom hscope htarget nofun

theorem emits_setElement (array position source : Int) :
    Emits typed scope (setElement array position source) depth depth := by
  refine (emits_loadAs hscope array fun _ => .builtin .array nofun).bind fun _ _ => ?_
  refine (emits_loadAs hscope position fun _ => .builtin .i32 nofun).bind fun _ _ => ?_
  refine (emits_loadAs hscope source fun _ => .builtin .any nofun).bind fun _ _ => ?_
  exact emits_emit depth rfl

theorem emits_typeToken {target : Int} (type : Int) (htarget : typed → scope.Stores target) :
    Emits typed scope (typeToken target type) depth depth := by
  refine Emits.read.bind fun _ _ => (emits_orUnsupported _ _).bind fun index _ => ?_
  refine (emits_ofExcept fun _ => Registry.isUsage_of_mapType).bind fun mapped _ => ?_
  exact Emits.bind (emits_emit depth rfl) fun _ _ => emits_storeFrom hscope htarget nofun

theorem emits_typeOfValue {target : Int} (source : Int) (htarget : typed → scope.Stores target) :
    Emits typed scope (typeOfValue target source) depth depth := by
  refine (emits_loadAs hscope source fun _ => .builtin .dynamic nofun).bind fun _ _ => ?_
  refine (emits_callRuntime depth .typeOf).bind fun _ _ => ?_
  exact emits_storeFrom hscope htarget nofun

theorem emits_kindOfType {target : Int} (source : Int) (htarget : typed → scope.Stores target) :
    Emits typed scope (kindOfType target source) depth depth := by
  refine (emits_loadAs hscope source fun _ => .builtin .typeValue nofun).bind fun _ _ => ?_
  refine (emits_callRuntime depth .typeKindOf).bind fun _ _ => ?_
  exact emits_storeFrom hscope htarget nofun

theorem emits_boxed (register : Int) :
    Emits typed scope (boxed register) depth depth fun inner => typed → inner.Held := by
  refine (emits_registerType register).bind fun type htype => ?_
  split
  · exact Emits.pure fun htyped => ((hscope htyped).typeOf? htype).boxed
  · exact emits_unsupported _

theorem emits_makeBox {target : Int} (source : Int) (htarget : typed → scope.Stores target) :
    Emits typed scope (makeBox target source) depth depth := by
  refine (emits_load source).bind fun inner _ => ?_
  refine (emits_callRuntime depth (.refBoxNew inner)).bind fun _ _ => ?_
  exact emits_storeFrom hscope htarget nofun

theorem emits_getBoxed {target : Int} (box : Int) (htarget : typed → scope.Stores target) :
    Emits typed scope (getBoxed target box) depth depth := by
  refine (emits_boxed hscope box).bind fun inner hinner => (emits_load box).bind fun _ _ => ?_
  have hget : Emits typed scope (callRuntime (.refBoxGet inner)) (depth + 1) (depth + 1) := by
    refine emits_callRuntime_of fun htyped => ?_
    simp [RuntimeMember.signature, (hinner htyped).slots]
  refine hget.bind fun _ _ => emits_storeFrom hscope htarget ?_
  rintro htyped deeper rfl
  exact (hinner htyped).proper.wrapped

theorem emits_setBoxed (box source : Int) :
    Emits typed scope (setBoxed box source) depth depth := by
  refine (emits_boxed hscope box).bind fun inner hinner => (emits_load box).bind fun _ _ => ?_
  refine (emits_loadAs hscope source hinner).bind fun _ _ => ?_
  exact emits_callRuntime depth (.refBoxSet inner)

/-! ## Values of enum types -/

omit hscope in
theorem emits_enumOf (register : Int) :
    Emits typed scope (enumOf register) depth depth fun found =>
      ∃ index, scope.registry.enum? index = some found.2 := by
  refine Emits.read.bind ?_
  rintro _ rfl
  refine (emits_sourceTypeIndex register).bind fun index _ => ?_
  refine (emits_orUnsupported _ _).bind fun shape hshape => ?_
  exact Emits.pure ⟨index, hshape⟩

theorem emits_constructOf {shape : EnumShape} (construct : Int)
    (hshape : ∃ index, scope.registry.enum? index = some shape) :
    Emits typed scope (constructOf shape construct) depth depth fun found =>
      typed → found.Sound scope.registry.target := by
  refine (emits_orUnsupported _ _).mono fun found hfound htyped => ?_
  obtain ⟨index, hindex⟩ := hshape
  obtain ⟨position, -, hposition⟩ := Option.bind_eq_some_iff.mp hfound
  exact (hscope htyped).registry.enums index shape hindex found (List.mem_of_getElem? hposition)

theorem emits_storeConstruct {target : Int} (decl : TypeId) {construct : ConstructShape}
    (hconstruct : typed → construct.Sound scope.registry.target)
    (htarget : typed → scope.Stores target) :
    Emits typed scope (storeConstruct target decl construct)
      (depth + construct.fields.length) depth := by
  refine (emits_newObj fun htyped => (hconstruct htyped).constructor).bind fun _ _ => ?_
  exact emits_storeFrom hscope htarget nofun

theorem emits_makeEnum {target : Int} (construct : Int) (args : List Int)
    (htarget : typed → scope.Stores target) :
    Emits typed scope (makeEnum target construct args) depth depth := by
  refine (emits_enumOf target).bind ?_
  rintro ⟨decl, shape⟩ hshape
  refine (emits_constructOf hscope construct hshape).bind fun found hfound => ?_
  refine Emits.ite ?_ fun _ => emits_unsupported _
  intro hlength
  have hzip : (args.zip found.fields).length = found.fields.length := by simp [hlength]
  refine Emits.bind (Emits.forM_push ?_) fun _ _ => ?_
  · rintro ⟨register, field⟩ hitem depth
    exact emits_loadAs hscope register fun htyped =>
      (hfound htyped).fields field (List.of_mem_zip hitem).2
  · rw [hzip]
    exact emits_storeConstruct hscope decl hfound htarget

theorem emits_allocateEnum {target : Int} (construct : Int)
    (htarget : typed → scope.Stores target) :
    Emits typed scope (allocateEnum target construct) depth depth := by
  refine (emits_enumOf target).bind ?_
  rintro ⟨decl, shape⟩ hshape
  refine (emits_constructOf hscope construct hshape).bind fun found hfound => ?_
  refine Emits.bind (Emits.forM_push fun field _ _ => emits_pushDefault field.type) fun _ _ => ?_
  exact emits_storeConstruct hscope decl hfound htarget

theorem emits_enumIndex {target : Int} (source : Int) (htarget : typed → scope.Stores target) :
    Emits typed scope (enumIndex target source) depth depth := by
  refine (emits_enumOf source).bind fun _ _ => (emits_load source).bind fun _ _ => ?_
  exact Emits.bind (emits_emit depth rfl) fun _ _ => emits_storeFrom hscope htarget nofun

theorem emits_enumParameter (value construct field : Int) :
    Emits typed scope (enumParameter value construct field) depth depth fun found =>
      typed → found.1.type.Held := by
  refine (emits_enumOf value).bind ?_
  rintro ⟨decl, shape⟩ hshape
  refine (emits_constructOf hscope construct hshape).bind fun found hfound => ?_
  split
  · rename_i parameter hparameter
    obtain ⟨position, -, hposition⟩ := Option.bind_eq_some_iff.mp hparameter
    exact Emits.pure fun htyped => (hfound htyped).fields _ (List.mem_of_getElem? hposition)
  · exact emits_throwAt _ fun _ => rfl

theorem emits_getEnumField {target : Int} (value construct field : Int)
    (htarget : typed → scope.Stores target) :
    Emits typed scope (getEnumField target value construct field) depth depth := by
  refine (emits_enumParameter hscope value construct field).bind ?_
  rintro ⟨found, type⟩ hfound
  refine (emits_load value).bind fun _ _ => Emits.bind (emits_emit depth rfl) fun _ _ => ?_
  refine Emits.bind (emits_emit depth rfl) fun _ _ => emits_storeFrom hscope htarget ?_
  intro htyped inner hinner
  exact (hinner ▸ (hfound htyped).proper).wrapped

theorem emits_setEnumField (value field source : Int) :
    Emits typed scope (setEnumField value field source) depth depth := by
  refine (emits_enumParameter hscope value 0 field).bind ?_
  rintro ⟨found, type⟩ hfound
  refine (emits_load value).bind fun _ _ => Emits.bind (emits_emit depth rfl) fun _ _ => ?_
  exact (emits_loadAs hscope source hfound).bind fun _ _ => emits_emit depth rfl

/-! ## The rest -/

theorem emits_rethrowValue (register : Int) :
    Emits typed scope (rethrowValue register) depth depth := by
  refine (emits_loadAs hscope register fun _ => .builtin .dynamic nofun).bind fun _ _ => ?_
  exact emits_callRuntime depth .rethrow

omit hscope in
theorem emits_gap : Emits typed scope gap depth depth := by
  refine Emits.read.bind fun other _ => ?_
  split
  · exact Emits.fails (fun _ => rfl) fun _ => rfl
  · refine Emits.bind (Emits.tally fun _ => ⟨rfl, rfl, rfl, rfl⟩) fun _ _ => ?_
    exact emits_emit depth rfl

end Emit

end BytecodeLowering
