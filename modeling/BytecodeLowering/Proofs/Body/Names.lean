import BytecodeLowering.Proofs.Body.Run
import BytecodeLowering.Proofs.Lower.ConstructorCode

/-!
# What a body refers to

Lowering finds every class, field, method and global in the registry and every
argument and local among the registers, so that what an instruction names
exists.  A step that keeps it so is said to name only what exists, and every
instruction of the source is made of such steps.
-/

namespace BytecodeLowering

/-! ## What there is to refer to -/

/-- An anchored registry whose functions have the methods of their numbers. -/
structure Registry.Grounded (registry : Registry) : Prop extends registry.Anchored where
  functions : ∀ function entry, registry.function? function = some entry →
    entry.method = function ∧ entry.signature.Within registry.target.types.length ∧
      (registry.target.method? function).map (·.signature) = some entry.signature

structure Scope.Grounded (scope : Scope) : Prop where
  registry : scope.registry.Grounded
  registers : ∀ type ∈ scope.registerTypes, type.Within scope.registry.target.types.length
  ret : scope.signature.ret.Within scope.registry.target.types.length

namespace Registry

variable {registry : Registry} {index : TypeIndex}

theorem Anchored.object (h : registry.Anchored) {shape : ObjectShape}
    (hshape : registry.object? index = some shape) :
    ∃ decl, registry.decl? index = some decl ∧ registry.target.Links decl shape.constructor ∧
      (Shape.object shape).Placed registry.target decl := by
  unfold object? at hshape
  split at hshape
  · rename_i hfound
    cases hshape
    exact ⟨_, congrArg _ hfound, h.links index _ hfound _ List.mem_cons_self,
      (h.anchors index _ hfound).placed⟩
  · cases hshape

theorem Anchored.virtual (h : registry.Anchored) {shape : VirtualShape}
    (hshape : registry.virtual? index = some shape) :
    ∃ decl, registry.decl? index = some decl ∧ registry.target.Links decl shape.constructor ∧
      registry.target.Lists decl shape.fields := by
  unfold virtual? at hshape
  split at hshape
  · rename_i hfound
    cases hshape
    exact ⟨_, congrArg _ hfound, h.links index _ hfound _ List.mem_cons_self,
      (h.anchors index _ hfound).placed⟩
  · cases hshape

theorem Anchored.enum (h : registry.Anchored) {shape : EnumShape}
    (hshape : registry.enum? index = some shape) :
    ∃ decl, registry.decl? index = some decl ∧
      (registry.target.field? shape.indexField).isSome ∧
      ∀ construct ∈ shape.constructs,
        registry.target.Links construct.decl construct.constructor ∧
          registry.target.Lists construct.decl construct.fields := by
  unfold enum? at hshape
  split at hshape
  · rename_i hfound
    cases hshape
    refine ⟨_, congrArg _ hfound, (h.anchors index _ hfound).index _ rfl, ?_⟩
    intro construct hconstruct
    exact ⟨h.links index _ hfound _ (List.mem_map_of_mem hconstruct),
      ((h.anchors index _ hfound).placed construct hconstruct).1⟩
  · cases hshape

theorem Linked.class_within (h : registry.Linked) {decl : TypeId} (kind : Nominal)
    (hdecl : registry.decl? index = some decl) :
    TargetType.Within registry.target.types.length
      (.declared kind (((registry.declaration? index).map (·.decl)).getD 0)) := by
  rw [show (registry.declaration? index).map (·.decl) = some decl from hdecl]
  exact TargetType.within_declared.mpr (h.decl_lt hdecl)

theorem Grounded.method_lt (h : registry.Grounded) {function : Nat} {entry : FunctionEntry}
    (hentry : registry.function? function = some entry) :
    entry.method < registry.target.methods.length := by
  obtain ⟨hmethod, -, hsignature⟩ := h.functions function entry hentry
  obtain ⟨method, hfound, -⟩ := Option.map_eq_some_iff.mp hsignature
  rw [hmethod]
  exact (List.getElem?_eq_some_iff.mp hfound).1

end Registry

/-! ## Steps -/

/-- A body under construction names only what exists; its locals suffice for the
registers, and the shared exit has its slot among them. -/
structure Progress.Refers (scope : Scope) (progress : Progress) : Prop where
  body : ∀ instr ∈ progress.builder.body,
    instr.Refers scope.registry.target scope.parameterCount progress.builder.locals.length
  locals : ∀ type ∈ progress.builder.locals, type.Within scope.registry.target.types.length
  registers : scope.registerTypes.length
    ≤ scope.parameterCount + progress.builder.locals.length
  exit : ∀ exit slot, progress.returnExit = some exit → exit.slot = some slot →
    slot.toNat < progress.builder.locals.length

structure MethodBody.Refers (module : TargetModule) (arguments : Nat) (result : MethodBody) :
    Prop where
  body : ∀ instr ∈ result.body, instr.Refers module arguments result.locals.length
  locals : ∀ type ∈ result.locals, type.Within module.types.length

def Scope.Permits (scope : Scope) (instr : Instr) : Prop :=
  ∀ locals, scope.registerTypes.length ≤ scope.parameterCount + locals →
    instr.Refers scope.registry.target scope.parameterCount locals

theorem Progress.Refers.append {scope : Scope} {before after : Progress}
    (h : before.Refers scope) {code : List Instr}
    (hbody : after.builder.body = before.builder.body ++ code)
    (hlocals : after.builder.locals = before.builder.locals)
    (hexit : after.returnExit = before.returnExit)
    (hcode : ∀ instr ∈ code,
      instr.Refers scope.registry.target scope.parameterCount before.builder.locals.length) :
    after.Refers scope := by
  refine ⟨?_, by rw [hlocals]; exact h.locals, by rw [hlocals]; exact h.registers, ?_⟩
  · rw [hbody, hlocals]
    intro instr hinstr
    rcases List.mem_append.mp hinstr with hearlier | hnew
    · exact h.body instr hearlier
    · exact hcode instr hnew
  · rw [hexit, hlocals]
    exact h.exit

namespace Emit

/-- A step that names only what exists, with a result as told. -/
def Names (scope : Scope) (step : Emit α) (post : α → Prop := fun _ => True) : Prop :=
  ∀ before result after, before.Refers scope → step scope before = .ok result after →
    after.Refers scope ∧ post result

namespace Names

variable {scope : Scope}

theorem silent {step : Emit α} {post : α → Prop}
    (h : ∀ before result after, step scope before = .ok result after →
      before = after ∧ post result) : Names scope step post := by
  intro before result after hbefore hstep
  obtain ⟨rfl, hpost⟩ := h before result after hstep
  exact ⟨hbefore, hpost⟩

theorem fails {step : Emit α} {post : α → Prop} {error : Progress → LoweringError}
    (h : ∀ before, step scope before = .error (error before) before) :
    Names scope step post := by
  intro before result after _ hstep
  rw [h] at hstep
  cases hstep

theorem pure {post : α → Prop} {value : α} (h : post value) :
    Names scope (Pure.pure value) post := by
  refine silent ?_
  intro before result after hstep
  cases hstep
  exact ⟨rfl, h⟩

theorem bind {step : Emit α} {next : α → Emit β} {post : α → Prop} {final : β → Prop}
    (hstep : Names scope step post)
    (hnext : ∀ value, post value → Names scope (next value) final) :
    Names scope (step >>= next) final := by
  intro before result after hbefore hrun
  obtain ⟨value, middle, hfirst, hsecond⟩ := bind_ok hrun
  obtain ⟨hmiddle, hvalue⟩ := hstep before value middle hbefore hfirst
  exact hnext value hvalue middle result after hmiddle hsecond

theorem mono {step : Emit α} {post final : α → Prop} (h : Names scope step post)
    (himp : ∀ value, post value → final value) : Names scope step final := by
  intro before result after hbefore hstep
  obtain ⟨hafter, hresult⟩ := h before result after hbefore hstep
  exact ⟨hafter, himp result hresult⟩

theorem ite {condition : Prop} [Decidable condition] {yes no : Emit α} {post : α → Prop}
    (hyes : condition → Names scope yes post) (hno : ¬ condition → Names scope no post) :
    Names scope (if condition then yes else no) post := by
  split
  · exact hyes ‹_›
  · exact hno ‹_›

theorem read : Names scope (MonadReader.read : Emit Scope) (scope = ·) :=
  silent fun _ _ _ hstep => (read_ok hstep).symm

theorem get : Names scope (MonadState.get : Emit Progress) :=
  silent fun _ _ _ hstep => ⟨(get_ok hstep).2, trivial⟩

theorem forM {items : List α} {step : α → Emit PUnit}
    (h : ∀ item ∈ items, Names scope (step item)) : Names scope (items.forM step) := by
  induction items with
  | nil => exact pure trivial
  | cons item items ih =>
      refine (h item List.mem_cons_self).bind fun _ _ => ?_
      exact ih fun other hother => h other (List.mem_cons_of_mem item hother)

theorem mapM {items : List α} {step : α → Emit β}
    (h : ∀ item ∈ items, Names scope (step item)) : Names scope (items.mapM step) := by
  induction items with
  | nil => exact pure trivial
  | cons item items ih =>
      rw [List.mapM_cons]
      refine (h item List.mem_cons_self).bind fun _ _ => ?_
      exact (ih fun other hother => h other (List.mem_cons_of_mem item hother)).bind
        fun _ _ => pure trivial

theorem tally {change : Progress → Progress}
    (h : ∀ progress, (change progress).builder = progress.builder ∧
      (change progress).returnExit = progress.returnExit) :
    Names scope (modify change : Emit Unit) := by
  intro before result after hbefore hstep
  cases hstep
  obtain ⟨hbuilder, hexit⟩ := h before
  have hbody : (change before).builder.body = before.builder.body ++ [] := by
    rw [hbuilder, List.append_nil]
  exact ⟨hbefore.append hbody (by rw [hbuilder]) hexit nofun, trivial⟩

theorem emit {instr : Instr} (h : scope.Permits instr) : Names scope (Emit.emit instr) := by
  intro before result after hbefore hstep
  cases hstep
  refine ⟨hbefore.append rfl rfl rfl ?_, trivial⟩
  intro other hother
  rw [List.mem_singleton.mp hother]
  exact h _ hbefore.registers

theorem emit_bind {instr : Instr} {next : Unit → Emit α} {post : α → Prop}
    (h : scope.Permits instr) (hnext : Names scope (next ()) post) :
    Names scope (Emit.emit instr >>= next) post :=
  (emit h).bind fun _ _ => hnext

theorem mark {label : Label} : Names scope (Emit.mark label) := by
  intro before result after hbefore hstep
  cases hstep
  refine ⟨hbefore.append rfl rfl rfl ?_, trivial⟩
  intro other hother
  rw [List.mem_singleton.mp hother]
  trivial

theorem newLabel : Names scope Emit.newLabel := by
  intro before result after hbefore hstep
  cases hstep
  exact ⟨hbefore.append (List.append_nil _).symm rfl rfl nofun, trivial⟩

end Names

theorem emit_slot_refers {scope : Scope} {before after : Progress} (h : before.Refers scope)
    {exit : ReturnExit} {slot : UInt16} (hexit : before.returnExit = some exit)
    (hslot : exit.slot = some slot) {instr : Instr} (hinstr : instr = .ldLoc slot ∨ instr = .stLoc slot)
    {result : Unit} (hstep : emit instr scope before = .ok result after) : after.Refers scope := by
  cases hstep
  refine h.append rfl rfl rfl ?_
  intro other hother
  rw [List.mem_singleton.mp hother]
  rcases hinstr with rfl | rfl
  · exact h.exit exit slot hexit hslot
  · exact h.exit exit slot hexit hslot

theorem finish_eq {builder : BodyBuilder} {body : MethodBody} (h : builder.finish = .ok body) :
    body = ⟨builder.body, builder.locals⟩ := by
  unfold BodyBuilder.finish at h
  split at h
  · cases h
  · cases h
    rfl

/-! ### Elementary steps -/

section Elementary

variable {scope : Scope}

theorem names_unsupported {post : α → Prop} (found : String) :
    Names scope (unsupported found : Emit α) post :=
  Names.fails fun _ => rfl

theorem names_throwAt {post : α → Prop} (error : Site → LoweringError) :
    Names scope (do throw (error (← site)) : Emit α) post :=
  Names.fails fun _ => rfl

theorem names_orUnsupported (value : Option α) (found : String) :
    Names scope (orUnsupported value found) (value = some ·) := by
  cases value with
  | some value => exact Names.pure rfl
  | none => exact names_unsupported found

theorem names_ofExcept (result : Except LoweringError α) :
    Names scope (ofExcept result) (result = .ok ·) := by
  cases result with
  | ok value => exact Names.pure rfl
  | error error => exact Names.fails fun _ => rfl

theorem names_bridge : Names scope bridge := Names.tally fun _ => ⟨rfl, rfl⟩

theorem names_callRuntime (member : RuntimeMember)
    (h : ∀ type ∈ member.types, type.Within scope.registry.target.types.length) :
    Names scope (callRuntime member) := by
  unfold callRuntime
  split
  · exact Names.emit fun _ _ => h
  · exact Names.emit fun _ _ => h

theorem names_gap : Names scope gap := by
  refine Names.read.bind fun other _ => ?_
  split
  · exact Names.fails fun _ => rfl
  · exact Names.bind (Names.tally fun _ => ⟨rfl, rfl⟩) fun _ _ => Names.emit fun _ _ => trivial

/-! ### Registers -/

theorem names_registerIndex (register : Int) :
    Names scope (registerIndex register) (· < scope.registerTypes.length) :=
  Names.silent fun _ _ _ hstep =>
    ⟨(registerIndex_ok hstep).1, (registerIndex_ok hstep).2.2⟩

theorem names_sourceTypeIndex (register : Int) : Names scope (sourceTypeIndex register) :=
  (names_registerIndex register).bind fun _ _ => Names.read.bind fun _ _ => Names.pure trivial

theorem names_sourceType (register : Int) : Names scope (sourceType register) := by
  refine Names.read.bind fun other _ => (names_sourceTypeIndex register).bind fun index _ => ?_
  split
  · exact Names.pure trivial
  · exact Names.fails fun _ => rfl

theorem toNat_ofNat_lt {number bound : Nat} (h : number < bound) :
    (UInt16.ofNat number).toNat < bound := by
  rw [UInt16.toNat_ofNat']
  exact Nat.lt_of_le_of_lt (Nat.mod_le _ _) h

theorem permits_loadInstr {index : Nat} (hindex : index < scope.registerTypes.length)
    (type : TargetType) : scope.Permits (loadInstr scope index type) := by
  intro locals hlocals
  unfold loadInstr
  split
  · trivial
  · split
    · exact toNat_ofNat_lt ‹_›
    · exact toNat_ofNat_lt (by omega)

theorem permits_storeInstr {index : Nat} (hindex : index < scope.registerTypes.length)
    (type : TargetType) : scope.Permits (storeInstr scope index type) := by
  intro locals hlocals
  unfold storeInstr
  split
  · trivial
  · split
    · exact toNat_ofNat_lt ‹_›
    · exact toNat_ofNat_lt (by omega)

theorem names_store (register : Int) : Names scope (store register) := by
  refine (names_registerIndex register).bind fun index hindex => ?_
  have htype : Names scope (registerType register) :=
    (names_registerIndex register).bind fun _ _ => Names.read.bind fun _ _ => Names.pure trivial
  refine htype.bind fun type _ => Names.read.bind ?_
  rintro _ rfl
  exact Names.emit (permits_storeInstr hindex type)

end Elementary

/-! ## Loads and conversions -/

section Grounded

variable {scope : Scope} (hscope : scope.Grounded)

include hscope

theorem names_registerType (register : Int) :
    Names scope (registerType register)
      (TargetType.Within scope.registry.target.types.length) := by
  refine Names.silent fun before type after hstep => ?_
  obtain ⟨rfl, htype⟩ := registerType_ok hstep
  obtain ⟨index, -, hindex⟩ := Option.bind_eq_some_iff.mp htype
  exact ⟨rfl, hscope.registers type (List.mem_of_getElem? hindex)⟩

theorem names_load (register : Int) :
    Names scope (load register) (TargetType.Within scope.registry.target.types.length) := by
  refine (names_registerIndex register).bind fun index hindex => ?_
  refine (names_registerType hscope register).bind fun type htype => Names.read.bind ?_
  rintro _ rfl
  exact (Names.emit (permits_loadInstr hindex type)).bind fun _ _ => Names.pure htype

omit hscope

theorem names_pushDefault (type : TargetType) : Names scope (pushDefault type) := by
  refine Names.emit fun _ _ => ?_
  unfold defaultInstr
  split <;> trivial

theorem names_convertNumeric (source target : TargetType) :
    Names scope (convertNumeric source target) := by
  unfold convertNumeric
  split
  · exact Names.emit fun _ _ => trivial
  · exact Names.pure trivial

section Conversion

variable {source target : TargetType}

theorem names_unwrapObject {checked : Bool}
    (htarget : target.Within scope.registry.target.types.length) :
    Names scope (unwrapObject target checked) := by
  refine Names.ite (fun _ => ?_) fun _ => ?_
  · exact Names.bind (Names.emit fun _ _ => htarget) fun _ _ => names_bridge
  · exact Names.ite (fun _ => Names.emit fun _ _ => htarget) fun _ => Names.pure trivial

theorem names_convertReference {checked : Bool}
    (htarget : target.Within scope.registry.target.types.length) :
    Names scope (convertReference source target checked) :=
  Names.read.bind fun _ _ =>
    Names.ite (fun _ => Names.emit fun _ _ => htarget) fun _ => Names.pure trivial

theorem names_boxIfValue (source : TargetType) : Names scope (boxIfValue source) :=
  Names.ite (fun hvalue => Names.emit fun _ _ => TargetType.within_of_isValue hvalue)
    fun _ => Names.pure trivial

theorem names_wrapDynamic (source : TargetType) : Names scope (wrapDynamic source) :=
  (names_boxIfValue source).bind fun _ _ =>
    (names_callRuntime .dynamicNew nofun).bind fun _ _ => names_bridge

theorem names_wrapAny (source : TargetType) : Names scope (wrapAny source) := by
  refine Names.ite (fun hvalue => ?_) fun _ => Names.pure trivial
  exact Names.bind (Names.emit fun _ _ => TargetType.within_of_isValue hvalue)
    fun _ _ => names_bridge

theorem names_convertPlain {checked : Bool}
    (htarget : target.Within scope.registry.target.types.length) :
    Names scope (convertPlain source target checked) := by
  unfold convertPlain
  split
  · exact Names.emit fun _ _ => trivial
  · refine Names.ite (fun _ => ?_) fun _ => Names.pure trivial
    exact Names.bind (Names.emit fun _ _ => trivial) fun _ _ => names_pushDefault _
  · refine Names.ite (fun _ => names_convertNumeric _ _) fun _ => ?_
    split
    · exact names_wrapDynamic _
    · exact names_wrapAny _
    · refine (names_callRuntime .dynamicValue nofun).bind fun _ _ => ?_
      exact names_bridge.bind fun _ _ => names_unwrapObject htarget
    · exact names_unwrapObject htarget
    · exact Names.ite (fun _ => names_unsupported _) fun _ => names_convertReference htarget

theorem names_nullTest {inner : TargetType} {step : Emit Unit} (hstep : Names scope step)
    (hwrap : Names scope (callRuntime (.nullableNew inner))) :
    Names scope (do
      let empty ← newLabel
      let done ← newLabel
      emit .dup
      emit (.brFalse empty)
      step
      callRuntime (.nullableNew inner)
      emit (.br done)
      mark empty
      emit .pop
      pushDefault (.nullable inner)
      mark done) := by
  refine Names.newLabel.bind fun empty _ => Names.newLabel.bind fun done _ => ?_
  refine Names.bind (Names.emit fun _ _ => trivial) fun _ _ => ?_
  refine Names.bind (Names.emit fun _ _ => trivial) fun _ _ => hstep.bind fun _ _ => ?_
  refine hwrap.bind fun _ _ => Names.bind (Names.emit fun _ _ => trivial) fun _ _ => ?_
  refine Names.mark.bind fun _ _ => Names.bind (Names.emit fun _ _ => trivial) fun _ _ => ?_
  exact (names_pushDefault _).bind fun _ _ => Names.mark

theorem names_convertInto (checked : Bool) (source : TargetType) {target : TargetType}
    (htarget : target.Within scope.registry.target.types.length) :
    Names scope (convertInto checked source target) := by
  have hnew {inner : TargetType} (hinner : inner.Within scope.registry.target.types.length) :
      Names scope (callRuntime (.nullableNew inner)) :=
    names_callRuntime _ fun type htype => by rwa [List.mem_singleton.mp htype]
  induction target using convertInto.induct source with
  | case1 inner hsame =>
      rw [convertInto, if_pos hsame]
      exact Names.pure trivial
  | case2 inner hother hvalue ih =>
      rw [convertInto, if_neg hother, if_pos hvalue]
      have hinner := TargetType.within_nullable.mp htarget
      exact (ih hinner).bind fun _ _ => hnew hinner
  | case3 inner hother hvalue ih =>
      rw [convertInto, if_neg hother, if_neg hvalue]
      have hinner := TargetType.within_nullable.mp htarget
      exact names_nullTest (ih hinner) (hnew hinner)
  | case4 hnullable =>
      rw [convertInto, if_pos rfl]
      · exact Names.pure trivial
      · exact hnullable
  | case5 target hnullable hother =>
      rw [convertInto, if_neg hother]
      · exact names_convertPlain htarget
      · exact hnullable

theorem names_convert (checked : Bool)
    (hsource : source.Within scope.registry.target.types.length)
    (htarget : target.Within scope.registry.target.types.length) :
    Names scope (convert checked source target) := by
  induction source, target using convert.induct with
  | case1 inner =>
      rw [convert, if_pos rfl]
      exact Names.pure trivial
  | case2 inner target hother hplain =>
      rw [convert, if_neg hother, if_pos hplain]
      exact names_convertPlain htarget
  | case3 inner target hother hplain ih =>
      rw [convert, if_neg hother, if_neg hplain]
      have hinner := TargetType.within_nullable.mp hsource
      refine (names_callRuntime (.nullableValue inner) ?_).bind fun _ _ => ih hinner htarget
      intro type htype
      rwa [List.mem_singleton.mp htype]
  | case4 source target hnullable =>
      rw [convert]
      · exact names_convertInto checked source htarget
      · exact hnullable

end Conversion

include hscope

theorem names_loadAs (register : Int) {target : TargetType}
    (htarget : target.Within scope.registry.target.types.length) :
    Names scope (loadAs register target) :=
  (names_load hscope register).bind fun _ hsource => names_convert true hsource htarget

theorem names_storeFrom (register : Int) {source : TargetType}
    (hsource : source.Within scope.registry.target.types.length) :
    Names scope (storeFrom register source) :=
  (names_registerType hscope register).bind fun _ htarget =>
    (names_convert true hsource htarget).bind fun _ _ => names_store register

end Grounded
end Emit
end BytecodeLowering
