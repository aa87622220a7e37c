import BytecodeLowering.Body.Function
import BytecodeLowering.Proofs.Body.Performing
import BytecodeLowering.Proofs.Target.EnumClasses

/-!
# Enum values

What the code of the instructions on enums does when it runs.  A construct is
made by its constructor from what the arguments are converted to, or from the
zero values; afterwards the register gives the number of the construct and its
parameters back, and a look at it as another construct ends at the cast.
-/

namespace BytecodeLowering

variable {α : Type} {host : Host α} {module : TargetModule} {scope : Scope} {decl : TypeId}
  {shape : EnumShape} {construct other : ConstructShape} {k : Nat} {world : World α}
  {activation : Activation (Content α)} {values : List (Value α)} {register target : Nat}

structure Scope.EnumRegister (scope : Scope) (register : Nat) (decl : TypeId) (shape : EnumShape) :
    Prop where
  type : scope.registerTypes[register]? = some (.enum decl)
  source : ∃ index declaration, scope.function.registers[register]? = some index ∧
    scope.registry.declaration? index = some declaration ∧ declaration.decl = decl ∧
      declaration.shape = .enum shape

/-- A register has an instance of a construct with its parameters. -/
def EnumShape.HeldIn (shape : EnumShape) (scope : Scope) (register number : Nat)
    (construct : ConstructShape) (values : List (Value α)) (state : MachineState α) : Prop :=
  ∃ address entry, state.2.read scope register = Value.object address ∧
    state.1.heap[address]? = some entry ∧ shape.Denotes number construct values entry

/-- The code of a step comes to a cast to a class, which fails. -/
def Emit.FailsCast (host : Host α) (module : TargetModule) (scope : Scope) (step : Emit Unit)
    (type : TypeId) (state : MachineState α) : Prop :=
  ∀ before last, step scope before = .ok () last → ∃ code,
    last.builder.body = before.builder.body ++ code ∧
      ∀ (front behind : List Instr) (results : Nat) (callers : List (CallFrame α)), ∃ config,
        host.Reaches module (.at (front ++ (code ++ behind)) results callers front.length state)
            config ∧
          config.frame.code[config.frame.place]? = some (.castClass (.object type)) ∧
            host.step module config = none

namespace Emit

/-! ## The parts of an instruction -/

theorem enumOf_ok (h : scope.EnumRegister register decl shape) (before : Progress) :
    enumOf register scope before = .ok (decl, shape) before := by
  obtain ⟨index, declaration, hregister, hdeclaration, hdecl, hshape⟩ := h.source
  have hindex : sourceTypeIndex register scope before = .ok index before := by
    refine (bind_of_ok (registerIndex_of_type h.type before)).trans ?_
    refine (bind_of_ok rfl).trans ?_
    rw [List.getD_eq_getElem?_getD, hregister]
    rfl
  have henum : scope.registry.enum? index = some shape := by
    obtain ⟨stage, source, type, found⟩ := declaration
    subst hshape
    simp [Registry.enum?, hdeclaration]
  refine (bind_of_ok rfl).trans ((bind_of_ok hindex).trans ?_)
  rw [henum, hdeclaration, Option.map_some, hdecl]
  rfl

theorem constructOf_ok (h : shape.constructs[k]? = some construct) (before : Progress) :
    constructOf shape k scope before = .ok construct before := by
  have hfound : (Int.toNat? k).bind (shape.constructs[·]?) = some construct := h
  rw [constructOf, hfound]
  rfl

theorem pushDefault_performs (type : TargetType) :
    Performs host module scope (pushDefault type) () (world, activation)
      (world, activation.push (Value.zero type)) := by
  refine .emit (fun label => ?_) ?_
  · unfold defaultInstr
    split <;> simp
  · cases type with
    | builtin primitive => cases primitive <;> rfl
    | _ => rfl

/-! ## Making a construct -/

theorem storeConstruct_performs (host : Host α) (world : World α)
    (activation : Activation (Content α)) (hshape : shape.Built module decl)
    (hregister : scope.EnumRegister register decl shape)
    (hconstruct : shape.constructs[k]? = some construct)
    (hvalues : values.length = construct.fields.length) :
    ∃ entry, shape.Denotes k construct values entry ∧
      Performs host module scope (storeConstruct register decl construct) ()
        (world, { activation with stack := values.reverse ++ activation.stack })
        (world.add entry, activation.write scope register (Value.object world.heap.length)) := by
  obtain ⟨method, hmethod, -, howner, hsignature, -⟩ := hshape.constructors k construct hconstruct
  obtain ⟨entry, hentry, hreturns⟩ := hshape.returns host hconstruct hvalues world hmethod
  have hcount : values.length = method.signature.params.length := by
    rw [hsignature, hvalues, List.length_map]
  have hnew : Performs host module scope (emit (.newObj (.method construct.constructor))) ()
      (world, { activation with stack := values.reverse ++ activation.stack })
      (world.add entry, activation.push (Value.object world.heap.length)) :=
    fun _ => ⟨_, _, rfl, rfl, Executes.construct hmethod howner hcount hreturns _⟩
  have hstore : Performs host module scope (storeFrom register (.enum decl)) ()
      (world.add entry, activation.push (Value.object world.heap.length))
      (world.add entry, activation.write scope register (Value.object world.heap.length)) := by
    have hkept : TargetType.enum decl ≠ .void := by simp
    rw [← Activation.keep_of_ne_void hkept]
    exact storeFrom_performs hregister.type (.same _ _)
  exact ⟨entry, hentry, hnew.bind hstore⟩

/-- The registers of the arguments, with what the conversion to the types of
the parameters makes of their values. -/
def Arguments (host : Host α) (module : TargetModule) (scope : Scope) (state : MachineState α)
    (args : List Int) (fields : List FlatField) (values : List (Value α)) : Prop :=
  args.length = fields.length ∧ values.length = fields.length ∧
    ∀ (j : Nat) argument field value, args[j]? = some argument → fields[j]? = some field →
      values[j]? = some value → ∃ (index : Nat) (type : TargetType), argument = index ∧
        scope.registerTypes[index]? = some type ∧
          Coerces host module scope state.1 type field.type (state.2.fetch scope index type) value

theorem loadArguments_performs {args : List Int} {fields : List FlatField}
    (h : Arguments host module scope (world, activation) args fields values) :
    Performs host module scope
      ((args.zip fields).forM fun (register, field) => loadAs register field.type) ()
      (world, activation)
      (world, { activation with stack := values.reverse ++ activation.stack }) := by
  obtain ⟨hargs, hvalues, hloads⟩ := h
  have hcount : (args.zip fields).length = values.length := by
    rw [List.length_zip, hargs, hvalues, Nat.min_self]
  -- the values of the arguments that are done lie on the stack
  let states (i : Nat) : MachineState α :=
    (world, { activation with stack := (values.take i).reverse ++ activation.stack })
  have hrun := @Performs.forM α _ host module scope (args.zip fields)
    (fun pair => loadAs pair.1 pair.2.type) states ?_
  · simpa only [states, hcount, List.take_zero, List.take_length, List.reverse_nil,
      List.nil_append] using hrun
  · rintro i ⟨argument, field⟩ hitem
    obtain ⟨hargument, hfield⟩ := List.getElem?_zip_eq_some.mp hitem
    obtain ⟨value, hvalue⟩ : ∃ value, values[i]? = some value :=
      ⟨_, List.getElem?_eq_getElem (hcount ▸ (List.getElem?_eq_some_iff.mp hitem).1)⟩
    obtain ⟨index, type, rfl, htype, hcoerces⟩ :=
      hloads i argument field value hargument hfield hvalue
    have hload := @loadAs_performs α host module scope world (states i).2 index type _ value htype
      (by rwa [Activation.fetch_stack])
    have hnext : states (i + 1) = (world, (states i).2.push value) := by
      simp [states, Activation.push, List.take_add_one, hvalue]
    exact hnext ▸ hload

theorem pushDefaults_performs (fields : List FlatField) :
    Performs host module scope (fields.forM fun field => pushDefault field.type) ()
      (world, activation)
      (world, { activation with
        stack := (fields.map (Value.zero ·.type)).reverse ++ activation.stack }) := by
  induction fields generalizing activation with
  | nil => exact .pure ()
  | cons field fields ih =>
      rw [List.map_cons, List.reverse_cons, List.append_assoc]
      exact (pushDefault_performs field.type).bind (@ih (activation.push (Value.zero field.type)))

theorem makeEnum_performs (hshape : shape.Built module decl)
    (hregister : scope.EnumRegister register decl shape)
    (hconstruct : shape.constructs[k]? = some construct) {args : List Int}
    (hargs : Arguments host module scope (world, activation) args construct.fields values) :
    ∃ entry, shape.Denotes k construct values entry ∧
      Performs host module scope (operation ⟨.makeEnum, register :: k :: args⟩) ()
        (world, activation)
        (world.add entry, activation.write scope register (Value.object world.heap.length)) := by
  obtain ⟨entry, hentry, hstore⟩ :=
    storeConstruct_performs host world activation hshape hregister hconstruct hargs.2.1
  refine ⟨entry, hentry, ?_⟩
  change Performs host module scope (makeEnum register k args) () _ _
  refine (Performs.silent (enumOf_ok hregister) _).bind ?_
  refine (Performs.silent (constructOf_ok hconstruct) _).bind ?_
  rw [if_pos hargs.1]
  exact (loadArguments_performs hargs).bind hstore

theorem enumAlloc_performs (host : Host α) (world : World α) (activation : Activation (Content α))
    (hshape : shape.Built module decl) (hregister : scope.EnumRegister register decl shape)
    (hconstruct : shape.constructs[k]? = some construct) :
    ∃ entry, shape.Denotes k construct (construct.fields.map (Value.zero ·.type)) entry ∧
      Performs host module scope (operation ⟨.enumAlloc, [register, k]⟩) () (world, activation)
        (world.add entry, activation.write scope register (Value.object world.heap.length)) := by
  obtain ⟨entry, hentry, hstore⟩ :=
    storeConstruct_performs host world activation hshape hregister hconstruct (List.length_map ..)
  refine ⟨entry, hentry, (Performs.silent (enumOf_ok hregister) _).bind ?_⟩
  refine (Performs.silent (constructOf_ok hconstruct) _).bind ?_
  exact (pushDefaults_performs construct.fields).bind hstore

/-! ## Looking at a construct -/

section Looking

variable {type : TargetType} {result : Value α}

theorem load_enum_performs (hregister : scope.EnumRegister register decl shape)
    (hread : activation.read scope register = result) :
    Performs host module scope (load register) (.enum decl) (world, activation)
      (world, activation.push result) := by
  have hkept : TargetType.enum decl ≠ .void := by simp
  rw [← hread, ← Activation.fetch_of_ne_void hkept]
  exact load_performs hregister.type

theorem readField_performs {address : Nat} {entry : Instance α}
    (hheap : world.heap[address]? = some entry) {field : FieldRef}
    (hfield : module.hasField entry.type field = true) (hresult : entry.fields field = result) :
    Performs host module scope (emit (.ldFld field)) ()
      (world, activation.push (Value.object address)) (world, activation.push result) := by
  refine .emit (by simp) ?_
  simp [Host.effect, Activation.onTop, Activation.push, World.readField, Value.object, hheap,
    hfield, hresult]

theorem enumIndex_performs (hshape : shape.Built module decl)
    (hregister : scope.EnumRegister register decl shape)
    (hheld : shape.HeldIn scope register k construct values (world, activation))
    (hconstruct : shape.constructs[k]? = some construct)
    (htarget : scope.registerTypes[target]? = some type)
    (hresult : Coerces host module scope world .i32 type (IntegerType.i32.slot k) result) :
    Performs host module scope (operation ⟨.enumIndex, [target, register]⟩) () (world, activation)
      (world, activation.keep scope target type result) := by
  obtain ⟨address, entry, hread, hheap, hentry⟩ := hheld
  have hfield := hshape.hasField_index (List.mem_of_getElem? hconstruct)
  refine (Performs.silent (enumOf_ok hregister) _).bind ?_
  refine (load_enum_performs hregister hread).bind ?_
  refine (readField_performs hheap (hentry.type ▸ hfield) hentry.index).bind ?_
  exact storeFrom_performs htarget hresult

theorem enumField_performs (hshape : shape.Built module decl)
    (hregister : scope.EnumRegister register decl shape)
    (hheld : shape.HeldIn scope register k construct values (world, activation))
    (hconstruct : shape.constructs[k]? = some construct) {j : Nat} {field : FlatField}
    {value : Value α} (hfield : construct.fields[j]? = some field)
    (hvalue : values[j]? = some value)
    (htarget : scope.registerTypes[target]? = some type)
    (hresult : Coerces host module scope world field.type type value result) :
    Performs host module scope (operation ⟨.enumField, [target, register, k, j]⟩) ()
      (world, activation) (world, activation.keep scope target type result) := by
  obtain ⟨address, entry, hread, hheap, hentry⟩ := hheld
  have hplace := hshape.hasField_param (List.mem_of_getElem? hconstruct) hfield
  have hfound : (Int.toNat? j).bind (construct.fields[·]?) = some field := hfield
  have hparameter : Performs host module scope (enumParameter register k j)
      (field, .object construct.decl) (world, activation) (world, activation) := by
    refine (Performs.silent (enumOf_ok hregister) _).bind ?_
    refine (Performs.silent (constructOf_ok hconstruct) _).bind ?_
    rw [hfound]
    exact .pure _
  have hcast : Performs host module scope (emit (.castClass (.object construct.decl))) ()
      (world, activation.push (Value.object address))
      (world, activation.push (Value.object address)) := by
    refine .emit (by simp) ?_
    simp [Host.effect, Activation.onTop, Activation.push, Host.castTo, Value.object, hheap,
      hentry.type, TargetModule.derivesFrom_self]
  refine hparameter.bind ((load_enum_performs hregister hread).bind (hcast.bind ?_))
  refine (readField_performs hheap (hentry.type ▸ hplace)
    (hentry.params j field value hfield hvalue)).bind ?_
  exact storeFrom_performs htarget hresult

theorem enumParameter_ok (hregister : scope.EnumRegister register decl shape)
    (hconstruct : shape.constructs[k]? = some construct) {field : Int} {found : FlatField}
    {cast : TargetType} {before after : Progress}
    (h : enumParameter register k field scope before = .ok (found, cast) after) :
    after = before ∧ cast = .object construct.decl := by
  obtain ⟨_, middle, henum, h⟩ := bind_ok h
  cases (enumOf_ok hregister before).symm.trans henum
  obtain ⟨_, middle, hfound, h⟩ := bind_ok h
  cases (constructOf_ok hconstruct before).symm.trans hfound
  rcases hvalue : field.toNat?.bind (construct.fields[·]?) with _ | value <;> rw [hvalue] at h
  · cases h
  · cases h
    exact ⟨rfl, rfl⟩

theorem enumField_failsCast (hshape : shape.Built module decl)
    (hregister : scope.EnumRegister register decl shape)
    (hheld : shape.HeldIn scope register k construct values (world, activation))
    (hconstruct : shape.constructs[k]? = some construct) {k' : Nat}
    (hother : shape.constructs[k']? = some other) (hne : k' ≠ k) (target field : Int) :
    FailsCast host module scope (operation ⟨.enumField, [target, register, k', field]⟩) other.decl
      (world, activation) := by
  obtain ⟨address, entry, hread, hheap, hentry⟩ := hheld
  intro before last hstep
  obtain ⟨⟨found, type⟩, middle, hparameter, hrest⟩ := bind_ok hstep
  obtain ⟨rfl, rfl⟩ := enumParameter_ok hregister hother hparameter
  obtain ⟨_, between, hload, hrest⟩ := bind_ok hrest
  cases (load_of_type hregister.type middle).symm.trans hload
  obtain ⟨_, between, hcast, hrest⟩ := bind_ok hrest
  cases hcast
  obtain ⟨_, between, hfield, hstore⟩ := bind_ok hrest
  cases hfield
  have hemits : Emits False scope (storeFrom target found.type) 1 0 :=
    emits_storeFrom nofun nofun nofun
  obtain ⟨-, code, happends, -⟩ := hemits.ok _ _ _ hstore
  let instr := loadInstr scope register (.enum decl)
  let held := activation.push (Value.object address)
  have hload : host.effect module (world, activation) instr = some (world, held) := by
    rw [effect_load, Activation.fetch_of_ne_void (by simp)]
    exact congrArg (fun value => some (world, activation.push value)) hread
  have hfails : host.effect module (world, held) (.castClass (.object other.decl)) = none := by
    simp [held, Host.effect, Activation.onTop, Activation.push, Host.castTo, Value.object, hheap,
      hentry.type, hshape.not_derives hconstruct hother hne]
  refine ⟨instr :: .castClass (.object other.decl) :: .ldFld found.field :: code, ?_, ?_⟩
  · rw [happends.body]
    simp [Progress.followedBy, BodyBuilder.emit, instr]
  · intro front behind results callers
    refine ⟨_, .single (Host.step_of_effect (by simp [Config.at]) hload), ?_, ?_⟩
    · simp [Config.next, Config.at]
    · simp [Config.next, Config.at, Host.step, hfails]

end Looking

end Emit

end BytecodeLowering
