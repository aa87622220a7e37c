import BytecodeLowering.Body.Coercion
import BytecodeLowering.Proofs.Target.Integers
import BytecodeLowering.Proofs.Target.StackEffect
import Mathlib.Logic.Relation

/-!
# Running a module

A machine with frames, a heap of instances and global slots.  Integers are
computed on the stack, instances are made and their fields read and written
here; what the support library and the unit for floats do with a value is asked
of a host.  Whatever has no meaning is stuck: a missing operand, a field that
the class of an instance does not have, a cast that fails, an operation that
the host refuses.
-/

namespace BytecodeLowering

open Decimal (Binary64)

/-! ## Values -/

/-- What a slot holds that integer instructions do not look into.  An instance
is known by its address, a delegate by its method and the instance to which it
is bound. -/
inductive Content (α : Type) where
  | null
  | float (value : Binary64)
  | text (text : String)
  | object (address : Nat)
  | delegate (method : MethodId) (receiver : Option Nat)
  | host (content : α)
  deriving DecidableEq, Repr

abbrev Value (α : Type) := Slot (Content α)

namespace Value

variable {α : Type}

def null : Value α := .other .null

def object (address : Nat) : Value α := .other (.object address)

def zero : TargetType → Value α
  | .bool | .u8 | .u16 | .i32 => .word 0
  | .i64 => .long 0
  | .f32 | .f64 => .other (.float ⟨0⟩)
  | _ => null

end Value

/-- Whether a value counts as true in a branch; floats are not tested. -/
def Slot.truth? {α : Type} : Slot (Content α) → Option Bool
  | .word bits => some (bits != 0)
  | .long bits => some (bits != 0)
  | .other .null => some false
  | .other (.float _) => none
  | .other _ => some true

namespace Comparison

variable {w : Nat}

def holds (a b : BitVec w) : Comparison → Bool
  | .eq => a == b
  | .ne => a != b
  | .lt => a.slt b
  | .ge => b.sle a
  | .gt => b.slt a
  | .le => a.sle b
  | .ltUn => a.ult b
  | .geUn => b.ule a

end Comparison

/-- Comparisons of integers; nothing is said of those of other values. -/
def Slot.compare {α : Type} (comparison : Comparison) : Slot α → Slot α → Option Bool
  | .word a, .word b => some (comparison.holds a b)
  | .long a, .long b => some (comparison.holds a b)
  | _, _ => none

/-! ## The host -/

/-- What is not part of the module.  Some machines fail, `strict`, on one more
remainder. -/
structure Host (α : Type) where
  strict : Bool
  /-- The byte string of a string. -/
  bytes : String → α
  /-- What an instruction that takes one value and leaves one makes of it: boxing and unboxing,
  members of the support library, casts of values that are no instances, conversions of floats. -/
  apply : Instr → Value α → Option (Value α)

def Host.inert : Host Unit := ⟨true, fun _ => (), fun _ _ => none⟩

structure Instance (α : Type) where
  type : TypeId
  fields : FieldRef → Value α

def Instance.set {α : Type} (entry : Instance α) (field : FieldRef) (value : Value α) :
    Instance α :=
  { entry with fields := Function.update entry.fields field value }

namespace Instance

variable {α : Type} (entry : Instance α)

def fill (values : List (FieldRef × Value α)) : Instance α :=
  values.foldl (fun entry pair => entry.set pair.1 pair.2) entry

theorem fill_cons (field : FieldRef) (value : Value α) (values : List (FieldRef × Value α)) :
    entry.fill ((field, value) :: values) = (entry.set field value).fill values := rfl

theorem fill_type (values : List (FieldRef × Value α)) : (entry.fill values).type = entry.type := by
  induction values generalizing entry with
  | nil => rfl
  | cons pair values ih => exact ih (entry.set pair.1 pair.2)

theorem fill_other {values : List (FieldRef × Value α)} {field : FieldRef}
    (h : field ∉ values.map Prod.fst) : (entry.fill values).fields field = entry.fields field := by
  induction values generalizing entry with
  | nil => rfl
  | cons pair values ih =>
      obtain ⟨hfirst, hrest⟩ := not_or.mp (mt List.mem_cons.mpr h)
      exact (ih (entry.set pair.1 pair.2) hrest).trans (Function.update_of_ne hfirst ..)

theorem fill_mem {values : List (FieldRef × Value α)} (hdistinct : (values.map Prod.fst).Nodup)
    {field : FieldRef} {value : Value α} (h : (field, value) ∈ values) :
    (entry.fill values).fields field = value := by
  induction values generalizing entry with
  | nil => cases h
  | cons pair values ih =>
      obtain ⟨hfresh, hothers⟩ := List.nodup_cons.mp hdistinct
      rcases List.mem_cons.mp h with rfl | h
      · exact ((entry.set field value).fill_other hfresh).trans (Function.update_self ..)
      · exact ih (entry.set pair.1 pair.2) hothers h

end Instance

/-- An instance of a class with all fields at their zero values. -/
def TargetModule.blank {α : Type} (module : TargetModule) (type : TypeId) : Instance α where
  type
  fields field := Value.zero (((module.field? field).map (·.type)).getD .void)

def TargetModule.hasField (module : TargetModule) (type : TypeId) (field : FieldRef) : Bool :=
  module.derivesFrom type field.owner && (module.field? field).isSome

structure World (α : Type) where
  heap : List (Instance α)
  globals : GlobalId → Value α

section Machine

variable {α : Type} (host : Host α) (module : TargetModule)

namespace World

variable (world : World α)

def readField (field : FieldRef) : Value α → Option (Value α)
  | .other (.object address) =>
      (world.heap[address]?).bind fun entry =>
        if module.hasField entry.type field then some (entry.fields field) else none
  | _ => none

def setField (address : Nat) (field : FieldRef) (value : Value α) : World α :=
  { world with heap := world.heap.modify address (·.set field value) }

def setGlobal (global : GlobalId) (value : Value α) : World α :=
  { world with globals := Function.update world.globals global value }

def add (entry : Instance α) : World α := { world with heap := world.heap ++ [entry] }

theorem getElem?_add (entry : Instance α) :
    (world.add entry).heap[world.heap.length]? = some entry := by
  simp [add]

theorem setField_add (entry : Instance α) (field : FieldRef) (value : Value α) :
    (world.add entry).setField world.heap.length field value = world.add (entry.set field value) := by
  simp [add, setField, List.modify_eq_take_cons_drop]

end World

namespace Host

/-- Null is in every class, and an instance in its own and the bases of it. -/
def castTo (world : World α) (type : TargetType) (value : Value α) : Option (Value α) :=
  match value, type with
  | .other .null, _ => some value
  | .other (.object address), .declared _ id =>
      if (world.heap[address]?).any fun entry => module.derivesFrom entry.type id then some value
      else none
  | _, _ => host.apply (.castClass type) value

/-- Integers are converted here, floats by the host. -/
def convertTo (conversion : Conversion) (value : Value α) : Option (Value α) :=
  (Slot.conv conversion value).or (host.apply (.conv conversion) value)

def support (instr : Instr) (member : RuntimeMember) (value : Value α) : Option (Value α) :=
  match member, value with
  | .bytesFromString, .other (.text text) => some (.other (.host (host.bytes text)))
  | .bytesFromString, _ => none
  | member, value =>
      if member.signature.params.length = 1 ∧ member.signature.ret ≠ .void then
        host.apply instr value
      else none

end Host

namespace Activation

def onTop (f : Value α → Option (Value α)) (state : Activation (Content α)) :
    Option (Activation (Content α)) :=
  match state.stack with
  | value :: stack => (f value).map fun result => { state with stack := result :: stack }
  | [] => none

end Activation

/-- The state of the running method with what all methods share. -/
abbrev MachineState (α : Type) := World α × Activation (Content α)

def Host.effect (state : MachineState α) (instr : Instr) : Option (MachineState α) :=
  let (world, activation) := state
  match instr, activation.stack with
  | .nop, _ | .markLabel _, _ | .sequencePoint _ _, _ => some state
  | .pop, _ :: stack => some (world, { activation with stack })
  | .dup, value :: stack => some (world, { activation with stack := value :: value :: stack })
  | .ldNull, _ => some (world, activation.push Value.null)
  | .ldcR8 value, _ => some (world, activation.push (.other (.float value)))
  | .ldStr text, _ => some (world, activation.push (.other (.text text)))
  | .ldFld field, _ => (activation.onTop (world.readField module field)).map (world, ·)
  | .stFld field, value :: .other (.object address) :: stack =>
      if (world.heap[address]?).any fun entry => module.hasField entry.type field then
        some (world.setField address field value, { activation with stack })
      else none
  | .ldSFld global, _ => some (world, activation.push (world.globals global))
  | .stSFld global, value :: stack => some (world.setGlobal global value, { activation with stack })
  | .newDelegate method false, _ =>
      some (world, activation.push (.other (.delegate method none)))
  | .newDelegate method true, .other (.object address) :: stack =>
      some (world, { activation with stack := .other (.delegate method (some address)) :: stack })
  | .castClass type, _ => (activation.onTop (host.castTo module world type)).map (world, ·)
  | .conv conversion, _ => (activation.onTop (host.convertTo conversion)).map (world, ·)
  | .box _, _ | .unboxAny _, _ => (activation.onTop (host.apply instr)).map (world, ·)
  | .call (.runtime member), _ | .newObj (.runtime member), _ =>
      (activation.onTop (host.support instr member)).map (world, ·)
  | instr, _ => (activation.effect host.strict instr).map (world, ·)

/-! ## Control -/

/-- A method that runs.  `results` is the number of values it returns. -/
structure CallFrame (α : Type) where
  code : List Instr
  place : Nat
  activation : Activation (Content α)
  results : Nat

structure Config (α : Type) where
  frame : CallFrame α
  callers : List (CallFrame α)
  world : World α

def MethodDecl.enter (method : MethodDecl) (arguments : List (Value α)) : CallFrame α where
  code := method.body
  place := 0
  activation :=
    { args := fun number => (arguments[number.toNat]?).getD Value.null
      locals := fun number => Value.zero ((method.locals[number.toNat]?).getD .any)
      stack := [] }
  results := method.signature.ret.slots

namespace Config

variable (config : Config α)

def next (state : MachineState α) : Config α :=
  { config with
    frame := { config.frame with place := config.frame.place + 1, activation := state.2 }
    world := state.1 }

def goTo (place : Nat) (stack : List (Value α)) : Config α :=
  { config with
    frame := { config.frame with place, activation := { config.frame.activation with stack } } }

def jump (label : Label) (stack : List (Value α)) : Option (Config α) :=
  (config.frame.code.idxOf? (.markLabel label)).map (config.goTo · stack)

def choose (taken : Bool) (label : Label) (stack : List (Value α)) : Option (Config α) :=
  if taken then config.jump label stack else some (config.goTo (config.frame.place + 1) stack)

/-- A call of a method with the topmost values, the last argument on top. -/
def call (id : MethodId) : Option (Config α) :=
  (module.method? id).bind fun method =>
    let stack := config.frame.activation.stack
    let count := method.argumentOffset + method.signature.params.length
    if count ≤ stack.length then
      some { config with
        frame := method.enter (stack.take count).reverse
        callers := (config.goTo (config.frame.place + 1) (stack.drop count)).frame :: config.callers }
    else none

/-- A new instance of the class of a constructor, which is entered with it; the
instance is left on the stack of the caller. -/
def construct (id : MethodId) : Option (Config α) :=
  (module.method? id).bind fun method => method.owner.bind fun owner =>
    let stack := config.frame.activation.stack
    let count := method.signature.params.length
    let made : Value α := Value.object config.world.heap.length
    if count ≤ stack.length then
      some {
        frame := method.enter (made :: (stack.take count).reverse)
        callers :=
          (config.goTo (config.frame.place + 1) (made :: stack.drop count)).frame :: config.callers
        world := config.world.add (module.blank owner) }
    else none

def leave : Option (Config α) :=
  match config.callers with
  | [] => none
  | caller :: callers =>
      let stack := config.frame.activation.stack
      if config.frame.results ≤ stack.length then
        some { config with
          frame := { caller with
            activation := { caller.activation with
              stack := stack.take config.frame.results ++ caller.activation.stack } }
          callers }
      else none

end Config

namespace Host

def step (config : Config α) : Option (Config α) :=
  match config.frame.code[config.frame.place]?, config.frame.activation.stack with
  | some (.br label), stack => config.jump label stack
  | some (.leave label), _ => config.jump label []
  | some (.brTrue label), value :: stack =>
      value.truth?.bind fun truth => config.choose truth label stack
  | some (.brFalse label), value :: stack =>
      value.truth?.bind fun truth => config.choose (!truth) label stack
  | some (.branch comparison label), b :: a :: stack =>
      (Slot.compare comparison a b).bind fun taken => config.choose taken label stack
  | some .ret, _ => config.leave
  | some (.newObj (.method id)), _ => config.construct module id
  | some (.call (.method id)), _ => config.call module id
  | some instr, _ =>
      (host.effect module (config.world, config.frame.activation) instr).map config.next
  | none, _ => none

def Reaches (config other : Config α) : Prop :=
  Relation.ReflTransGen (fun a b => host.step module a = some b) config other

/-! ### Steps -/

section Steps

variable {host module} {config : Config α} {instr : Instr}

theorem step_of_effect {after : MachineState α}
    (hinstr : config.frame.code[config.frame.place]? = some instr)
    (heffect : host.effect module (config.world, config.frame.activation) instr = some after) :
    host.step module config = some (config.next after) := by
  have hcall : ∀ id, instr ≠ .call (.method id) ∧ instr ≠ .newObj (.method id) := by
    intro id
    constructor <;> (rintro rfl; cases heffect)
  unfold step
  rw [hinstr]
  cases instr with
  | call target =>
      cases target with
      | method id => exact absurd rfl (hcall id).1
      | runtime member => exact congrArg (Option.map _) heffect
  | newObj target =>
      cases target with
      | method id => exact absurd rfl (hcall id).2
      | runtime member => exact congrArg (Option.map _) heffect
  | br | leave | brTrue | brFalse | branch | ret => cases heffect
  | _ => exact congrArg (Option.map _) heffect

theorem step_br {label : Label} (hinstr : config.frame.code[config.frame.place]? = some (.br label)) :
    host.step module config = config.jump label config.frame.activation.stack := by
  unfold step
  rw [hinstr]

theorem step_leave {label : Label}
    (hinstr : config.frame.code[config.frame.place]? = some (.leave label)) :
    host.step module config = config.jump label [] := by
  unfold step
  rw [hinstr]

theorem step_branch {label : Label} {comparison : Comparison} {a b : Value α}
    {stack : List (Value α)} {taken : Bool}
    (hinstr : config.frame.code[config.frame.place]? = some (.branch comparison label))
    (hstack : config.frame.activation.stack = b :: a :: stack)
    (htaken : Slot.compare comparison a b = some taken) :
    host.step module config = config.choose taken label stack := by
  unfold step
  rw [hinstr, hstack]
  simp only [htaken, Option.bind_some]

theorem step_ret (hinstr : config.frame.code[config.frame.place]? = some .ret) :
    host.step module config = config.leave := by
  unfold step
  rw [hinstr]

theorem step_construct (id : MethodId)
    (hinstr : config.frame.code[config.frame.place]? = some (.newObj (.method id))) :
    host.step module config = config.construct module id := by
  unfold step
  rw [hinstr]

theorem step_call (id : MethodId)
    (hinstr : config.frame.code[config.frame.place]? = some (.call (.method id))) :
    host.step module config = config.call module id := by
  unfold step
  rw [hinstr]

theorem effect_stFld_add {world : World α} {entry : Instance α} {field : FieldRef}
    (hfield : module.hasField entry.type field = true) (value : Value α)
    (activation : Activation (Content α)) (stack : List (Value α)) :
    host.effect module (world.add entry,
        { activation with stack := value :: Value.object world.heap.length :: stack }) (.stFld field)
      = some (world.add (entry.set field value), { activation with stack }) := by
  simp only [effect, Value.object, World.getElem?_add, Option.any_some, hfield, if_pos,
    World.setField_add]

theorem effect_of_integers {world : World α} {activation after : Activation (Content α)}
    (h : activation.effect host.strict instr = some after) :
    host.effect module (world, activation) instr = some (world, after) := by
  have hmap : (activation.effect host.strict instr).map (world, ·) = some (world, after) :=
    congrArg (Option.map (world, ·)) h
  cases instr with
  | conv conversion =>
      match hstack : activation.stack with
      | [] => simp [Activation.effect, hstack] at h
      | value :: stack =>
          simp only [Activation.effect, hstack] at h
          obtain ⟨result, hresult, rfl⟩ := Option.map_eq_some_iff.mp h
          simp only [effect, Activation.onTop, hstack, convertTo, hresult, Option.some_or,
            Option.map_some]
          rfl
  | ldArg | ldLoc | stArg | stLoc | ldcI4 | ldcI8 | binary | unary => exact hmap
  | _ => cases h

end Steps

end Host

end Machine

end BytecodeLowering
