import BytecodeLowering.Proofs.Body.Coercion
import BytecodeLowering.Proofs.Body.Computation
import BytecodeLowering.Proofs.Target.Stretch

/-!
# Code that runs

A lowering step performs what it stands for when it succeeds and the code that
it appends takes the machine from one state to another, wherever the code comes
to stand.  The judgement follows the steps of the lowering as the one for
integers does, and covers instances and calls as well.
-/

namespace BytecodeLowering

namespace Activation

variable {α : Type} (scope : Scope) (state : Activation (Content α))

/-- What loading a register gives; one of type void reads as null. -/
def fetch (index : Nat) : TargetType → Value α
  | .void => Value.null
  | _ => state.read scope index

/-- Storing in a register; one of type void drops the value. -/
def keep (index : Nat) (type : TargetType) (value : Value α) : Activation (Content α) :=
  match type with
  | .void => state
  | _ => state.write scope index value

variable {scope state} {index : Nat} {type : TargetType} {value : Value α}

theorem fetch_of_ne_void (h : type ≠ .void) : state.fetch scope index type = state.read scope index := by
  unfold fetch
  split
  · exact absurd rfl h
  · rfl

theorem fetch_stack (stack : List (Value α)) :
    ({ state with stack } : Activation (Content α)).fetch scope index type
      = state.fetch scope index type := by
  cases type <;> rfl

theorem keep_of_ne_void (h : type ≠ .void) :
    state.keep scope index type value = state.write scope index value := by
  unfold keep
  split
  · exact absurd rfl h
  · rfl

end Activation

namespace Emit

/-- The step succeeds with a value, and its code takes the machine from one
state to another, whatever was written before. -/
def Performs {α β : Type} (host : Host α) (module : TargetModule) (scope : Scope) (step : Emit β)
    (value : β) (state after : MachineState α) : Prop :=
  ∀ before : Progress, ∃ code last, step scope before = .ok value last ∧
    last.builder.body = before.builder.body ++ code ∧
      Executes host module before.builder.labels.length code last.builder.labels.length state after

namespace Performs

variable {α β γ : Type} {host : Host α} {module : TargetModule} {scope : Scope}
  {state between after : MachineState α} {world : World α} {activation last : Activation (Content α)}

theorem of_computes {step : Emit β} {value : β}
    (h : Computes scope host.strict step value activation last) :
    Performs host module scope step value (world, activation) (world, last) := by
  obtain ⟨code, hcode, hrun⟩ := h
  exact fun before => ⟨code, _, hcode before, rfl, .of_run hrun _⟩

theorem pure (value : β) : Performs host module scope (Pure.pure value) value state state :=
  fun before => ⟨[], before, rfl, (List.append_nil _).symm, .nil _ _⟩

theorem silent {step : Emit β} {value : β} (h : ∀ before, step scope before = .ok value before)
    (state : MachineState α) : Performs host module scope step value state state :=
  fun before => ⟨[], before, h before, (List.append_nil _).symm, .nil _ _⟩

theorem bind {step : Emit β} {next : β → Emit γ} {first : β} {value : γ}
    (h : Performs host module scope step first state between)
    (hnext : Performs host module scope (next first) value between after) :
    Performs host module scope (step >>= next) value state after := by
  intro before
  obtain ⟨code, middle, hstep, hcode, hruns⟩ := h before
  obtain ⟨more, last, hfollowing, hmore, hrest⟩ := hnext middle
  refine ⟨code ++ more, last, (bind_of_ok hstep).trans hfollowing, ?_, hruns.append hrest⟩
  rw [hmore, hcode, List.append_assoc]

theorem emit {instr : Instr} (hmark : ∀ label, instr ≠ .markLabel label)
    (h : host.effect module state instr = some after) :
    Performs host module scope (emit instr) () state after :=
  fun _ => ⟨[instr], _, rfl, rfl, .of_effect hmark h _⟩

theorem forM {items : List β} {step : β → Emit Unit} (states : Nat → MachineState α)
    (h : ∀ i item, items[i]? = some item →
      Performs host module scope (step item) () (states i) (states (i + 1))) :
    Performs host module scope (items.forM step) () (states 0) (states items.length) := by
  induction items generalizing states with
  | nil => exact .pure ()
  | cons item items ih =>
      have hrest := ih (fun i => states (i + 1)) fun i next hnext => h (i + 1) next hnext
      exact (h 0 item rfl).bind hrest

end Performs

section Registers

variable {α : Type} {host : Host α} {module : TargetModule} {scope : Scope} {world : World α}
  {activation : Activation (Content α)} {index : Nat} {type : TargetType}
  (hindex : scope.registerTypes[index]? = some type)

include hindex

theorem registerIndex_of_type (before : Progress) :
    registerIndex index scope before = .ok index before := by
  refine (bind_of_ok rfl).trans ?_
  rw [if_pos (registerIndex_lt hindex)]
  rfl

theorem registerType_of_type (before : Progress) :
    registerType index scope before = .ok type before := by
  refine (bind_of_ok (registerIndex_of_type hindex before)).trans ((bind_of_ok rfl).trans ?_)
  rw [List.getD_eq_getElem?_getD, hindex]
  rfl

theorem load_of_type (before : Progress) :
    load index scope before = .ok type (before.followedBy [loadInstr scope index type]) := by
  refine (bind_of_ok (registerIndex_of_type hindex before)).trans ?_
  exact (bind_of_ok (registerType_of_type hindex before)).trans rfl

omit hindex in
theorem effect_load :
    host.effect module (world, activation) (loadInstr scope index type)
      = some (world, activation.push (activation.fetch scope index type)) := by
  unfold loadInstr
  split
  · rfl
  · rename_i hvoid
    rw [Activation.fetch_of_ne_void hvoid, Activation.read]
    split <;> rfl

theorem load_performs :
    Performs host module scope (load index) type (world, activation)
      (world, activation.push (activation.fetch scope index type)) := by
  have hmark (label : Label) : loadInstr scope index type ≠ .markLabel label := by
    unfold loadInstr
    split
    · simp
    · split <;> simp
  exact fun before => ⟨_, _, load_of_type hindex before, rfl, .of_effect hmark effect_load _⟩

theorem store_performs (value : Value α) :
    Performs host module scope (store index) () (world, activation.push value)
      (world, activation.keep scope index type value) := by
  by_cases hvoid : type = .void
  · subst hvoid
    refine .bind (.silent (registerIndex_of_type hindex) _) ?_
    exact .bind (.silent (registerType_of_type hindex) _) (.emit nofun rfl)
  · rw [Activation.keep_of_ne_void hvoid]
    exact .of_computes (store_computes hindex hvoid value)

end Registers

/-! ## Conversions -/

/-- The conversion from one type to another makes one value of another,
whatever lies around it. -/
def Coerces {α : Type} (host : Host α) (module : TargetModule) (scope : Scope) (world : World α)
    (source target : TargetType) (value result : Value α) : Prop :=
  ∀ activation : Activation (Content α), Performs host module scope (coerce source target) ()
    (world, activation.push value) (world, activation.push result)

section Coercing

variable {α : Type} {host : Host α} {module : TargetModule} {scope : Scope} {world : World α}
  {activation : Activation (Content α)} {index : Nat} {source target : TargetType}
  {value result : Value α}

theorem Coerces.same (type : TargetType) (value : Value α) :
    Coerces host module scope world type type value value := by
  intro activation
  rw [coerce, convert_self]
  exact .pure ()

theorem Coerces.integer (source target : IntegerType) {number : Int} (h : source.InRange number) :
    Coerces host module scope world source.target target.target (source.slot number)
      (target.slot (target.reduce number)) :=
  fun _ => .of_computes (coerce_computes source target h)

theorem loadAs_performs (hindex : scope.registerTypes[index]? = some source)
    (h : Coerces host module scope world source target (activation.fetch scope index source) result) :
    Performs host module scope (loadAs index target) () (world, activation)
      (world, activation.push result) :=
  (load_performs hindex).bind (h activation)

theorem storeFrom_performs (hindex : scope.registerTypes[index]? = some target)
    (h : Coerces host module scope world source target value result) :
    Performs host module scope (storeFrom index source) () (world, activation.push value)
      (world, activation.keep scope index target result) :=
  (Performs.silent (registerType_of_type hindex) _).bind ((h activation).bind (store_performs hindex result))

end Coercing

end Emit

end BytecodeLowering
