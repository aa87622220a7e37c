import BytecodeLowering.Proofs.Target.Inheritance
import BytecodeLowering.Proofs.Target.Stretch

/-!
# Instances of object classes

The constructor of an object class takes nothing beside its instance.  It runs
the constructor of the base on the instance, if the class has one, and then binds
methods to fields of the instance, so a new instance is the blank one with
delegates in some of its fields.
-/

namespace BytecodeLowering

def bindingCode (bindings : List (FieldRef × MethodId)) : List Instr :=
  bindings.flatMap fun binding =>
    [.ldArg 0, .ldArg 0, .newDelegate binding.2 true, .stFld binding.1]

namespace TargetModule

/-- The constructor of a class, which runs some code first and then binds methods
to fields that the class has. -/
structure Initializes (module : TargetModule) (decl : TypeId) (id : MethodId)
    (first : List Instr) (method : MethodDecl) : Prop where
  found : module.method? id = some method
  kind : method.kind = .constructor
  owner : method.owner = some decl
  signature : method.signature = ⟨[], .void⟩
  body : ∃ bindings, (∀ binding ∈ bindings, module.hasField decl binding.1 = true) ∧
    method.body = first ++ bindingCode bindings ++ [.ret]

inductive ObjectClass (module : TargetModule) : TypeId → MethodId → Prop
  | root {decl : TypeId} {id : MethodId} {method : MethodDecl}
      (h : module.Initializes decl id [] method) : ObjectClass module decl id
  | derived {decl base : TypeId} {id parent : MethodId} {method : MethodDecl}
      (h : module.Initializes decl id [.ldArg 0, .call (.method parent)] method)
      (hbase : module.derivesFrom decl base = true) (hparent : ObjectClass module base parent) :
      ObjectClass module decl id

variable {module after : TargetModule}

theorem hasField_types (h : after.types = module.types) : after.hasField = module.hasField := by
  funext type field
  simp only [hasField, derivesFrom_types h, field?, type?, h]

theorem hasField_derived {type decl : TypeId} {field : FieldRef}
    (hderives : module.derivesFrom type decl = true) (h : module.hasField decl field = true) :
    module.hasField type field = true := by
  rw [hasField, Bool.and_eq_true] at h ⊢
  exact ⟨derivesFrom_trans hderives h.1, h.2⟩

theorem Initializes.keep {decl : TypeId} {id : MethodId} {first : List Instr} {method : MethodDecl}
    (h : module.Initializes decl id first method) (htypes : after.types = module.types)
    (hmethods : ∀ id method, module.method? id = some method → after.method? id = some method) :
    after.Initializes decl id first method :=
  ⟨hmethods id method h.found, h.kind, h.owner, h.signature, by
    rw [hasField_types htypes]; exact h.body⟩

theorem ObjectClass.keep {decl : TypeId} {id : MethodId} (h : module.ObjectClass decl id)
    (htypes : after.types = module.types)
    (hmethods : ∀ id method, module.method? id = some method → after.method? id = some method) :
    after.ObjectClass decl id := by
  induction h with
  | root h => exact .root (h.keep htypes hmethods)
  | derived h hbase _ ih =>
      exact .derived (h.keep htypes hmethods) (by rw [derivesFrom_types htypes, hbase]) ih

end TargetModule

theorem Instance.fill_append {α : Type} (entry : Instance α)
    (first second : List (FieldRef × Value α)) :
    entry.fill (first ++ second) = (entry.fill first).fill second :=
  List.foldl_append

/-! ## Constructors -/

section Running

variable {α : Type} {host : Host α} {module : TargetModule} {world : World α} {entry : Instance α}
  {activation : Activation (Content α)} {decl : TypeId} {id : MethodId}

theorem executes_binding (hself : activation.args 0 = Value.object world.heap.length)
    {field : FieldRef} (hfield : module.hasField entry.type field = true) (method : MethodId)
    (first : Nat) :
    Executes host module first [.ldArg 0, .ldArg 0, .newDelegate method true, .stFld field] first
      (world.add entry, activation)
      (world.add (entry.set field (.other (.delegate method (some world.heap.length)))),
        activation) := by
  have hload (state : Activation (Content α)) (hargs : state.args = activation.args) :
      Executes host module first [.ldArg 0] first (world.add entry, state)
        (world.add entry, state.push (Value.object world.heap.length)) :=
    .of_effect (by simp) (by rw [← hself, ← hargs]; rfl) first
  have hdelegate : Executes host module first [.newDelegate method true] first
      (world.add entry, (activation.push (Value.object world.heap.length)).push
        (Value.object world.heap.length))
      (world.add entry, (activation.push (Value.object world.heap.length)).push
        (.other (.delegate method (some world.heap.length)))) := .of_effect (by simp) rfl first
  have hstore : Executes host module first [.stFld field] first
      (world.add entry, (activation.push (Value.object world.heap.length)).push
        (.other (.delegate method (some world.heap.length))))
      (world.add (entry.set field (.other (.delegate method (some world.heap.length)))),
        activation) :=
    .of_effect (by simp) (Host.effect_stFld_add hfield _ activation activation.stack) first
  exact (hload activation rfl).append
    ((hload (activation.push (Value.object world.heap.length)) rfl).append
      (hdelegate.append hstore))

theorem executes_bindings (hself : activation.args 0 = Value.object world.heap.length)
    {bindings : List (FieldRef × MethodId)}
    (hfields : ∀ binding ∈ bindings, module.hasField entry.type binding.1 = true) (first : Nat) :
    Executes host module first (bindingCode bindings) first (world.add entry, activation)
      (world.add (entry.fill (bindings.map fun binding =>
        (binding.1, .other (.delegate binding.2 (some world.heap.length))))), activation) := by
  induction bindings generalizing entry with
  | nil => exact .nil first _
  | cons binding bindings ih =>
      obtain ⟨hfield, hrest⟩ := List.forall_mem_cons.mp hfields
      exact (executes_binding hself hfield binding.2 first).append (ih hrest)

namespace TargetModule

theorem Initializes.returns {code : List Instr} {method : MethodDecl}
    (h : module.Initializes decl id code method)
    (hderives : module.derivesFrom entry.type decl = true) {filled : List (FieldRef × Value α)}
    (hfirst : Executes host module 0 code 0
      (world.add entry, (method.enter [Value.object world.heap.length]).activation)
      (world.add (entry.fill filled), (method.enter [Value.object world.heap.length]).activation)) :
    ∃ filled, host.Returns module (method.enter [Value.object world.heap.length])
      (world.add entry) [] (world.add (entry.fill filled)) := by
  obtain ⟨bindings, hfields, hbody⟩ := h.body
  have hbindings := @executes_bindings α host module world (entry.fill filled)
    (method.enter [Value.object world.heap.length]).activation rfl bindings
    (fun binding hbinding => by
      rw [Instance.fill_type]
      exact hasField_derived hderives (hfields binding hbinding)) 0
  refine ⟨filled ++ bindings.map fun binding =>
    (binding.1, .other (.delegate binding.2 (some world.heap.length))), ?_⟩
  rw [Instance.fill_append]
  exact Executes.returns hbody (hfirst.append hbindings) (by rw [h.signature]; rfl)

/-- A constructor comes to its end on any instance of its class, and changes
nothing but fields of the instance. -/
theorem ObjectClass.returns (h : module.ObjectClass decl id) {method : MethodDecl}
    (hmethod : module.method? id = some method)
    (hderives : module.derivesFrom entry.type decl = true) (world : World α) :
    ∃ filled, host.Returns module (method.enter [Value.object world.heap.length])
      (world.add entry) [] (world.add (entry.fill filled)) := by
  induction h generalizing method with
  | root h =>
      obtain rfl := Option.some.inj (hmethod.symm.trans h.found)
      let entered : Activation (Content α) :=
        (method.enter [Value.object world.heap.length]).activation
      have hnone : Executes host module 0 [] 0 (world.add entry, entered)
          (world.add (entry.fill []), entered) := .nil 0 _
      exact h.returns hderives hnone
  | @derived decl base id parent _ h hbase hparent ih =>
      obtain rfl := Option.some.inj (hmethod.symm.trans h.found)
      obtain ⟨above, habove, hkind, hsignature⟩ : ∃ above, module.method? parent = some above ∧
          above.kind = .constructor ∧ above.signature = ⟨[], .void⟩ := by
        cases hparent with
        | root h => exact ⟨_, h.found, h.kind, h.signature⟩
        | derived h => exact ⟨_, h.found, h.kind, h.signature⟩
      obtain ⟨filled, hreturns⟩ := ih habove (derivesFrom_trans hderives hbase)
      let arguments : List (Value α) := [Value.object world.heap.length]
      have hcount : arguments.length = above.argumentOffset + above.signature.params.length := by
        rw [hsignature, MethodDecl.argumentOffset, if_pos hkind]
        rfl
      let entered : Activation (Content α) :=
        (method.enter [Value.object world.heap.length]).activation
      have hload : Executes host module 0 [.ldArg 0] 0 (world.add entry, entered)
          (world.add entry, entered.push (Value.object world.heap.length)) :=
        .of_effect (by simp) rfl 0
      have hcall : Executes host module 0 [.call (.method parent)] 0
          (world.add entry, entered.push (Value.object world.heap.length))
          (world.add (entry.fill filled), entered) := .call habove hcount hreturns 0
      exact h.returns hderives (hload.append hcall)

theorem ObjectClass.executes_new (h : module.ObjectClass decl id)
    (activation : Activation (Content α)) (world : World α) (first : Nat) :
    ∃ filled, Executes host module first [.newObj (.method id)] first (world, activation)
      (world.add ((module.blank decl).fill filled),
        activation.push (Value.object world.heap.length)) := by
  obtain ⟨method, hmethod, howner, hsignature⟩ : ∃ method, module.method? id = some method ∧
      method.owner = some decl ∧ method.signature = ⟨[], .void⟩ := by
    cases h with
    | root h => exact ⟨_, h.found, h.owner, h.signature⟩
    | derived h => exact ⟨_, h.found, h.owner, h.signature⟩
  obtain ⟨filled, hreturns⟩ := @ObjectClass.returns α host module (module.blank decl) decl id h
    method hmethod (derivesFrom_self decl) world
  exact ⟨filled, .construct hmethod howner (by rw [hsignature]; rfl) hreturns first⟩

end TargetModule

/-! ## Values for fields -/

theorem executes_setting {code : List Instr} {field : FieldRef} {value : Value α}
    (hfield : module.hasField entry.type field = true) (first : Nat)
    (hcode : ∀ state : MachineState α,
      Executes host module first code first state (state.1, state.2.push value)) :
    Executes host module first (.dup :: code ++ [.stFld field]) first
      (world.add entry, activation.push (Value.object world.heap.length))
      (world.add (entry.set field value), activation.push (Value.object world.heap.length)) := by
  have hdup : Executes host module first [.dup] first
      (world.add entry, activation.push (Value.object world.heap.length))
      (world.add entry, (activation.push (Value.object world.heap.length)).push
        (Value.object world.heap.length)) := .of_effect (by simp) rfl first
  have hstore : Executes host module first [.stFld field] first
      (world.add entry, ((activation.push (Value.object world.heap.length)).push
        (Value.object world.heap.length)).push value)
      (world.add (entry.set field value), activation.push (Value.object world.heap.length)) :=
    .of_effect (by simp) (Host.effect_stFld_add hfield value
      (activation.push (Value.object world.heap.length)) _) first
  exact hdup.append ((hcode _).append hstore)

end Running

end BytecodeLowering
