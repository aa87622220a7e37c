import BytecodeLowering.Proofs.Lower.ConstructorArguments
import BytecodeLowering.Proofs.Target.Inheritance
import BytecodeLowering.Proofs.Target.Stretch

/-!
# Instances of the classes of an enum

The class of a construct derives from the class of its enum and from no other
construct.  Its constructor writes the number of the construct and one field for
each argument, so an instance keeps both.
-/

namespace BytecodeLowering

/-- The classes of an enum as a module has them, with the code of their
constructors. -/
structure EnumShape.Built (module : TargetModule) (decl : TypeId) (shape : EnumShape) : Prop where
  index : shape.indexField = ⟨decl, 0⟩
  indexed : (module.field? ⟨decl, 0⟩).isSome
  root : (module.type? decl).map (·.base) = some none
  base : ∀ construct ∈ shape.constructs,
    (module.type? construct.decl).map (·.base) = some (some decl)
  fresh : decl ∉ shape.constructs.map (·.decl)
  distinct : (shape.constructs.map (·.decl)).Nodup
  fields : ∀ construct ∈ shape.constructs, ∀ (j : Nat) field, construct.fields[j]? = some field →
    field.field = ⟨construct.decl, j⟩ ∧
      (module.field? field.field).map (·.type) = some field.type
  counted : ∀ construct ∈ shape.constructs, construct.fields.length ≤ 65535
  constructors : ∀ (k : Nat) construct, shape.constructs[k]? = some construct → ∃ method,
    module.method? construct.constructor = some method ∧ method.kind = .constructor ∧
      method.owner = some construct.decl ∧
      method.signature = ⟨construct.fields.map (·.type), .void⟩ ∧
      method.body = EnumLayout.constructorCode shape.indexField k construct.fields

/-- The instance keeps the number of a construct and its parameters. -/
structure EnumShape.Denotes {α : Type} (shape : EnumShape) (number : Nat)
    (construct : ConstructShape) (values : List (Value α)) (entry : Instance α) : Prop where
  type : entry.type = construct.decl
  index : entry.fields shape.indexField = IntegerType.i32.slot number
  params : ∀ (j : Nat) field value, construct.fields[j]? = some field → values[j]? = some value →
    entry.fields field.field = value

namespace EnumShape.Built

variable {α : Type} {host : Host α} {module : TargetModule} {decl : TypeId} {shape : EnumShape}
  {construct other : ConstructShape} {k : Nat}

section Classes

variable (h : shape.Built module decl)

include h

theorem hasField_index (hconstruct : construct ∈ shape.constructs) :
    module.hasField construct.decl shape.indexField = true := by
  rw [TargetModule.hasField, h.index, h.indexed,
    TargetModule.derivesFrom_base (TargetModule.base?_of_type (h.base construct hconstruct))]
  rfl

theorem hasField_param (hconstruct : construct ∈ shape.constructs) {j : Nat} {field : FlatField}
    (hfield : construct.fields[j]? = some field) :
    module.hasField construct.decl field.field = true := by
  obtain ⟨hplace, htype⟩ := h.fields construct hconstruct j field hfield
  obtain ⟨found, hfound, -⟩ := Option.map_eq_some_iff.mp htype
  rw [TargetModule.hasField, hfound, hplace, TargetModule.derivesFrom_self]
  rfl

/-- The instances of a construct are not in the class of another. -/
theorem not_derives {k' : Nat} (hconstruct : shape.constructs[k]? = some construct)
    (hother : shape.constructs[k']? = some other) (hne : k' ≠ k) :
    module.derivesFrom construct.decl other.decl = false := by
  have hmem := List.mem_of_getElem? hconstruct
  refine TargetModule.not_derivesFrom (TargetModule.base?_of_type (h.base construct hmem))
    (TargetModule.base?_of_type h.root) ?_ ?_
  · intro hsame
    have hplaces : (shape.constructs.map (·.decl))[k]? = (shape.constructs.map (·.decl))[k']? := by
      rw [List.getElem?_map, List.getElem?_map, hconstruct, hother, Option.map_some,
        Option.map_some, hsame]
    refine hne ((List.getElem?_inj ?_ h.distinct).mp hplaces).symm
    simpa using (List.getElem?_eq_some_iff.mp hconstruct).1
  · intro hsame
    exact h.fresh (hsame ▸ List.mem_map_of_mem (List.mem_of_getElem? hother))

end Classes

theorem keep (h : shape.Built module decl) {after : TargetModule}
    (htypes : after.types = module.types)
    (hcodes : ∀ construct ∈ shape.constructs,
      after.method? construct.constructor = module.method? construct.constructor) :
    shape.Built after decl := by
  have htype : after.type? = module.type? := by
    funext id
    rw [TargetModule.type?, htypes, TargetModule.type?]
  have hfield : after.field? = module.field? := by
    funext field
    rw [TargetModule.field?, htype, TargetModule.field?]
  refine ⟨h.index, hfield ▸ h.indexed, htype ▸ h.root, htype ▸ h.base, h.fresh, h.distinct,
    hfield ▸ h.fields, h.counted, ?_⟩
  intro k construct hconstruct
  rw [hcodes construct (List.mem_of_getElem? hconstruct)]
  exact h.constructors k construct hconstruct

/-! ## Constructors -/

theorem executes_store {world : World α} {entry : Instance α}
    {activation : Activation (Content α)}
    (hself : activation.args 0 = Value.object world.heap.length) {field : FieldRef}
    (hfield : module.hasField entry.type field = true) (number : UInt16)
    (first : Nat) :
    Executes host module first [.ldArg 0, .ldArg number, .stFld field] first
      (world.add entry, activation)
      (world.add (entry.set field (activation.args number)), activation) := by
  have hfirst : Executes host module first [.ldArg 0] first (world.add entry, activation)
      (world.add entry, activation.push (Value.object world.heap.length)) :=
    .of_effect (by simp) (hself ▸ rfl) first
  have hsecond : Executes host module first [.ldArg number] first
      (world.add entry, activation.push (Value.object world.heap.length))
      (world.add entry, (activation.push (Value.object world.heap.length)).push
        (activation.args number)) := .of_effect (by simp) rfl first
  have hthird : Executes host module first [.stFld field] first
      (world.add entry, (activation.push (Value.object world.heap.length)).push
        (activation.args number))
      (world.add (entry.set field (activation.args number)), activation) :=
    .of_effect (by simp) (Host.effect_stFld_add hfield _ activation activation.stack) first
  exact hfirst.append (hsecond.append hthird)

def arguments (activation : Activation (Content α)) (start : Nat) (fields : List FlatField) :
    List (FieldRef × Value α) :=
  fields.mapIdx fun i field => (field.field, activation.args (UInt16.ofNat (start + i + 1)))

theorem executes_params {world : World α} {activation : Activation (Content α)}
    (hself : activation.args 0 = Value.object world.heap.length) {fields : List FlatField}
    {entry : Instance α} (hfields : ∀ field ∈ fields, module.hasField entry.type field.field = true)
    (start first : Nat) :
    Executes host module first
      (fields.mapIdx fun i field =>
        EnumLayout.storeArgument (UInt16.ofNat (start + i + 1)) field).flatten first
      (world.add entry, activation)
      (world.add (entry.fill (arguments activation start fields)), activation) := by
  induction fields generalizing entry start with
  | nil => exact .nil first _
  | cons field fields ih =>
      obtain ⟨hfield, hrest⟩ := List.forall_mem_cons.mp hfields
      have hnext :=
        @ih (entry.set field.field (activation.args (UInt16.ofNat (start + 1)))) hrest (start + 1)
      rw [arguments] at hnext
      simp only [Nat.add_right_comm start 1, Nat.add_assoc start] at hnext
      rw [List.mapIdx_cons, List.flatten_cons, arguments, List.mapIdx_cons, Instance.fill_cons]
      exact (executes_store hself hfield _ first).append hnext

theorem arguments_fst (activation : Activation (Content α)) (start : Nat)
    (fields : List FlatField) :
    (arguments activation start fields).map Prod.fst = fields.map (·.field) := by
  refine List.ext_getElem? fun j => ?_
  simp only [arguments, List.getElem?_map, List.getElem?_mapIdx, Option.map_map]
  rfl

theorem fields_nodup (h : shape.Built module decl) (hconstruct : construct ∈ shape.constructs) :
    (construct.fields.map (·.field)).Nodup :=
  nodup_of_places (fun _ _ hsame => (FieldRef.mk.inj hsame).2) fun j field hfield =>
    (h.fields construct hconstruct j field hfield).1

theorem index_not_mem (h : shape.Built module decl) (hconstruct : construct ∈ shape.constructs) :
    shape.indexField ∉ construct.fields.map (·.field) := by
  rw [h.index, List.mem_map]
  rintro ⟨field, hfield, hsame⟩
  obtain ⟨j, hj⟩ := List.mem_iff_getElem?.mp hfield
  rw [(h.fields construct hconstruct j field hj).1] at hsame
  exact h.fresh (List.mem_map.mpr ⟨construct, hconstruct, (FieldRef.mk.inj hsame).1⟩)

theorem word_signed32 (number : Nat) :
    (.word (.ofInt 32 (Word.signed32 number)) : Value α) = IntegerType.i32.slot number := by
  have hbits : BitVec.ofInt 32 (Word.signed32 number) = BitVec.ofInt 32 number :=
    BitVec.eq_of_toInt_eq (by rw [BitVec.toInt_ofInt, BitVec.toInt_ofInt]; simp [Word.signed32])
  exact congrArg Slot.word hbits

/-- The constructor of a construct comes to its end with an instance of the
construct in place of the new one. -/
theorem returns (host : Host α) (h : shape.Built module decl)
    (hconstruct : shape.constructs[k]? = some construct)
    {values : List (Value α)} (hvalues : values.length = construct.fields.length) (world : World α)
    {method : MethodDecl}
    (hmethod : module.method? construct.constructor = some method) :
    ∃ entry, shape.Denotes k construct values entry ∧
      host.Returns module (method.enter (Value.object world.heap.length :: values))
        (world.add (module.blank construct.decl)) [] (world.add entry) := by
  have hmem := List.mem_of_getElem? hconstruct
  obtain ⟨built, hbuilt, -, -, hsignature, hbody⟩ := h.constructors k construct hconstruct
  obtain rfl := Option.some.inj (hmethod.symm.trans hbuilt)
  let activation := (method.enter (Value.object world.heap.length :: values)).activation
  have hself : activation.args 0 = Value.object world.heap.length := rfl
  let numbered :=
    (module.blank construct.decl).set shape.indexField (IntegerType.i32.slot k : Value α)
  have hargument (j : Nat) (hj : j < construct.fields.length) :
      activation.args (UInt16.ofNat (0 + j + 1)) = (values[j]?).getD Value.null := by
    have hcounted := h.counted construct hmem
    have hnumber : (UInt16.ofNat (0 + j + 1)).toNat = j + 1 := by
      rw [UInt16.toNat_ofNat', Nat.mod_eq_of_lt (by omega), Nat.zero_add]
    simp only [activation, MethodDecl.enter, hnumber, List.getElem?_cons_succ]
  refine ⟨numbered.fill (arguments activation 0 construct.fields), ⟨?_, ?_, ?_⟩, ?_⟩
  · rw [Instance.fill_type]
    rfl
  · rw [Instance.fill_other _ (by rw [arguments_fst]; exact h.index_not_mem hmem)]
    exact Function.update_self ..
  · intro j field value hfield hvalue
    refine Instance.fill_mem _ (by rw [arguments_fst]; exact h.fields_nodup hmem) ?_
    refine List.mem_of_getElem? (i := j) ?_
    rw [arguments, List.getElem?_mapIdx, hfield, Option.map_some,
      hargument j (List.getElem?_eq_some_iff.mp hfield).1, hvalue]
    rfl
  · have hnumber : Executes host module 0
        [.ldArg 0, .ldcI4 (Word.signed32 k), .stFld shape.indexField] 0
        (world.add (module.blank construct.decl), activation) (world.add numbered, activation) := by
      have hloads : Executes host module 0 [.ldArg 0, .ldcI4 (Word.signed32 k)] 0
          (world.add (module.blank construct.decl), activation)
          (world.add (module.blank construct.decl),
            (activation.push (Value.object world.heap.length)).push (IntegerType.i32.slot k)) :=
        .of_run (by rw [← word_signed32]; rfl) 0
      exact hloads.append (.of_effect (by simp)
        (Host.effect_stFld_add (h.hasField_index hmem) _ activation activation.stack) 0)
    have hparams : Executes host module 0 (construct.fields.mapIdx fun i field =>
          EnumLayout.storeArgument (UInt16.ofNat (i + 1)) field).flatten 0
        (world.add numbered, activation)
        (world.add (numbered.fill (arguments activation 0 construct.fields)), activation) := by
      have hrun := @executes_params α host module world activation hself construct.fields numbered
        (fun field hfield => ?_) 0 0
      · simpa only [Nat.zero_add] using hrun
      · obtain ⟨j, hj⟩ := List.mem_iff_getElem?.mp hfield
        exact h.hasField_param hmem hj
    exact Executes.returns hbody (hnumber.append hparams) (by rw [hsignature]; rfl)

end EnumShape.Built

end BytecodeLowering
