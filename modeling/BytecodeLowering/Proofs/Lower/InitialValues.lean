import BytecodeLowering.Proofs.Lower.ObjectStages
import BytecodeLowering.Proofs.Lower.PassOrder
import BytecodeLowering.Proofs.Lower.Retention

/-!
# Initial values of globals

The initializer makes one instance for each constant, gives every field of its
layout the value that the constant selects for it and stores it in the slot of
its global.  It is built exactly when every constant fits its global.
-/

namespace BytecodeLowering

/-! ## Selected values -/

/-- The value that an index selects for a type: a number as it is in the pool,
in the slot of the type, or a flag or the byte string of a string. -/
def Image.constant? {α : Type} (image : Image) (bytes : String → α) (index : Nat) :
    SourceType → Option (Value α)
  | .u8 | .u16 | .i32 => image.ints[index]?.map IntegerType.i32.slot
  | .i64 => image.ints[index]?.map IntegerType.i64.slot
  | .f32 | .f64 => image.floats[index]?.map fun value => .other (.float value)
  | .bool => some (.word (if index = 0 then 0 else 1))
  | .bytes => image.strings[index]?.map fun text => .other (.host (bytes text))
  | _ => none

def FlatField.constant? {α : Type} (field : FlatField) (image : Image) (bytes : String → α)
    (index : Nat) : Option (Value α) :=
  (image.type? field.source).bind (image.constant? bytes index)

/-- What keeps a constant from becoming the value of its global. -/
inductive Constant.Misfit (image : Image) (registry : Registry) (constant : Constant) : Prop
  | missing (h : image.globals[constant.global]? = none)
  | notObject {type : TypeIndex} (hglobal : image.globals[constant.global]? = some type)
      (h : image.object? type = none)
  | count {type : TypeIndex} {shape : ObjectShape}
      (hglobal : image.globals[constant.global]? = some type)
      (hshape : registry.object? type = some shape)
      (h : shape.fields.length ≠ constant.fields.length)
  | value {type : TypeIndex} {shape : ObjectShape} {j index : Nat} {field : FlatField}
      {source : SourceType}
      (hglobal : image.globals[constant.global]? = some type)
      (hshape : registry.object? type = some shape) (hfield : shape.fields[j]? = some field)
      (hindex : constant.fields[j]? = some index) (hsource : image.type? field.source = some source)
      (h : image.constant? id index source = none)

/-- An instance of the object type of a global in which every field of the layout
holds what the constant selects for it. -/
structure Constant.Describes {α : Type} (host : Host α) (image : Image) (registry : Registry)
    (constant : Constant) (type : TypeIndex) (shape : ObjectShape) (entry : Instance α) :
    Prop where
  global : image.globals[constant.global]? = some type
  object : registry.object? type = some shape
  made : registry.decl? type = some entry.type
  count : shape.fields.length = constant.fields.length
  fields : ∀ (j : Nat) field index, shape.fields[j]? = some field →
    constant.fields[j]? = some index →
      field.constant? image host.bytes index = some (entry.fields field.field)

namespace GlobalSlots

section Values

variable {α : Type} {host : Host α} {module : TargetModule} {image : Image} {global index : Nat}
  {source : SourceType} {code : List Instr}

theorem fromPool_ok {pool : List β} {name : String} {value : β}
    (h : fromPool pool name global index = .ok value) : pool[index]? = some value := by
  unfold fromPool at h
  split at h <;> cases h
  assumption

theorem constantValue_executes (h : constantValue image global source index = .ok code)
    (first : Nat) :
    ∃ value : Value α, image.constant? host.bytes index source = some value ∧
      ∀ state : MachineState α,
        Executes host module first code first state (state.1, state.2.push value) := by
  cases source <;> unfold constantValue at h
  case u8 | u16 | i32 | i64 | f32 | f64 =>
    obtain ⟨value, hvalue, h⟩ := ok_of_bind h
    cases h
    refine ⟨_, congrArg (Option.map _) (fromPool_ok hvalue), fun state => ?_⟩
    exact .of_effect (by simp) rfl first
  case bool =>
    cases h
    refine ⟨_, rfl, fun state => .of_effect (by simp) ?_ first⟩
    split <;> rfl
  case bytes =>
    obtain ⟨text, htext, h⟩ := ok_of_bind h
    cases h
    refine ⟨_, congrArg (Option.map _) (fromPool_ok htext), fun state => ?_⟩
    have hload : Executes host module first [.ldStr text] first state
        (state.1, state.2.push (.other (.text text))) := .of_effect (by simp) rfl first
    exact hload.append (.of_effect (by simp) rfl first)
  all_goals cases h

theorem constant?_eq_none_iff (global : Nat) {bytes : String → α} :
    image.constant? bytes index source = none ↔
      ∃ error, constantValue image global source index = .error error := by
  have hpool {β : Type} (pool : List β) (name : String) (push : β → List Instr)
      (value : β → Value α) : pool[index]?.map value = none ↔ ∃ error,
        (do return push (← fromPool pool name global index) : Except LoweringError (List Instr))
          = .error error := by
    unfold fromPool
    cases pool[index]? <;> simp [bind, Except.bind, pure, Except.pure]
  cases source <;> unfold constantValue Image.constant?
  case u8 | u16 | i32 | i64 | f32 | f64 | bytes => exact hpool _ _ _ _
  case bool => exact ⟨nofun, nofun⟩
  all_goals exact ⟨fun _ => ⟨_, rfl⟩, fun _ => rfl⟩

theorem constantField_executes {field : FlatField} {world : World α} {entry : Instance α}
    {activation : Activation (Content α)}
    (h : constantField image global (field, index) = .ok code)
    (hfield : module.hasField entry.type field.field = true) (first : Nat) :
    ∃ value, field.constant? image host.bytes index = some value ∧
      Executes host module first code first
        (world.add entry, activation.push (Value.object world.heap.length))
        (world.add (entry.set field.field value),
          activation.push (Value.object world.heap.length)) := by
  obtain ⟨source, code, hsource, hcode, rfl⟩ := constantField_ok h
  obtain ⟨value, hvalue, hpush⟩ := @constantValue_executes α host module image global index source
    code hcode first
  refine ⟨value, ?_, executes_setting hfield first hpush⟩
  rw [FlatField.constant?, hsource, Option.bind_some, hvalue]

theorem constantFields_execute {world : World α} {entry : Instance α}
    {activation : Activation (Content α)} {items : List (FlatField × Nat)}
    {codes : List (List Instr)} (h : items.mapM (constantField image global) = .ok codes)
    (hfields : ∀ item ∈ items, module.hasField entry.type item.1.field = true) (first : Nat) :
    ∃ values, values.map Prod.fst = items.map (·.1.field) ∧
      (∀ item ∈ items, ∃ value, item.1.constant? image host.bytes item.2 = some value ∧
        (item.1.field, value) ∈ values) ∧
      Executes host module first codes.flatten first
        (world.add entry, activation.push (Value.object world.heap.length))
        (world.add (entry.fill values), activation.push (Value.object world.heap.length)) := by
  induction items generalizing entry codes with
  | nil =>
      cases h
      exact ⟨[], rfl, nofun, .nil first _⟩
  | cons item items ih =>
      obtain ⟨code, rest, hcode, hrest, rfl⟩ := ok_of_mapM_cons h
      obtain ⟨hfield, hothers⟩ := List.forall_mem_cons.mp hfields
      obtain ⟨value, hvalue, hset⟩ := @constantField_executes α host module image global item.2 code
        item.1 world entry activation hcode hfield first
      obtain ⟨values, hplaces, hselected, hrun⟩ := @ih (entry.set item.1.field value) rest hrest hothers
      refine ⟨(item.1.field, value) :: values, ?_, ?_, hset.append hrun⟩
      · rw [List.map_cons, List.map_cons, hplaces]
      · refine List.forall_mem_cons.mpr ⟨⟨value, hvalue, List.mem_cons_self⟩, ?_⟩
        intro other hother
        obtain ⟨found, hfound, hmem⟩ := hselected other hother
        exact ⟨found, hfound, List.mem_cons_of_mem _ hmem⟩

end Values

end GlobalSlots

/-! ## One constant -/

structure Constant.Lowered (image : Image) (registry : Registry) (constant : Constant)
    (type : TypeIndex) (decl : TypeId) (shape : ObjectShape) (codes : List (List Instr)) :
    Prop where
  global : image.globals[constant.global]? = some type
  isObject : (image.object? type).isSome
  built : ObjectShape.Built image registry type decl shape
  count : shape.fields.length = constant.fields.length
  fields : (shape.fields.zip constant.fields).mapM
    (GlobalSlots.constantField image constant.global) = .ok codes

section Constants

variable {image : Image} {registry : Registry} {constant : Constant} {type : TypeIndex}
  {decl : TypeId} {shape : ObjectShape} {codes : List (List Instr)}

namespace Constant.Lowered

theorem keep {after : Registry} (h : constant.Lowered image registry type decl shape codes)
    (htypes : after.types = registry.types)
    (hclasses : after.target.types = registry.target.types)
    (hmethods : registry.target.methods <+: after.target.methods) :
    constant.Lowered image after type decl shape codes :=
  ⟨h.global, h.isObject, h.built.keep htypes hclasses hmethods, h.count, h.fields⟩

theorem not_misfit (h : constant.Lowered image registry type decl shape codes) :
    ¬ constant.Misfit image registry := by
  rintro (hnone | ⟨hglobal, hnone⟩ | ⟨hglobal, hshape, hcount⟩ |
    ⟨hglobal, hshape, hfield, hindex, hsource, hnone⟩)
  · cases h.global.symm.trans hnone
  · obtain rfl := Option.some.inj (h.global.symm.trans hglobal)
    exact Option.isSome_iff_ne_none.mp h.isObject hnone
  · obtain rfl := Option.some.inj (h.global.symm.trans hglobal)
    obtain rfl := Option.some.inj (h.built.object.symm.trans hshape)
    exact hcount h.count
  · obtain rfl := Option.some.inj (h.global.symm.trans hglobal)
    obtain rfl := Option.some.inj (h.built.object.symm.trans hshape)
    have hitem := List.getElem?_zip_eq_some (z := (_, _)) |>.mpr ⟨hfield, hindex⟩
    obtain ⟨code, -, hcode⟩ := getElem?_of_mapM h.fields hitem
    obtain ⟨found, value, hfound, hvalue, -⟩ := GlobalSlots.constantField_ok hcode
    obtain rfl := Option.some.inj (hsource.symm.trans hfound)
    obtain ⟨error, herror⟩ := (GlobalSlots.constant?_eq_none_iff constant.global).mp hnone
    cases hvalue.symm.trans herror

theorem executes {α : Type} {host : Host α}
    (h : constant.Lowered image registry type decl shape codes) (world : World α)
    (activation : Activation (Content α)) (first : Nat) :
    ∃ entry, constant.Describes host image registry type shape entry ∧
      Executes host registry.target first
        (.newObj (.method shape.constructor) :: codes.flatten ++ [.stSFld constant.global]) first
        (world, activation)
        ((world.add entry).setGlobal constant.global (Value.object world.heap.length),
          activation) := by
  obtain ⟨bound, hnew⟩ := @TargetModule.ObjectClass.executes_new α host registry.target decl
    shape.constructor h.built.constructor activation world first
  let made : Instance α := (registry.target.blank decl).fill bound
  have hmade : made.type = decl := Instance.fill_type _ bound
  obtain ⟨values, hplaces, hselected, hfields⟩ := @GlobalSlots.constantFields_execute α host
    registry.target image constant.global world made activation _ codes h.fields (fun item hitem => by
      rw [hmade]
      exact h.built.fields item.1 (List.of_mem_zip hitem).1) first
  have hdistinct : (values.map Prod.fst).Nodup := by
    have hzip : (shape.fields.zip constant.fields).map (·.1.field) = shape.fields.map (·.field) := by
      conv_rhs => rw [← List.map_fst_zip (Nat.le_of_eq h.count), List.map_map]
      rfl
    rw [hplaces, hzip]
    exact h.built.distinct
  have hstore : Executes host registry.target first [.stSFld constant.global] first
      (world.add (made.fill values), activation.push (Value.object world.heap.length))
      ((world.add (made.fill values)).setGlobal constant.global (Value.object world.heap.length),
        activation) := .of_effect (by simp) rfl first
  refine ⟨made.fill values, ⟨h.global, h.built.object, ?_, h.count, ?_⟩,
    hnew.append (hfields.append hstore)⟩
  · rw [Instance.fill_type, hmade]
    exact h.built.made
  · intro j field index hfield hindex
    obtain ⟨value, hvalue, hmem⟩ := hselected (field, index)
      (List.mem_of_getElem? (List.getElem?_zip_eq_some.mpr ⟨hfield, hindex⟩))
    rw [hvalue, made.fill_mem hdistinct hmem]

end Constant.Lowered

structure Registry.Instantiates (image : Image) (registry : Registry) : Prop where
  passing : registry.Passing image .compiled image.types.length
  objects : ∀ index object, image.object? index = some object →
    ∃ decl shape, ObjectShape.Built image registry index decl shape
  globals : registry.target.globals.length = image.globals.length

theorem ObjectShape.Built.requireObject (h : ObjectShape.Built image registry type decl shape)
    {stage : Stage} (hstage : registry.stage? type = some stage) :
    ∃ declaration, registry.requireObject type stage = .ok (declaration, shape) := by
  obtain ⟨declaration, hdeclaration, rfl⟩ := Option.map_eq_some_iff.mp hstage
  have hobject := h.object
  unfold Registry.object? at hobject
  split at hobject
  · rename_i hfound
    cases hobject
    obtain rfl := Option.some.inj (hdeclaration.symm.trans hfound)
    exact ⟨_, by
      simp only [Registry.requireObject, Registry.requireType, hfound, Nat.lt_irrefl, if_false]
      rfl⟩
  · cases hobject

theorem GlobalSlots.fields_cases (hsources : ∀ field ∈ shape.fields, (image.type? field.source).isSome)
    (hglobal : image.globals[constant.global]? = some type)
    (hshape : registry.object? type = some shape) :
    (constant.Misfit image registry ∧ ∃ error, (shape.fields.zip constant.fields).mapM
      (constantField image constant.global) = .error error) ∨
    ∃ codes, (shape.fields.zip constant.fields).mapM
      (constantField image constant.global) = .ok codes := by
  cases hcodes : (shape.fields.zip constant.fields).mapM (constantField image constant.global) with
  | ok codes => exact Or.inr ⟨codes, rfl⟩
  | error error =>
      refine Or.inl ⟨?_, error, rfl⟩
      obtain ⟨⟨field, index⟩, hitem, hfield⟩ := error_of_mapM hcodes
      obtain ⟨source, hsource⟩ := Option.isSome_iff_exists.mp (hsources field (List.of_mem_zip hitem).1)
      obtain ⟨j, hj⟩ := List.mem_iff_getElem?.mp hitem
      obtain ⟨hplace, hindex⟩ := List.getElem?_zip_eq_some.mp hj
      refine .value hglobal hshape hplace hindex hsource ?_
      simp only [constantField, hsource] at hfield
      rcases error_of_bind hfield with hvalue | ⟨value, -, hfield⟩
      · exact (constant?_eq_none_iff constant.global).mpr ⟨error, hvalue⟩
      · cases hfield

theorem GlobalSlots.constantCode_cases (h : registry.Instantiates image) (constant : Constant) :
    (constant.Misfit image registry ∧ ∃ error, constantCode image registry constant = .error error) ∨
    ∃ type decl shape codes, constant.Lowered image registry type decl shape codes ∧
      constantCode image registry constant
        = .ok (.newObj (.method shape.constructor) :: codes.flatten ++ [.stSFld constant.global]) := by
  unfold constantCode
  cases hglobal : image.globals[constant.global]? with
  | none => exact Or.inl ⟨.missing hglobal, _, rfl⟩
  | some type =>
      dsimp only
      cases hobject : image.object? type with
      | none =>
          refine Or.inl ⟨.notObject hglobal hobject, _, if_pos ?_⟩
          rw [← Image.object?, hobject]
          rfl
      | some object =>
          rw [if_neg (by rw [← Image.object?, hobject]; rintro ⟨⟩)]
          obtain ⟨decl, shape, hbuilt⟩ := h.objects type object hobject
          obtain ⟨declaration, hrequire⟩ := hbuilt.requireObject
            (h.passing.stage_done (Image.declares_of_object hobject) (Image.lt_of_object hobject))
          rw [hrequire]
          by_cases hcount : shape.fields.length = constant.fields.length
          · have hslot : constant.global < registry.target.globals.length :=
              h.globals ▸ (List.getElem?_eq_some_iff.mp hglobal).1
            rcases fields_cases hbuilt.sources hglobal hbuilt.object with
              ⟨hmisfit, error, hfields⟩ | ⟨codes, hfields⟩
            · refine Or.inl ⟨hmisfit, error, ?_⟩
              simp [bind, Except.bind, hcount, Registry.global?, hslot, hfields]
            · refine Or.inr ⟨type, decl, shape, codes,
                ⟨hglobal, by rw [hobject]; rfl, hbuilt, hcount, hfields⟩, ?_⟩
              simp [bind, Except.bind, pure, Except.pure, hcount, Registry.global?, hslot, hfields]
          · exact Or.inl ⟨.count hglobal hbuilt.object hcount, _, if_pos hcount⟩

end Constants

/-! ## The initializer -/

/-- What is there when every constant has become the value of its global: the i-th
constant has made the i-th instance behind those that were there, and the last
constant for a global is the one that stays. -/
structure GlobalSlots.Initialized {α : Type} (host : Host α) (image : Image) (registry : Registry)
    (constants : List Constant) (world last : World α) : Prop where
  kept : world.heap <+: last.heap
  named : ∀ global ∈ constants.map (·.global), ∃ i constant, constants[i]? = some constant ∧
    constant.global = global ∧ (∀ later ∈ constants.drop (i + 1), later.global ≠ global) ∧
      last.globals global = Value.object (world.heap.length + i) ∧
        ∃ type shape entry, last.heap[world.heap.length + i]? = some entry ∧
          constant.Describes host image registry type shape entry
  others : ∀ global ∉ constants.map (·.global), last.globals global = world.globals global

namespace GlobalSlots

variable {α : Type} {host : Host α} {image : Image} {registry : Registry}

theorem Initialized.nil (world : World α) : Initialized host image registry [] world world :=
  ⟨List.prefix_rfl, nofun, fun _ _ => rfl⟩

theorem Initialized.cons {constant : Constant} {constants : List Constant} {world last : World α}
    {entry : Instance α} {type : TypeIndex} {shape : ObjectShape}
    (hentry : constant.Describes host image registry type shape entry)
    (hrest : Initialized host image registry constants
      ((world.add entry).setGlobal constant.global (Value.object world.heap.length)) last) :
    Initialized host image registry (constant :: constants) world last := by
  obtain ⟨hkept, hnamed, hothers⟩ := hrest
  have hlength : ((world.add entry).setGlobal constant.global
      (Value.object world.heap.length)).heap.length = world.heap.length + 1 := List.length_append
  refine ⟨(List.prefix_append _ _).trans hkept, ?_, ?_⟩
  · intro global hglobal
    by_cases hlater : global ∈ constants.map (·.global)
    · obtain ⟨i, found, hfound, hsame, hlast, hnext⟩ := hnamed global hlater
      rw [hlength, Nat.add_assoc, Nat.add_comm 1] at hnext
      exact ⟨i + 1, found, hfound, hsame, hlast, hnext⟩
    · obtain rfl := (List.mem_cons.mp hglobal).resolve_right hlater
      refine ⟨0, constant, rfl, rfl, ?_, ?_, type, shape, entry,
        getElem?_of_begins hkept (world.getElem?_add entry), hentry⟩
      · exact fun later hmem hsame => hlater (List.mem_map.mpr ⟨later, hmem, hsame⟩)
      · rw [hothers constant.global hlater]
        exact Function.update_self ..
  · intro global hglobal
    obtain ⟨hfirst, hrest⟩ := not_or.mp (mt List.mem_cons.mpr hglobal)
    exact (hothers global hrest).trans (Function.update_of_ne hfirst ..)

theorem executes_constants {constants : List Constant} {codes : List (List Instr)}
    (h : List.Forall₂ (fun constant code => ∃ type decl shape fields,
      constant.Lowered image registry type decl shape fields ∧
        code = .newObj (.method shape.constructor) :: fields.flatten ++ [.stSFld constant.global])
      constants codes) (world : World α) (activation : Activation (Content α)) (first : Nat) :
    ∃ last, Initialized host image registry constants world last ∧
      Executes host registry.target first codes.flatten first (world, activation)
        (last, activation) := by
  induction h generalizing world with
  | nil => exact ⟨world, .nil world, .nil first _⟩
  | @cons constant code constants codes hcode _ ih =>
      obtain ⟨type, decl, shape, fields, hlowered, rfl⟩ := hcode
      obtain ⟨entry, hentry, hfirst⟩ := @Constant.Lowered.executes image registry constant type decl
        shape fields α host hlowered world activation first
      obtain ⟨last, hlast, hrest⟩ :=
        ih ((world.add entry).setGlobal constant.global (Value.object world.heap.length))
      exact ⟨last, .cons hentry hlast, hfirst.append hrest⟩

end GlobalSlots

end BytecodeLowering
