import BytecodeLowering.Proofs.Image.InRange
import BytecodeLowering.Proofs.Image.Segment
import BytecodeLowering.Proofs.Lower.CompiledEnums

/-!
# Parameters of the constructors of an enum

When the passes over the types are done, the constructor of every construct
gives each of its fields the argument at the position of the field behind the
instance.  The count of the arguments does not wrap: it lasts for all of them.
-/

namespace BytecodeLowering

namespace EnumLayout

variable {indexField : FieldRef} {decl : TypeId} {number count : Nat}

def storesFrom (decl : TypeId) : Nat → List UInt16 → List Instr
  | _, [] => []
  | first, argument :: arguments =>
      .ldArg 0 :: .ldArg argument :: .stFld ⟨decl, first⟩ :: storesFrom decl (first + 1) arguments

def storing (indexField : FieldRef) (decl : TypeId) (number : Int) (arguments : List UInt16) :
    List Instr :=
  [.ldArg 0, .ldcI4 number, .stFld indexField] ++ storesFrom decl 0 arguments ++ [.ret]

/-- A constructor writes its number, and each of its parameters, the arguments
from 1 on, into the field at the position of the parameter. -/
def PassesParameters (indexField : FieldRef) (decl : TypeId) (number : Int) (count : Nat)
    (body : List Instr) : Prop :=
  ∃ arguments : List UInt16, arguments.map UInt16.toNat = List.range' 1 count ∧
    body = storing indexField decl number arguments

theorem flatten_storeArgument {fields : List FlatField} (first : Nat)
    (hplaces : ∀ (j : Nat) field, fields[j]? = some field → field.field = ⟨decl, first + j⟩) :
    (fields.mapIdx fun i field => storeArgument (UInt16.ofNat (first + i + 1)) field).flatten
      = storesFrom decl first ((List.range' (first + 1) fields.length).map UInt16.ofNat) := by
  induction fields generalizing first with
  | nil => rfl
  | cons field fields ih =>
      have hrest := ih (first + 1) fun j other hother => by
        rw [hplaces (j + 1) other hother, Nat.add_right_comm, Nat.add_assoc]
      simp only [Nat.add_right_comm first 1, Nat.add_assoc first] at hrest
      rw [List.mapIdx_cons, List.flatten_cons, storeArgument, hplaces 0 field rfl]
      simp only [Nat.add_assoc first]
      rw [hrest]
      rfl

theorem toNat_arguments (h : count ≤ 65535) :
    ((List.range' 1 count).map UInt16.ofNat).map UInt16.toNat = List.range' 1 count := by
  rw [List.map_map]
  refine (List.map_congr_left fun argument hargument => ?_).trans (List.map_id _)
  obtain ⟨-, hlast⟩ := List.mem_range'_1.mp hargument
  rw [Function.comp_apply, UInt16.toNat_ofNat', Nat.mod_eq_of_lt (by omega), id_eq]

theorem constructorCode_passes {fields : List FlatField} (hcount : fields.length ≤ 65535)
    (hplaces : ∀ (j : Nat) field, fields[j]? = some field → field.field = ⟨decl, j⟩) :
    PassesParameters indexField decl (Word.signed32 number) fields.length
      (constructorCode indexField number fields) := by
  have hstores := @flatten_storeArgument decl fields 0 (by simpa using hplaces)
  simp only [Nat.zero_add] at hstores
  exact ⟨_, toNat_arguments hcount, by rw [constructorCode, hstores, storing]⟩

end EnumLayout

variable {image : Image} {settings : Settings} {registry : Registry} {index : TypeIndex}
  {variants : EnumType} {k : Nat} {source : EnumConstruct}

structure EnumShape.Constructs (registry : Registry) (shape : EnumShape) (k : Nat)
    (source : EnumConstruct) (construct : ConstructShape) (method : MethodDecl) : Prop where
  place : shape.constructs[k]? = some construct
  name : construct.name = source.name
  fields : construct.fields.map (·.field)
    = (List.range source.params.length).map fun position => ⟨construct.decl, position⟩
  found : registry.target.method? construct.constructor = some method
  kind : method.kind = .constructor
  owner : method.owner = some construct.decl
  params : method.signature.params.length = source.params.length

theorem Image.constructs_of_decode {bytes : Bytes} (h : decode bytes = .ok image)
    (hvariants : image.types[index]? = some (.enum variants)) :
    variants.constructs.length ≤ 255 := by
  obtain ⟨read, himage, hrecorded⟩ := recorded_lenient h
  rw [himage] at hvariants
  exact (hrecorded.types (.enum variants) (List.mem_of_getElem? hvariants)).count

/-- The constructor of every construct passes its parameters and stores the
number of the construct as a signed word, which in an image that was read is the
number itself. -/
theorem TypePasses.constructor_passes_parameters
    (hrun : TypePasses.run image (image.registry settings) = .ok () registry)
    (hvariants : image.types[index]? = some (.enum variants))
    (hsource : variants.constructs[k]? = some source) :
    (∃ shape construct method, registry.enum? index = some shape ∧
      shape.Constructs registry k source construct method ∧
      EnumLayout.PassesParameters shape.indexField construct.decl (Word.signed32 k)
        source.params.length method.body) ∧
    ∀ bytes, Image.decode bytes = .ok image → Word.signed32 k = k := by
  obtain ⟨hlinked, declaration, shape, hcoded⟩ :=
    TypePasses.run_coded hvariants (Registry.create_linked _ _ _) hrun
  have hanchored := TypePasses.run_anchored (Registry.create_defining _ _ _) hrun
  have hbuilt := hcoded.built hlinked (hanchored.anchors index declaration hcoded.found)
  obtain ⟨construct, hconstruct, hname, hparams⟩ := hcoded.toFilled.params hsource
  have hmem := List.mem_of_getElem? hconstruct
  obtain ⟨method, hmethod, hkind, howner, hsignature, hbody⟩ :=
    hbuilt.constructors k construct hconstruct
  have hplaces (j : Nat) (field : FlatField) (hfield : construct.fields[j]? = some field) :
      field.field = ⟨construct.decl, j⟩ := (hbuilt.fields construct hmem j field hfield).1
  have hlength : construct.fields.length = source.params.length := by
    simpa using (ok_of_mapM hparams).1
  have henum : registry.enum? index = some shape := by
    rw [Registry.enum?, hcoded.found]
    obtain ⟨_, _, _, _⟩ := declaration
    obtain rfl := hcoded.shape_eq
    rfl
  refine ⟨⟨shape, construct, method, henum,
    ⟨hconstruct, hname, ?_, hmethod, hkind, howner, ?_⟩, ?_⟩, ?_⟩
  · refine List.ext_getElem (by simp [hlength]) fun j hj _ => ?_
    rw [List.length_map] at hj
    simp [hplaces j _ (List.getElem?_eq_getElem hj)]
  · rw [hsignature, List.length_map, hlength]
  · rw [hbody, ← hlength]
    exact EnumLayout.constructorCode_passes (hbuilt.counted construct hmem) hplaces
  · intro bytes hdecode
    have hcount := Image.constructs_of_decode hdecode hvariants
    have hplace := (List.getElem?_eq_some_iff.mp hsource).1
    exact Word.signed32_of_lt (by omega)

/-! ## Constructs at the limit -/

def wideEnum (count : Nat) : EnumType where
  name := "Wide"
  global := none
  constructs := [⟨"full", List.replicate count 0⟩]

def wideImage (count : Nat) : Image where
  version := 4
  types := [.i32, .enum (wideEnum count)]
  functionTable := FunctionTable.build [] []

def wideRegistry (stage : Stage) (shared : List FieldDecl) (fields : List FlatField)
    (body : List Instr) : Registry where
  pass := some stage
  types := [none, some ⟨stage, 1, 0, .enum ⟨"Wide", ⟨0, 0⟩, [⟨"full", 1, 0, fields⟩]⟩⟩]
  functions := []
  target := {
    name := "module"
    types := [
      ⟨0, "Wide", .enum, none, shared, none, some 1⟩,
      ⟨1, "Wide.full", .enumConstruct, some 0, fields.map fun field => ⟨field.name, field.type⟩,
        some 0, some 1⟩]
    methods := [
      ⟨0, "Wide.full..ctor", .constructor, some 1, ⟨fields.map (·.type), .void⟩, [], body, none,
        none⟩] }

theorem EnumLayout.constructFields_replicate {param : TypeIndex} {type : TargetType}
    (hparam : registry.mapType image param = .ok type) (decl : TypeId) (count : Nat) :
    constructFields image decl (List.replicate count param) registry
      = .ok ((List.range count).map fun i => ⟨s!"p{i}", ⟨decl, i⟩, type, param⟩) := by
  induction count with
  | zero => rfl
  | succ count ih =>
      rw [constructFields] at ih ⊢
      rw [List.replicate_succ', List.zipIdx_append, List.mapM_append, ih, List.range_succ,
        List.map_append]
      simp [List.zipIdx, hparam, bind, pure, Except.bind, Except.pure, List.mapM_cons]

theorem defineAll_wideImage {count : Nat} {fields : List FlatField}
    (hfields : ∀ registry, EnumLayout.constructFields (wideImage count) 1
      (List.replicate count 0) registry = .ok fields) :
    TypePasses.defineAll (wideImage count) (wideRegistry .resolved [] [] [])
      = .ok () (wideRegistry .defined [⟨"index", .i32⟩] fields []) := by
  let opened := wideRegistry .defined [⟨"index", .i32⟩] [] []
  let filled : Registry :=
    { opened with target := (wideRegistry .defined [⟨"index", .i32⟩] fields []).target }
  have hconstruct : EnumLayout.defineConstruct (wideImage count)
      (⟨"full", List.replicate count 0⟩, ⟨"full", 1, 0, []⟩) opened = .ok fields filled :=
    .trans (Lowering.bind_of_ok (Lowering.query_of_ok (hfields _))) rfl
  have hconstructs : [(⟨"full", List.replicate count 0⟩, ⟨"full", 1, 0, []⟩)].mapM
      (EnumLayout.defineConstruct (wideImage count)) opened = .ok [fields] filled :=
    .trans (Lowering.bind_of_ok hconstruct) rfl
  have hdefine : EnumLayout.define (wideImage count) 1 (wideEnum count)
      { wideRegistry .resolved [] [] [] with pass := some .defined }
        = .ok () (wideRegistry .defined [⟨"index", .i32⟩] fields []) :=
    .trans (Lowering.bind_of_ok rfl) (.trans (Lowering.bind_of_ok rfl)
      (.trans (Lowering.bind_of_ok rfl) (.trans (Lowering.bind_of_ok hconstructs) rfl)))
  refine .trans (Lowering.bind_of_ok rfl) (.trans (Lowering.bind_of_ok rfl) ?_)
  exact .trans (Lowering.bind_of_ok hdefine) rfl

theorem compileAll_wideImage {count : Nat} {fields : List FlatField} (h : fields.length ≤ 65535) :
    TypePasses.compileAll (wideImage count) (wideRegistry .defined [⟨"index", .i32⟩] fields [])
      = .ok () (wideRegistry .compiled [⟨"index", .i32⟩] fields
          (EnumLayout.constructorCode ⟨0, 0⟩ 0 fields)) := by
  have hconstruct : EnumLayout.compileConstruct ⟨"Wide", ⟨0, 0⟩, [⟨"full", 1, 0, fields⟩]⟩
      (⟨"full", 1, 0, fields⟩, 0) (wideRegistry .compiled [⟨"index", .i32⟩] fields [])
        = .ok () (wideRegistry .compiled [⟨"index", .i32⟩] fields
            (EnumLayout.constructorCode ⟨0, 0⟩ 0 fields)) :=
    .trans (Lowering.bind_of_ok (Lowering.query_of_ok (EnumLayout.constructorBody_ok h))) rfl
  have hcompile : EnumLayout.compile 1
      { wideRegistry .defined [⟨"index", .i32⟩] fields [] with pass := some .compiled }
        = .ok () (wideRegistry .compiled [⟨"index", .i32⟩] fields
            (EnumLayout.constructorCode ⟨0, 0⟩ 0 fields)) :=
    .trans (Lowering.bind_of_ok rfl) (.trans (Lowering.bind_of_ok rfl)
      (.trans (Lowering.bind_of_ok hconstruct) rfl))
  refine .trans (Lowering.bind_of_ok rfl) (.trans (Lowering.bind_of_ok rfl) ?_)
  exact .trans (Lowering.bind_of_ok hcompile) rfl

theorem compileAll_wideImage_overflow {count : Nat} {fields : List FlatField}
    (h : 65535 < fields.length) :
    TypePasses.compileAll (wideImage count) (wideRegistry .defined [⟨"index", .i32⟩] fields [])
      = .error .overflow (wideRegistry .compiled [⟨"index", .i32⟩] fields []) := by
  have hconstruct : EnumLayout.compileConstruct ⟨"Wide", ⟨0, 0⟩, [⟨"full", 1, 0, fields⟩]⟩
      (⟨"full", 1, 0, fields⟩, 0) (wideRegistry .compiled [⟨"index", .i32⟩] fields [])
        = .error .overflow (wideRegistry .compiled [⟨"index", .i32⟩] fields []) :=
    Lowering.bind_of_error (Lowering.query_of_error (EnumLayout.constructorBody_overflow h))
  have hcompile : EnumLayout.compile 1
      { wideRegistry .defined [⟨"index", .i32⟩] fields [] with pass := some .compiled }
        = .error .overflow (wideRegistry .compiled [⟨"index", .i32⟩] fields []) :=
    .trans (Lowering.bind_of_ok rfl) (.trans (Lowering.bind_of_ok rfl)
      (Lowering.bind_of_error hconstruct))
  refine .trans (Lowering.bind_of_ok rfl) (.trans (Lowering.bind_of_ok rfl) ?_)
  exact Lowering.bind_of_error hcompile

/-- The passes over the types take a construct with as many parameters as sixteen
bits count, and are broken off at one with more. -/
theorem run_wideImage (count : Nat) :
    (count ≤ 65535 → ∃ registry,
      TypePasses.run (wideImage count) ((wideImage count).registry {}) = .ok () registry) ∧
    (65535 < count → ∃ registry,
      TypePasses.run (wideImage count) ((wideImage count).registry {})
        = .error .overflow registry) := by
  have hresolve : TypePasses.resolveAll (wideImage count) ((wideImage count).registry {})
      = .ok () (wideRegistry .resolved [] [] []) := rfl
  have hdefine := defineAll_wideImage fun registry =>
    @EnumLayout.constructFields_replicate (wideImage count) registry 0 .i32 rfl 1 count
  constructor
  · intro h
    refine ⟨_, .trans (Lowering.bind_of_ok hresolve) (.trans (Lowering.bind_of_ok hdefine)
      (compileAll_wideImage ?_))⟩
    rwa [List.length_map, List.length_range]
  · intro h
    refine ⟨_, .trans (Lowering.bind_of_ok hresolve) (.trans (Lowering.bind_of_ok hdefine)
      (compileAll_wideImage_overflow ?_))⟩
    rwa [List.length_map, List.length_range]

theorem constructor_passes_parameters_full : ∃ registry shape construct method,
    TypePasses.run (wideImage 65535) ((wideImage 65535).registry {}) = .ok () registry ∧
      registry.enum? 1 = some shape ∧
      shape.Constructs registry 0 ⟨"full", List.replicate 65535 0⟩ construct method ∧
      EnumLayout.PassesParameters shape.indexField construct.decl 0 65535 method.body := by
  obtain ⟨registry, hrun⟩ := (run_wideImage 65535).1 (le_refl _)
  have hvariants : (wideImage 65535).types[1]? = some (.enum (wideEnum 65535)) := rfl
  have hsource : (wideEnum 65535).constructs[0]? = some ⟨"full", List.replicate 65535 0⟩ := rfl
  obtain ⟨⟨shape, construct, method, henum, hconstructs, hpasses⟩, -⟩ :=
    TypePasses.constructor_passes_parameters hrun hvariants hsource
  rw [List.length_replicate] at hpasses
  exact ⟨registry, shape, construct, method, hrun, henum, hconstructs, hpasses⟩

end BytecodeLowering
