import BytecodeLowering.Image.Decode
import BytecodeLowering.Image.Encode
import BytecodeLowering.Proofs.Image.LineTable

/-!
# Well-formed images

The images that the format can express: every number fits its field, every
name stands in the string pool, every type index in the type table and every
function index in the index space, the parameters of an instruction have the
shape of its opcode, and the parts that the version or the flags leave out are
empty.  An image that was read falls short of this in two points only: a line
may have grown beyond what a record can hold, and the last string of a pool
need not have had a byte after it.
-/

namespace BytecodeLowering

open Reader (Tables Layout)

abbrev Fits (value : Nat) : Prop := value ≤ Writer.maxMagnitude

abbrev FitsSigned (value : Int) : Prop := value.natAbs ≤ Writer.maxMagnitude

/-! ## Types -/

structure Field.WellFormed (tables : Tables) (field : Field) : Prop where
  name : field.name ∈ tables.strings
  type : field.type < tables.typeCount

structure FunctionType.WellFormed (tables : Tables) (signature : FunctionType) : Prop where
  count : signature.args.length ≤ 255
  args : ∀ arg ∈ signature.args, arg < tables.typeCount
  ret : signature.ret < tables.typeCount

structure Prototype.WellFormed (tables : Tables) (prototype : Prototype) : Prop where
  name : prototype.name ∈ tables.strings
  function : Fits prototype.function
  slot : FitsSigned prototype.slot

structure Binding.WellFormed (binding : Binding) : Prop where
  field : Fits binding.field
  function : Fits binding.function

structure ObjectType.WellFormed (tables : Tables) (object : ObjectType) : Prop where
  name : object.name ∈ tables.strings
  super : ∀ parent ∈ object.super, parent < tables.typeCount
  /-- A global is written as its number plus one. -/
  global : ∀ number ∈ object.global, Fits (number + 1)
  fieldCount : Fits object.fields.length
  prototypeCount : Fits object.prototypes.length
  bindingCount : Fits object.bindings.length
  fields : ∀ field ∈ object.fields, field.WellFormed tables
  prototypes : ∀ prototype ∈ object.prototypes, prototype.WellFormed tables
  bindings : ∀ binding ∈ object.bindings, binding.WellFormed

structure EnumConstruct.WellFormed (tables : Tables) (construct : EnumConstruct) : Prop where
  name : construct.name ∈ tables.strings
  count : Fits construct.params.length
  params : ∀ param ∈ construct.params, param < tables.typeCount

structure EnumType.WellFormed (tables : Tables) (variants : EnumType) : Prop where
  name : variants.name ∈ tables.strings
  global : ∀ number ∈ variants.global, Fits (number + 1)
  count : variants.constructs.length ≤ 255
  constructs : ∀ construct ∈ variants.constructs, construct.WellFormed tables

def SourceType.WellFormed (tables : Tables) : SourceType → Prop
  | .func signature | .method signature => signature.WellFormed tables
  | .obj object | .struct object => object.WellFormed tables
  | .ref inner | .null inner | .packed inner => inner < tables.typeCount
  | .virtual fields => Fits fields.length ∧ ∀ field ∈ fields, field.WellFormed tables
  | .abstract name => name ∈ tables.strings
  | .enum variants => variants.WellFormed tables
  | _ => True

/-! ## Functions -/

structure Native.WellFormed (tables : Tables) (indexSpace : Nat) (native : Native) : Prop where
  library : native.library ∈ tables.strings
  symbol : native.symbol ∈ tables.strings
  type : native.type < tables.typeCount
  index : native.index < indexSpace
  index_fits : Fits native.index

/-- The parameters have the exact shape of the opcode. -/
def Operation.WellFormed (op : Operation) : Prop :=
  match op.opcode.arity with
  | .fixed count => op.params.length = count ∧ ∀ param ∈ op.params, FitsSigned param
  | .callLike =>
      2 ≤ op.params.length ∧ op.params.length ≤ 2 + 255 ∧ ∀ param ∈ op.params, FitsSigned param
  | .switch =>
      2 ≤ op.params.length ∧ Fits (op.params.length - 2) ∧
        ∀ param ∈ op.params, 0 ≤ param ∧ FitsSigned param

structure RegisterName.WellFormed (tables : Tables) (entry : RegisterName) : Prop where
  name : entry.name ∈ tables.strings
  position : FitsSigned entry.position

structure FunctionDef.WellFormed (layout : Layout) (tables : Tables)
    (function : FunctionDef) : Prop where
  type : function.type < tables.typeCount
  index : function.index < layout.indexSpace
  index_fits : Fits function.index
  registerCount : Fits function.registers.length
  registers : ∀ register ∈ function.registers, register < tables.typeCount
  operationCount : Fits function.operations.length
  operations : ∀ op ∈ function.operations, op.WellFormed
  /-- With source positions there is one for every instruction. -/
  lines : layout.debug = true → ∃ entries, function.lines = some entries ∧
    entries.length = function.operations.length ∧
      ∀ entry ∈ entries, entry.WellFormed layout.fileCount
  no_lines : layout.debug = false → function.lines = none
  names : layout.debug = true → Image.hasRegisterNames layout.version = true →
    Fits function.names.length ∧ ∀ name ∈ function.names, name.WellFormed tables
  no_names : (layout.debug && Image.hasRegisterNames layout.version) = false →
    function.names = []

structure Constant.WellFormed (constant : Constant) : Prop where
  global : Fits constant.global
  count : Fits constant.fields.length
  fields : ∀ field ∈ constant.fields, Fits field

/-! ## The image -/

/-- A list of strings whose block has a signed word as its size. -/
structure WellFormedPool (strings : List String) : Prop where
  count : Fits strings.length
  lengths : ∀ text ∈ strings, Fits text.utf8ByteSize
  block : (strings.flatMap Writer.terminated).length < 0x80000000

namespace Image

def tables (image : Image) : Tables :=
  { strings := image.strings, typeCount := image.types.length }

def layout (image : Image) : Layout :=
  { version := image.version
    debug := image.hasDebug
    indexSpace := image.functions.length + image.natives.length
    fileCount := image.debugFiles.length }

structure WellFormed (image : Image) : Prop where
  minVersion : Image.minVersion ≤ image.version
  maxVersion : image.version ≤ Image.maxVersion
  flags : Fits image.flags
  intCount : Fits image.ints.length
  ints : ∀ value ∈ image.ints, -0x80000000 ≤ value ∧ value < 0x80000000
  floatCount : Fits image.floats.length
  strings : WellFormedPool image.strings
  blobs : hasBlobs image.version = true →
    image.bytes.length < 0x80000000 ∧ Fits image.blobStarts.length ∧
      ∀ start ∈ image.blobStarts, start ≤ image.bytes.length ∧ Fits start
  no_blobs : hasBlobs image.version = false → image.bytes = [] ∧ image.blobStarts = []
  debugFiles : image.hasDebug = true → WellFormedPool image.debugFiles
  no_debugFiles : image.hasDebug = false → image.debugFiles = []
  typeCount : Fits image.types.length
  types : ∀ source ∈ image.types, source.WellFormed image.tables
  globalCount : Fits image.globals.length
  globals : ∀ index ∈ image.globals, index < image.types.length
  nativeCount : Fits image.natives.length
  natives : ∀ native ∈ image.natives,
    native.WellFormed image.tables (image.functions.length + image.natives.length)
  functionCount : Fits image.functions.length
  functions : ∀ function ∈ image.functions, function.WellFormed image.layout image.tables
  constants : hasConstants image.version = true →
    Fits image.constants.length ∧ ∀ constant ∈ image.constants, constant.WellFormed
  no_constants : hasConstants image.version = false → image.constants = []
  entrypoint : Fits image.entrypoint
  entrypoint_resolves : (image.functionTable.resolve? image.entrypoint).isSome = true
  functionTable : image.functionTable = buildTable image.functions image.natives
  diagnostics : image.diagnostics = []

end Image

/-! ## Images that were read -/

/-- A function as it is read: any line can have been reached. -/
structure FunctionDef.Recorded (layout : Layout) (tables : Tables)
    (function : FunctionDef) : Prop where
  type : function.type < tables.typeCount
  index : function.index < layout.indexSpace
  index_fits : Fits function.index
  registerCount : Fits function.registers.length
  registers : ∀ register ∈ function.registers, register < tables.typeCount
  operationCount : Fits function.operations.length
  operations : ∀ op ∈ function.operations, op.WellFormed
  lines : layout.debug = true → ∃ entries, function.lines = some entries ∧
    entries.length = function.operations.length ∧
      ∀ entry ∈ entries, entry.Selectable layout.fileCount
  no_lines : layout.debug = false → function.lines = none
  nameCount : Fits function.names.length
  names : ∀ name ∈ function.names, name.WellFormed tables
  no_names : (layout.debug && Image.hasRegisterNames layout.version) = false →
    function.names = []

/-- The strings of a block, the last of which may end with the block. -/
structure RecordedPool (strings : List String) : Prop where
  count : Fits strings.length
  lengths : ∀ text ∈ strings, Fits text.utf8ByteSize
  block : (strings.flatMap Writer.terminated).length ≤ 0x80000000

structure Image.Recorded (image : Image) (tables : Tables) : Prop where
  minVersion : Image.minVersion ≤ image.version
  maxVersion : image.version ≤ Image.maxVersion
  flags : Fits image.flags
  intCount : Fits image.ints.length
  ints : ∀ value ∈ image.ints, -0x80000000 ≤ value ∧ value < 0x80000000
  floatCount : Fits image.floats.length
  strings : RecordedPool image.strings
  bytes : image.bytes.length < 0x80000000
  blobCount : Fits image.blobStarts.length
  blobStarts : ∀ start ∈ image.blobStarts, start ≤ image.bytes.length ∧ Fits start
  no_blobs : hasBlobs image.version = false → image.bytes = [] ∧ image.blobStarts = []
  debugFiles : RecordedPool image.debugFiles
  no_debugFiles : image.hasDebug = false → image.debugFiles = []
  typeCount : Fits image.types.length
  types : ∀ source ∈ image.types, source.WellFormed tables
  globalCount : Fits image.globals.length
  globals : ∀ index ∈ image.globals, index < tables.typeCount
  nativeCount : Fits image.natives.length
  natives : ∀ native ∈ image.natives, native.WellFormed tables image.layout.indexSpace
  functionCount : Fits image.functions.length
  functions : ∀ function ∈ image.functions, function.Recorded image.layout tables
  constantCount : Fits image.constants.length
  constants : ∀ constant ∈ image.constants, constant.WellFormed
  no_constants : hasConstants image.version = false → image.constants = []
  entrypoint : Fits image.entrypoint
  functionTable : image.functionTable = buildTable image.functions image.natives

/-- What an image that was read must add to be written without loss: its lines
can be written, and with a byte after each string the blocks keep a size that
is a signed word. -/
structure Image.Expressible (image : Image) : Prop where
  lines : ∀ function ∈ image.functions, ∀ entries ∈ function.lines,
    LineTable.Expressible 0 entries
  strings : (image.strings.flatMap Writer.terminated).length < 0x80000000
  debugFiles : (image.debugFiles.flatMap Writer.terminated).length < 0x80000000

theorem WellFormedPool.recorded {strings : List String} (h : WellFormedPool strings) :
    RecordedPool strings :=
  ⟨h.count, h.lengths, Nat.le_of_lt h.block⟩

theorem recordedPool_nil : RecordedPool [] :=
  ⟨Nat.zero_le _, nofun, Nat.zero_le _⟩

theorem FunctionDef.WellFormed.recorded {layout : Layout} {tables : Tables}
    {function : FunctionDef} (h : function.WellFormed layout tables) :
    function.Recorded layout tables where
  type := h.type
  index := h.index
  index_fits := h.index_fits
  registerCount := h.registerCount
  registers := h.registers
  operationCount := h.operationCount
  operations := h.operations
  lines hdebug := by
    obtain ⟨entries, hlines, hlength, hentries⟩ := h.lines hdebug
    exact ⟨entries, hlines, hlength, fun entry hentry => (hentries entry hentry).selectable⟩
  no_lines := h.no_lines
  nameCount := by
    cases hflag : layout.debug && Image.hasRegisterNames layout.version with
    | true =>
        obtain ⟨hdebug, hversion⟩ := Bool.and_eq_true_iff.mp hflag
        exact (h.names hdebug hversion).1
    | false => simp [h.no_names hflag]
  names := by
    cases hflag : layout.debug && Image.hasRegisterNames layout.version with
    | true =>
        obtain ⟨hdebug, hversion⟩ := Bool.and_eq_true_iff.mp hflag
        exact (h.names hdebug hversion).2
    | false => simp [h.no_names hflag]
  no_names := h.no_names

namespace Image.WellFormed

variable {image : Image}

theorem recorded (h : image.WellFormed) : image.Recorded image.tables where
  minVersion := h.minVersion
  maxVersion := h.maxVersion
  flags := h.flags
  intCount := h.intCount
  ints := h.ints
  floatCount := h.floatCount
  strings := h.strings.recorded
  bytes := by
    cases hflag : hasBlobs image.version with
    | true => exact (h.blobs hflag).1
    | false => simp [(h.no_blobs hflag).1]
  blobCount := by
    cases hflag : hasBlobs image.version with
    | true => exact (h.blobs hflag).2.1
    | false => simp [(h.no_blobs hflag).2]
  blobStarts := by
    cases hflag : hasBlobs image.version with
    | true => exact (h.blobs hflag).2.2
    | false => simp [(h.no_blobs hflag).2]
  no_blobs := h.no_blobs
  debugFiles := by
    cases hflag : image.hasDebug with
    | true => exact (h.debugFiles hflag).recorded
    | false =>
        rw [h.no_debugFiles hflag]
        exact recordedPool_nil
  no_debugFiles := h.no_debugFiles
  typeCount := h.typeCount
  types := h.types
  globalCount := h.globalCount
  globals := h.globals
  nativeCount := h.nativeCount
  natives := h.natives
  functionCount := h.functionCount
  functions function hfunction := (h.functions function hfunction).recorded
  constantCount := by
    cases hflag : hasConstants image.version with
    | true => exact (h.constants hflag).1
    | false => simp [h.no_constants hflag]
  constants := by
    cases hflag : hasConstants image.version with
    | true => exact (h.constants hflag).2
    | false => simp [h.no_constants hflag]
  no_constants := h.no_constants
  entrypoint := h.entrypoint
  functionTable := h.functionTable

theorem expressible (h : image.WellFormed) : image.Expressible where
  lines function hfunction entries hentries := by
    cases hdebug : image.hasDebug with
    | true =>
        obtain ⟨found, hlines, -, hfound⟩ := (h.functions function hfunction).lines hdebug
        rw [hlines, Option.mem_some_iff] at hentries
        subst hentries
        exact LineTable.expressible_of_lt 0 fun entry hentry => (hfound entry hentry).line_lt
    | false =>
        rw [(h.functions function hfunction).no_lines hdebug] at hentries
        cases hentries
  strings := h.strings.block
  debugFiles := by
    cases hflag : image.hasDebug with
    | true => exact (h.debugFiles hflag).block
    | false => simp [h.no_debugFiles hflag]

end Image.WellFormed

end BytecodeLowering
