import BytecodeLowering.Proofs.Image.Pools
import BytecodeLowering.Proofs.Image.Reads

/-!
# What an image that was read refers to

Reading replaces an index that is out of range by zero and a name that is not
in the pool by the first string, and leaves a diagnostic.  Whatever the bytes
were, the image therefore refers only to entries that exist, except that index
zero and the empty name stand for the first entry of an empty table; without a
diagnostic there is no exception.
-/

namespace BytecodeLowering

open Reader (Tables Layout)

namespace Reader.Tables

/-- The entries that may be named after a replacement: an empty table counts as
one with a single entry. -/
def lenient (tables : Tables) : Tables where
  strings := if tables.strings = [] then [""] else tables.strings
  typeCount := max 1 tables.typeCount

def reach (tables : Tables) (quiet : Bool) : Tables :=
  if quiet then tables else tables.lenient

variable {tables : Tables} {quiet : Bool}

theorem mem_reach {text : String} (h : text ∈ tables.strings) :
    text ∈ (tables.reach quiet).strings := by
  have hne : tables.strings ≠ [] := List.ne_nil_of_mem h
  cases quiet <;> simpa [reach, lenient, hne] using h

theorem lt_reach {index : TypeIndex} (h : index < tables.typeCount) :
    index < (tables.reach quiet).typeCount := by
  cases quiet with
  | false => exact Nat.lt_of_lt_of_le h (Nat.le_max_right 1 _)
  | true => exact h

theorem first_mem_reach (h : quiet = false) :
    tables.strings.headD "" ∈ (tables.reach quiet).strings := by
  subst h
  cases hstrings : tables.strings <;> simp [reach, lenient, hstrings]

theorem zero_lt_reach (h : quiet = false) : 0 < (tables.reach quiet).typeCount := by
  subst h
  exact Nat.le_max_left 1 _

end Reader.Tables

/-! ## Ranges -/

/-- A function whose references lie in the tables, with one source position
for each instruction if the image has source positions at all. -/
structure FunctionDef.InRange (layout : Layout) (tables : Tables)
    (function : FunctionDef) : Prop where
  type : function.type < tables.typeCount
  index : function.index < layout.indexSpace
  registers : ∀ register ∈ function.registers, register < tables.typeCount
  operations : ∀ op ∈ function.operations, op.WellFormed
  lines : function.lines.map List.length =
    if layout.debug then some function.operations.length else none
  names : ∀ name ∈ function.names, name.WellFormed tables
  no_names : (layout.debug && Image.hasRegisterNames layout.version) = false →
    function.names = []

/-- An image whose references lie in the tables, with the parts that its
version or its flags leave out empty. -/
structure Image.InRange (image : Image) (tables : Tables) : Prop where
  minVersion : Image.minVersion ≤ image.version
  maxVersion : image.version ≤ Image.maxVersion
  types : ∀ source ∈ image.types, source.WellFormed tables
  globals : ∀ index ∈ image.globals, index < tables.typeCount
  natives : ∀ native ∈ image.natives, native.WellFormed tables image.layout.indexSpace
  functions : ∀ function ∈ image.functions, function.InRange image.layout tables
  functionTable : image.functionTable = buildTable image.functions image.natives
  blobStarts : ∀ start ∈ image.blobStarts, start ≤ image.bytes.length
  no_blobs : hasBlobs image.version = false → image.bytes = [] ∧ image.blobStarts = []
  no_constants : hasConstants image.version = false → image.constants = []
  no_debugFiles : image.hasDebug = false → image.debugFiles = []

theorem FunctionDef.Recorded.inRange {layout : Layout} {tables : Tables}
    {function : FunctionDef} (h : function.Recorded layout tables) :
    function.InRange layout tables where
  type := h.type
  index := h.index
  registers := h.registers
  operations := h.operations
  lines := by
    cases hdebug : layout.debug with
    | true =>
        obtain ⟨entries, hlines, hlength, -⟩ := h.lines hdebug
        rw [hlines, Option.map_some, hlength, if_pos rfl]
    | false =>
        rw [h.no_lines hdebug]
        rfl
  names := h.names
  no_names := h.no_names

theorem Image.Recorded.inRange {image : Image} {tables : Tables} (h : image.Recorded tables) :
    image.InRange tables where
  minVersion := h.minVersion
  maxVersion := h.maxVersion
  types := h.types
  globals := h.globals
  natives := h.natives
  functions function hfunction := (h.functions function hfunction).inRange
  functionTable := h.functionTable
  blobStarts start hstart := (h.blobStarts start hstart).1
  no_blobs := h.no_blobs
  no_constants := h.no_constants
  no_debugFiles := h.no_debugFiles

namespace Reader

section Readers

variable {quiet : Bool} {tables : Tables} {layout : Layout}

/-! ## Pools -/

theorem reads_block : Reads quiet block fun bytes => bytes.length < 0x80000000 := by
  refine reads_int32.bind fun size => .ite (fun _ => .fail _ _) fun hpos => ?_
  refine (reads_bytes _).mono fun bytes hlength hsize => ?_
  omega

theorem size_of_fromUTF8? {bytes : ByteArray} {text : String}
    (h : String.fromUTF8? bytes = some text) : text.utf8ByteSize = bytes.size := by
  rw [String.fromUTF8?] at h
  split at h <;> cases h
  rfl

/-- A byte separates a string from the next, so with one after the last string
too they take at most one byte more than the block has. -/
theorem reads_slices (block : Bytes) (count index start : Nat) (hstart : start ≤ block.length + 1) :
    Reads quiet (slices block count index start) fun strings =>
      strings.length = count ∧ (∀ text ∈ strings, Fits text.utf8ByteSize) ∧
        start + (strings.flatMap Writer.terminated).length ≤ block.length + 1 := by
  induction count generalizing index start with
  | zero => exact .pure ⟨rfl, nofun, hstart⟩
  | succ count ih =>
      refine reads_unsignedIndex.bind fun length => .ite (fun _ => .fail _ _) fun hroom => ?_
      split
      case h_1 => exact .fail _ _
      case h_2 text htext =>
        have hsize : text.utf8ByteSize = length := by
          rw [size_of_fromUTF8? htext]
          simp only [ByteArray.size, List.size_toArray, List.length_take, List.length_drop]
          omega
        refine (ih _ _ (by omega)).bind fun others => .pure ?_
        rintro ⟨hcount, hlengths, hblock⟩ hfits
        refine ⟨by simp [hcount], List.forall_mem_cons.mpr ⟨hsize ▸ hfits, hlengths⟩, ?_⟩
        rw [List.flatMap_cons, List.length_append, Text.length_terminated, hsize]
        omega

theorem reads_stringPool (count : Nat) :
    Reads quiet (stringPool count) fun strings =>
      strings.length = count ∧ (Fits count → RecordedPool strings) := by
  refine reads_block.bind fun block =>
    (reads_slices block count 0 0 (Nat.zero_le _)).mono fun strings hstrings hblock => ?_
  obtain ⟨rfl, hlengths, hsize⟩ := hstrings
  exact ⟨rfl, fun hcount => ⟨hcount, hlengths, by omega⟩⟩

theorem reads_blobStart (size : Nat) :
    Reads quiet (blobStart size) fun start => start ≤ size ∧ Fits start :=
  Reads.offset.bind fun _ => reads_unsignedIndex.bind fun _ =>
    .ite (fun _ => .replaced _ _ fun _ _ _ => ⟨Nat.zero_le _, Nat.zero_le _⟩)
      fun h => .pure fun hfits _ => ⟨Nat.le_of_not_lt h, hfits⟩

theorem reads_blobPool (count : Nat) :
    Reads quiet (blobPool count) fun pool => pool.1.length < 0x80000000 ∧
      pool.2.length = count ∧ ∀ start ∈ pool.2, start ≤ pool.1.length ∧ Fits start :=
  reads_block.bind fun block => ((reads_blobStart block.length).times count).bind fun _ =>
    .pure fun hstarts hblock => ⟨hblock, hstarts⟩

/-! ## Types -/

theorem reads_string :
    Reads quiet (string tables) fun text => text ∈ (tables.reach quiet).strings := by
  refine Reads.offset.bind fun here => reads_index.bind fun index => ?_
  split
  case h_1 text htext =>
    obtain ⟨position, _, hposition⟩ := Option.bind_eq_some_iff.mp htext
    exact .pure fun _ _ => Tables.mem_reach (List.mem_of_getElem? hposition)
  case h_2 => exact .replaced _ _ fun hloud _ _ => Tables.first_mem_reach hloud

theorem reads_checkTypeIndex (here : Nat) (index : Int) :
    Reads quiet (checkTypeIndex tables here index) fun type =>
      type < (tables.reach quiet).typeCount :=
  .ite (fun h => .pure (Tables.lt_reach ((Int.toNat_lt h.1).mpr h.2)))
    fun _ => .replaced _ _ Tables.zero_lt_reach

theorem reads_typeIndex :
    Reads quiet (typeIndex tables) fun type => type < (tables.reach quiet).typeCount :=
  Reads.offset.bind fun here => reads_index.bind fun index =>
    (reads_checkTypeIndex here index).mono fun _ h _ _ => h

theorem reads_globalIndex :
    Reads quiet globalIndex fun global => ∀ number ∈ global, Fits (number + 1) := by
  refine reads_unsignedIndex.bind fun value => ?_
  cases value with
  | zero => exact .pure fun _ => by simp
  | succ value => exact .pure fun hfits => by simpa using hfits

theorem reads_field : Reads quiet (field tables) (Field.WellFormed (tables.reach quiet)) :=
  reads_string.bind fun _ => reads_typeIndex.bind fun _ =>
    .pure fun htype hname => ⟨hname, htype⟩

theorem reads_functionType :
    Reads quiet (functionType tables) (FunctionType.WellFormed (tables.reach quiet)) := by
  refine reads_byte.bind fun count => (reads_typeIndex.times _).bind fun args =>
    reads_typeIndex.bind fun ret => .pure ?_
  rintro hret ⟨hlength, hargs⟩ _
  have hbyte := count.toNat_lt
  exact ⟨by simp only; omega, hargs, hret⟩

theorem reads_prototype :
    Reads quiet (prototype tables) (Prototype.WellFormed (tables.reach quiet)) :=
  reads_string.bind fun _ => reads_unsignedIndex.bind fun _ => reads_index.bind fun _ =>
    .pure fun hslot hfunction hname => ⟨hname, hfunction, hslot⟩

theorem reads_binding : Reads quiet binding Binding.WellFormed :=
  reads_unsignedIndex.bind fun _ => reads_unsignedIndex.bind fun _ =>
    .pure fun hfunction hfield => ⟨hfield, hfunction⟩

theorem reads_superType :
    Reads quiet (superType tables) fun super =>
      ∀ parent ∈ super, parent < (tables.reach quiet).typeCount := by
  refine Reads.offset.bind fun here => reads_index.bind fun index => .ite (fun _ => ?_) fun _ => ?_
  · exact .pure fun _ _ => by simp
  · exact (reads_checkTypeIndex here index).bind fun parent => .pure fun hparent _ _ => by
      simpa using hparent

theorem reads_objectType :
    Reads quiet (objectType tables) (ObjectType.WellFormed (tables.reach quiet)) := by
  refine reads_string.bind fun name => reads_superType.bind fun super =>
    reads_globalIndex.bind fun global => reads_count.bind fun fieldCount =>
    reads_count.bind fun prototypeCount => reads_count.bind fun bindingCount =>
    (reads_field.times fieldCount).bind fun fields =>
    (reads_prototype.times prototypeCount).bind fun prototypes =>
    (reads_binding.times bindingCount).bind fun bindings => .pure ?_
  rintro ⟨rfl, hbindings⟩ ⟨rfl, hprototypes⟩ ⟨rfl, hfields⟩ hbindingCount hprototypeCount
    hfieldCount hglobal hsuper hname
  exact ⟨hname, hsuper, hglobal, hfieldCount, hprototypeCount, hbindingCount, hfields,
    hprototypes, hbindings⟩

theorem reads_enumConstruct :
    Reads quiet (enumConstruct tables) (EnumConstruct.WellFormed (tables.reach quiet)) := by
  refine reads_string.bind fun name => reads_count.bind fun count =>
    (reads_typeIndex.times count).bind fun params => .pure ?_
  rintro ⟨rfl, hparams⟩ hcount hname
  exact ⟨hname, hcount, hparams⟩

theorem reads_enumType :
    Reads quiet (enumType tables) (EnumType.WellFormed (tables.reach quiet)) := by
  refine reads_string.bind fun name => reads_globalIndex.bind fun global =>
    reads_byte.bind fun count => (reads_enumConstruct.times _).bind fun constructs => .pure ?_
  rintro ⟨hlength, hconstructs⟩ _ hglobal hname
  have hbyte := count.toNat_lt
  exact ⟨hname, hglobal, by simp only; omega, hconstructs⟩

theorem reads_typeOfKind (kind : TypeKind) :
    Reads quiet (typeOfKind tables kind) (SourceType.WellFormed (tables.reach quiet)) := by
  cases kind with
  | func | method => exact reads_functionType.bind fun _ => .pure id
  | obj | struct => exact reads_objectType.bind fun _ => .pure id
  | ref | null | packed => exact reads_typeIndex.bind fun _ => .pure id
  | virtual =>
      refine reads_count.bind fun count => (reads_field.times count).bind fun fields => .pure ?_
      rintro ⟨rfl, hfields⟩ hcount
      exact ⟨hcount, hfields⟩
  | abstract => exact reads_string.bind fun _ => .pure id
  | enum => exact reads_enumType.bind fun _ => .pure id
  | _ => exact .pure trivial

theorem reads_sourceType :
    Reads quiet (sourceType tables) (SourceType.WellFormed (tables.reach quiet)) := by
  refine reads_byte.bind fun tag => ?_
  split
  case h_1 => exact .fail _ _
  case h_2 kind _ => exact (reads_typeOfKind kind).mono fun _ h _ => h

/-! ## Functions -/

theorem reads_functionIndex (size : Nat) :
    Reads quiet (functionIndex size) fun function => function < size ∧ Fits function :=
  reads_unsignedIndex.bind fun _ =>
    .ite (fun hlt => .pure fun hfits => ⟨hlt, hfits⟩) fun _ => .fail _ _

theorem reads_native (size : Nat) :
    Reads quiet (native tables size) (Native.WellFormed (tables.reach quiet) size) :=
  reads_string.bind fun _ => reads_string.bind fun _ => reads_typeIndex.bind fun _ =>
    (reads_functionIndex size).bind fun _ =>
    .pure fun hindex htype hsymbol hlibrary => ⟨hlibrary, hsymbol, htype, hindex.1, hindex.2⟩

theorem reads_params (opcode : Opcode) :
    Reads quiet (params opcode.arity) fun params => Operation.WellFormed { opcode, params } := by
  simp only [Operation.WellFormed]
  cases opcode.arity with
  | fixed count => exact reads_index.times count
  | callLike =>
      refine reads_index.bind fun first => reads_index.bind fun second =>
        reads_byte.bind fun count => (reads_index.times _).bind fun args => .pure ?_
      rintro ⟨hlength, hargs⟩ _ hsecond hfirst
      have hbyte := count.toNat_lt
      refine ⟨by simp, by simp only [List.length_cons]; omega, ?_⟩
      exact List.forall_mem_cons.mpr ⟨hfirst, List.forall_mem_cons.mpr ⟨hsecond, hargs⟩⟩
  | switch =>
      refine reads_unsignedIndex.bind fun register => reads_count.bind fun count =>
        (reads_unsignedIndex.times count).bind fun offsets =>
        reads_unsignedIndex.bind fun stop => .pure ?_
      rintro hstop ⟨rfl, hoffsets⟩ hcount hregister
      refine ⟨by simp, by simpa using hcount, ?_⟩
      have hall : ∀ param ∈ register :: offsets ++ [stop], Fits param := by
        simp only [List.cons_append, List.mem_cons, List.mem_append, List.not_mem_nil, or_false]
        rintro param (rfl | hparam | rfl)
        · exact hregister
        · exact hoffsets param hparam
        · exact hstop
      intro param hparam
      obtain ⟨value, hvalue, rfl⟩ := List.mem_map.mp hparam
      exact ⟨Int.natCast_nonneg value, hall value hvalue⟩

theorem reads_operation : Reads quiet operation Operation.WellFormed := by
  refine reads_byte.bind fun byte => ?_
  split
  case h_1 => exact .fail _ _
  case h_2 opcode _ => exact (reads_params opcode).bind fun params => .pure fun h _ => h

theorem reads_registerName :
    Reads quiet (registerName tables) (RegisterName.WellFormed (tables.reach quiet)) :=
  reads_string.bind fun _ => reads_index.bind fun _ =>
    .pure fun hposition hname => ⟨hname, hposition⟩

theorem reads_functionLines (function total : Nat) :
    Reads quiet (functionLines layout function total) fun lines =>
      (layout.debug = true → ∃ entries, lines = some entries ∧ entries.length = total ∧
        ∀ entry ∈ entries, entry.Selectable layout.fileCount) ∧
      (layout.debug = false → lines = none) := by
  refine .ite (fun hdebug => ?_) fun hdebug => .pure ⟨fun h => absurd h hdebug, fun _ => rfl⟩
  refine (reads_lines _).bind fun lines => .pure fun hlines => ⟨fun _ => ⟨lines, rfl, hlines⟩, ?_⟩
  intro habsent
  rw [habsent] at hdebug
  cases hdebug

theorem reads_functionNames :
    Reads quiet (functionNames layout tables) fun names =>
      Fits names.length ∧ (∀ name ∈ names, name.WellFormed (tables.reach quiet)) ∧
        ((layout.debug && Image.hasRegisterNames layout.version) = false → names = []) := by
  refine .ite (fun hnamed => ?_) fun _ => .pure ⟨Nat.zero_le _, nofun, fun _ => rfl⟩
  refine reads_count.bind fun count => (reads_registerName.times count).mono fun names hnames hcount => ?_
  obtain ⟨rfl, hnames⟩ := hnames
  exact ⟨hcount, hnames, fun hunnamed => by rw [hunnamed] at hnamed; cases hnamed⟩

theorem reads_functionDef :
    Reads quiet (functionDef layout tables) (FunctionDef.Recorded layout (tables.reach quiet)) := by
  refine reads_typeIndex.bind fun type => (reads_functionIndex _).bind fun index =>
    reads_count.bind fun registerCount => reads_count.bind fun operationCount =>
    (reads_typeIndex.times registerCount).bind fun registers =>
    (reads_operation.times operationCount).bind fun operations =>
    (reads_functionLines index operationCount).bind fun lines =>
    reads_functionNames.bind fun names => .pure ?_
  rintro ⟨hnameCount, hnames, hunnamed⟩ hlines ⟨rfl, hoperations⟩ ⟨rfl, hregisters⟩
    hoperationCount hregisterCount hindex htype
  exact ⟨htype, hindex.1, hindex.2, hregisterCount, hregisters, hoperationCount, hoperations,
    hlines.1, hlines.2, hnameCount, hnames, hunnamed⟩

theorem reads_constant : Reads quiet constant Constant.WellFormed := by
  refine reads_unsignedIndex.bind fun global => reads_count.bind fun count =>
    (reads_unsignedIndex.times count).bind fun fields => .pure ?_
  rintro ⟨rfl, hfields⟩ hcount hglobal
  exact ⟨hglobal, hcount, hfields⟩

/-! ## The image -/

theorem steady_header : Steady header := by
  intro cursor more
  refine ((@reads_bytes false 3).steady cursor more).bind
    fun found middle hfound hlimit => ?_
  have hthree : 3 ≤ cursor.limit := by
    rw [bytes_run] at hfound
    split at hfound
    case isTrue => cases hfound
    case isFalse h => exact Nat.le_trans (Nat.le_of_not_lt h) (Nat.le_add_left _ _)
  split
  case isTrue =>
    rw [← hlimit] at hthree ⊢
    refine ((@reads_byte false).steady middle more).bind fun version after _ hafter => ?_
    split
    case isTrue => exact .value hafter
    case isFalse => exact .fault hthree
  case isFalse => exact .fault (Nat.zero_le _)

theorem reads_header :
    Reads quiet header fun version =>
      Image.minVersion ≤ version ∧ version ≤ Image.maxVersion where
  steady := steady_header
  result hrun hquiet := by
    obtain ⟨found, middle, hfound, hrun⟩ := of_bind_ok hrun
    split at hrun
    case isFalse => cases hrun
    case isTrue =>
      obtain ⟨version, after, hversion, hrun⟩ := of_bind_ok hrun
      split at hrun
      case isFalse => cases hrun
      case isTrue hrange =>
        cases hrun
        have hmiddle := (reads_byte.result hversion hquiet).2
        exact ⟨hrange, ((reads_bytes 3).result hfound hmiddle).2⟩

theorem reads_countIf (present : Bool) :
    Reads quiet (countIf present) fun count => Fits count ∧ (present = false → count = 0) := by
  refine .ite (fun hpresent => reads_count.mono fun _ hfits => ⟨hfits, fun habsent => ?_⟩)
    fun _ => .pure ⟨Nat.zero_le _, fun _ => rfl⟩
  rw [hpresent] at habsent
  cases habsent

/-- Every size fits its field, and a table that the version leaves out is empty. -/
structure Counts.Recorded (version : UInt8) (counts : Counts) : Prop where
  ints : Fits counts.ints
  floats : Fits counts.floats
  strings : Fits counts.strings
  blobs : Fits counts.blobs
  types : Fits counts.types
  globals : Fits counts.globals
  natives : Fits counts.natives
  functions : Fits counts.functions
  constants : Fits counts.constants
  no_constants : Image.hasConstants version = false → counts.constants = 0

theorem reads_counts (version : UInt8) :
    Reads quiet (counts version) (Counts.Recorded version) := by
  refine reads_count.bind fun ints => reads_count.bind fun floats =>
    reads_count.bind fun strings => (reads_countIf _).bind fun blobs =>
    reads_count.bind fun types => reads_count.bind fun globals =>
    reads_count.bind fun natives => reads_count.bind fun functions =>
    (reads_countIf _).bind fun constants => .pure ?_
  rintro ⟨hconstants, hnone⟩ hfunctions hnatives hglobals htypes ⟨hblobs, -⟩ hstrings hfloats hints
  exact ⟨hints, hfloats, hstrings, hblobs, htypes, hglobals, hnatives, hfunctions, hconstants, hnone⟩

theorem reads_blobs (version : UInt8) (count : Nat) :
    Reads quiet (blobs version count) fun pool => pool.1.length < 0x80000000 ∧
      (Fits count → Fits pool.2.length) ∧
      (∀ start ∈ pool.2, start ≤ pool.1.length ∧ Fits start) ∧
        (Image.hasBlobs version = false → pool.1 = [] ∧ pool.2 = []) := by
  refine .ite (fun hpresent => ?_) fun _ =>
    .pure ⟨by decide, fun _ => Nat.zero_le _, nofun, fun _ => ⟨rfl, rfl⟩⟩
  refine (reads_blobPool count).mono fun pool hpool => ?_
  obtain ⟨hbytes, rfl, hstarts⟩ := hpool
  refine ⟨hbytes, id, hstarts, fun habsent => ?_⟩
  rw [hpresent] at habsent
  cases habsent

theorem reads_debugFiles (debug : Bool) :
    Reads quiet (debugFiles debug) fun files =>
      RecordedPool files ∧ (debug = false → files = []) := by
  refine .ite (fun hdebug => reads_count.bind fun count => ?_)
    fun _ => .pure ⟨recordedPool_nil, fun _ => rfl⟩
  refine (reads_stringPool count).mono fun files hfiles hcount => ⟨hfiles.2 hcount, ?_⟩
  intro habsent
  rw [hdebug] at habsent
  cases habsent

theorem reads_recorded :
    Reads quiet contents fun image => image.Recorded (image.tables.reach quiet) := by
  refine reads_header.bind fun version => reads_unsignedIndex.bind fun flags =>
    (reads_counts version).bind fun counts => reads_unsignedIndex.bind fun entrypoint =>
    (reads_int32.times counts.ints).bind fun ints =>
    (reads_binary64.times counts.floats).bind fun floats =>
    (reads_stringPool counts.strings).bind fun strings =>
    (reads_blobs version counts.blobs).bind fun blobs =>
    (reads_debugFiles _).bind fun debugFiles =>
    (reads_sourceType.times counts.types).bind fun types =>
    (reads_typeIndex.times counts.globals).bind fun globals =>
    ((reads_native _).times counts.natives).bind fun natives =>
    (reads_functionDef.times counts.functions).bind fun functions =>
    (reads_constant.times counts.constants).bind fun constants => .pure ?_
  rintro ⟨hconstantCount, hconstants⟩ ⟨hfunctionCount, hfunctions⟩ ⟨hnativeCount, hnatives⟩
    ⟨hglobalCount, hglobals⟩ ⟨htypeCount, htypes⟩ ⟨hdebugFiles, hno_debugFiles⟩
    ⟨hbytes, hblobCount, hstarts, hno_blobs⟩ ⟨-, hstrings⟩ ⟨hfloatCount, -⟩ ⟨hintCount, hints⟩
    hentrypoint hcounts hflags hversion
  rw [← hfunctionCount, ← hnativeCount] at hnatives hfunctions
  rw [← htypeCount] at hnatives hfunctions hglobals htypes
  exact {
    minVersion := hversion.1
    maxVersion := hversion.2
    flags := hflags
    intCount := hintCount ▸ hcounts.ints
    ints := hints
    floatCount := hfloatCount ▸ hcounts.floats
    strings := hstrings hcounts.strings
    bytes := hbytes
    blobCount := hblobCount hcounts.blobs
    blobStarts := hstarts
    no_blobs := hno_blobs
    debugFiles := hdebugFiles
    no_debugFiles := hno_debugFiles
    typeCount := htypeCount ▸ hcounts.types
    types := htypes
    globalCount := hglobalCount ▸ hcounts.globals
    globals := hglobals
    nativeCount := hnativeCount ▸ hcounts.natives
    natives := hnatives
    functionCount := hfunctionCount ▸ hcounts.functions
    functions := hfunctions
    constantCount := hconstantCount ▸ hcounts.constants
    constants := hconstants
    no_constants := fun habsent =>
      List.eq_nil_of_length_eq_zero (hconstantCount.trans (hcounts.no_constants habsent))
    entrypoint := hentrypoint
    functionTable := rfl }

theorem reads_contents :
    Reads quiet contents fun image => image.InRange (image.tables.reach quiet) :=
  reads_recorded.mono fun _ h => h.inRange

theorem reads_checkEntrypoint (table : FunctionTable) (entrypoint : Nat) :
    Reads quiet (checkEntrypoint table entrypoint) fun _ =>
      quiet = true → (table.resolve? entrypoint).isSome = true := by
  refine .ite (fun _ => ?_) fun hfound => .pure fun _ => ?_
  · refine Reads.offset.bind fun here => (Reads.diagnose here _).mono fun _ hloud _ hquiet => ?_
    exact absurd (hloud.symm.trans hquiet) (by decide)
  · simpa [Option.isSome_iff_ne_none] using hfound

theorem steady_image : Steady image :=
  (@reads_contents false).steady.bind fun image =>
    (@reads_checkEntrypoint false image.functionTable image.entrypoint).steady.bind
      fun _ => Steady.takeDiagnostics.bind fun _ => .pure _

end Readers

end Reader

namespace Image

theorem InRange.setDiagnostics {image : Image} {tables : Tables} (h : image.InRange tables)
    (diagnostics : List Diagnostic) : { image with diagnostics }.InRange tables where
  minVersion := h.minVersion
  maxVersion := h.maxVersion
  types := h.types
  globals := h.globals
  natives := h.natives
  functions := h.functions
  functionTable := h.functionTable
  blobStarts := h.blobStarts
  no_blobs := h.no_blobs
  no_constants := h.no_constants
  no_debugFiles := h.no_debugFiles

/-- The diagnostics of an image are those of the run that read it. -/
theorem contents_of_decode {bytes : Bytes} {image : Image} (h : decode bytes = .ok image) :
    ∃ read middle, Reader.contents { rest := bytes } = .ok read middle ∧
      image = { read with diagnostics := image.diagnostics } ∧
        (image.diagnostics = [] → middle.diagnostics = []) := by
  rw [decode] at h
  split at h <;> cases h
  case h_1 after hrun =>
    obtain ⟨read, middle, hread, hrun⟩ := Reader.of_bind_ok hrun
    obtain ⟨_, checked, hchecked, hrun⟩ := Reader.of_bind_ok hrun
    cases hrun
    refine ⟨read, middle, hread, rfl, fun hquiet => ?_⟩
    exact ((@Reader.reads_checkEntrypoint true _ _).result hchecked fun _ => hquiet).2 rfl

theorem recorded_lenient {bytes : Bytes} {image : Image} (h : decode bytes = .ok image) :
    ∃ read : Image, image = { read with diagnostics := image.diagnostics } ∧
      read.Recorded (read.tables.reach false) := by
  obtain ⟨read, middle, hread, himage, -⟩ := contents_of_decode h
  exact ⟨read, himage, ((@Reader.reads_recorded false).result hread (by simp)).1⟩

theorem inRange_of_decode {bytes : Bytes} {image : Image} (h : decode bytes = .ok image) :
    image.InRange image.tables.lenient ∧
      (image.diagnostics = [] → image.InRange image.tables) := by
  obtain ⟨read, middle, hread, himage, hquiet⟩ := contents_of_decode h
  rw [himage]
  constructor
  · have hloud := (@Reader.reads_contents false).result hread (by simp)
    exact hloud.1.setDiagnostics _
  · intro hnone
    have hstrict := (@Reader.reads_contents true).result hread fun _ => hquiet hnone
    exact hstrict.1.setDiagnostics _

/-- An image without strings whose indices are all out of range, with a byte
after its end. -/
def damaged : Bytes :=
  [0x48, 0x4C, 0x42, 5, 1, 0, 0, 0, 1, 1, 1, 0, 1, 0, 9, 0, 0, 0, 0, 1, 0, 0, 0, 0xAA, 5,
    0, 0, 0, 0, 0, 14, 7, 3, 2, 0, 1, 1, 0x80, 200, 67, 0, 6, 1, 4, 0xA0, 1, 0xFF]

theorem inRange_of_decode_damaged :
    ∃ image, decode damaged = .ok image ∧ image.diagnostics.length = 7 ∧
      image.InRange image.tables.lenient := by
  have hread : ((decode damaged).toOption.any fun image => image.diagnostics.length == 7) = true := by
    decide +kernel
  cases h : decode damaged with
  | error error =>
      rw [h] at hread
      cases hread
  | ok image =>
      rw [h] at hread
      exact ⟨image, rfl, eq_of_beq hread, (inRange_of_decode h).1⟩

end Image

end BytecodeLowering
