import BytecodeLowering.Proofs.Image.Pools

/-!
# Reading undoes writing

Every part of an image that was read is written, and its reader takes what was
written, from names and type indices up to the whole image.  Line tables and
string pools have limits; within them, as in every well-formed image, reading
undoes writing.
-/

namespace BytecodeLowering

open Decimal (Binary64)
open Reader (Tables Layout Counts)

namespace Carried

/-! ## Names and types -/

section Types

variable {tables : Tables} (hstrings : Fits tables.strings.length) (htypes : Fits tables.typeCount)

theorem idxOf?_of_mem {strings : List String} {name : String} (h : name ∈ strings) :
    ∃ position, strings.idxOf? name = some position ∧ strings[position]? = some name := by
  cases hfound : strings.idxOf? name with
  | none => exact absurd h (List.idxOf?_eq_none_iff.mp hfound)
  | some position =>
      obtain ⟨hlt, hname, -⟩ := List.idxOf?_eq_some_iff.mp hfound
      exact ⟨position, rfl, List.getElem?_eq_some_iff.mpr ⟨hlt, hname⟩⟩

include hstrings in
theorem string {name : String} (h : name ∈ tables.strings) :
    Carried (Writer.string tables.strings name) 1 (Reader.string tables) name 0 := by
  obtain ⟨position, hfound, hname⟩ := idxOf?_of_mem h
  have hlt : position < tables.strings.length := (List.getElem?_eq_some_iff.mp hname).1
  have hshort : Word.signed32 position = position :=
    Word.signed32_of_lt (by unfold Fits Writer.maxMagnitude at hstrings; omega)
  obtain ⟨segment, hpart, hsize, htakes⟩ :=
    @Carried.index position (by rw [Int.natAbs_natCast]; omega)
  refine ⟨segment, ?_, hsize, ?_⟩
  · rw [Writer.string, hfound]
    simp only [hshort, hpart]
  · intro rest offset notes hneed
    have hoffset : Reader.offset ⟨segment ++ rest, offset, notes⟩ = .ok offset _ := rfl
    have hlookup : ((position : Int).toNat?.bind fun index => tables.strings[index]?) = some name :=
      hname
    rw [Reader.string, Reader.bind_ok _ hoffset,
      Reader.bind_ok _ (htakes rest offset notes hneed), hlookup]
    rfl

theorem checkTypeIndex {index : Nat} (h : index < tables.typeCount) (here : Nat) :
    Reader.checkTypeIndex tables here index = Pure.pure index := by
  rw [Reader.checkTypeIndex, if_pos ⟨by omega, by omega⟩, Int.toNat_natCast]

include htypes in
theorem typeIndex {index : Nat} (h : index < tables.typeCount) :
    Carried (Writer.unsignedIndex index) 1 (Reader.typeIndex tables) index 0 := by
  obtain ⟨segment, hpart, hsize, htakes⟩ := @natIndex index (by omega)
  refine ⟨segment, hpart, hsize, ?_⟩
  intro rest offset notes hneed
  have hoffset : Reader.offset ⟨segment ++ rest, offset, notes⟩ = .ok offset _ := rfl
  rw [Reader.typeIndex, Reader.bind_ok _ hoffset,
    Reader.bind_ok _ (htakes rest offset notes hneed), checkTypeIndex h]
  rfl

include htypes in
theorem superType {super : Option Nat} (h : ∀ parent ∈ super, parent < tables.typeCount) :
    Carried (Writer.superType super) 1 (Reader.superType tables) super 0 := by
  cases super with
  | none =>
      obtain ⟨segment, hpart, hsize, htakes⟩ := @Carried.index (-1) (by decide)
      refine ⟨segment, hpart, hsize, ?_⟩
      intro rest offset notes hneed
      have hoffset : Reader.offset ⟨segment ++ rest, offset, notes⟩ = .ok offset _ := rfl
      rw [Reader.superType, Reader.bind_ok _ hoffset,
        Reader.bind_ok _ (htakes rest offset notes hneed)]
      rfl
  | some parent =>
      have hparent : parent < tables.typeCount := h parent rfl
      have hshort : Word.signed32 parent = parent :=
        Word.signed32_of_lt (by unfold Fits Writer.maxMagnitude at htypes; omega)
      obtain ⟨segment, hpart, hsize, htakes⟩ :=
        @Carried.index parent (by rw [Int.natAbs_natCast]; omega)
      refine ⟨segment, by rw [Writer.superType, hshort, hpart], hsize, ?_⟩
      intro rest offset notes hneed
      have hoffset : Reader.offset ⟨segment ++ rest, offset, notes⟩ = .ok offset _ := rfl
      rw [Reader.superType, Reader.bind_ok _ hoffset,
        Reader.bind_ok _ (htakes rest offset notes hneed), if_neg (by omega),
        checkTypeIndex hparent]
      rfl

theorem globalIndex {global : Option Nat} (h : ∀ number ∈ global, Fits (number + 1)) :
    Carried (Writer.global global) 1 Reader.globalIndex global 0 := by
  have hfits : Fits (global.elim 0 (· + 1)) := by
    cases global with
    | none => exact Nat.zero_le _
    | some number => exact h number rfl
  obtain ⟨segment, hpart, hsize, htakes⟩ := unsignedIndex hfits
  refine ⟨segment, hpart, hsize, ?_⟩
  intro rest offset notes hneed
  rw [Reader.globalIndex, Reader.bind_ok _ (htakes rest offset notes hneed)]
  cases global <;> rfl

include hstrings htypes

theorem field {field : Field} (h : field.WellFormed tables) :
    Carried (Writer.field tables.strings field) 1 (Reader.field tables) field 0 :=
  ((string hstrings h.name).bind
    ((typeIndex htypes h.type).bind (Carried.pure field) (Nat.zero_le _))
    (Nat.zero_le _)).weaken (by omega) (Nat.le_refl 0)

omit hstrings in
theorem functionType {signature : FunctionType} (h : signature.WellFormed tables) :
    Carried (Writer.functionType signature) 0 (Reader.functionType tables) signature 0 := by
  have hargs : Carried (Writer.each Writer.unsignedIndex signature.args)
      (1 * signature.args.length)
      (Reader.times (UInt8.ofNat signature.args.length).toNat (Reader.typeIndex tables))
      signature.args 0 := by
    rw [toNat_byteCount h.count]
    exact times signature.args fun arg harg => typeIndex htypes (h.args arg harg)
  refine ((byteCount "arguments" h.count).bind
    (hargs.bind
      ((typeIndex htypes h.ret).bind (Carried.pure signature) ?_) ?_) ?_).weaken ?_ ?_
  all_goals omega

omit htypes in
theorem prototype {prototype : Prototype} (h : prototype.WellFormed tables) :
    Carried (Writer.prototype tables.strings prototype) 1 (Reader.prototype tables) prototype 0 := by
  refine ((string hstrings h.name).bind
    ((unsignedIndex h.function).bind
      ((Carried.index h.slot).bind (Carried.pure prototype) ?_) ?_) ?_).weaken ?_ ?_
  all_goals omega

omit hstrings htypes in
theorem binding {binding : Binding} (h : binding.WellFormed) :
    Carried (Writer.binding binding) 1 Reader.binding binding 0 := by
  refine ((unsignedIndex h.field).bind
    ((unsignedIndex h.function).bind (Carried.pure binding) ?_) ?_).weaken ?_ ?_
  all_goals omega

theorem objectType {object : ObjectType} (h : object.WellFormed tables) :
    Carried (Writer.objectType tables.strings object) 0 (Reader.objectType tables) object 0 := by
  have hfields := times object.fields fun item hitem =>
    field hstrings htypes (h.fields item hitem)
  have hprototypes := times object.prototypes fun item hitem =>
    prototype hstrings (h.prototypes item hitem)
  have hbindings := times object.bindings fun item hitem => binding (h.bindings item hitem)
  refine ((string hstrings h.name).bind
    ((superType htypes h.super).bind
      ((globalIndex h.global).bind
        ((count h.fieldCount).bind
          ((count h.prototypeCount).bind
            ((count h.bindingCount).bind
              (hfields.bind
                (hprototypes.bind
                  (hbindings.bind (Carried.pure object) ?_) ?_) ?_) ?_) ?_) ?_) ?_) ?_) ?_).weaken
    ?_ ?_
  all_goals omega

theorem enumConstruct {construct : EnumConstruct} (h : construct.WellFormed tables) :
    Carried (Writer.enumConstruct tables.strings construct) 1 (Reader.enumConstruct tables)
      construct 0 := by
  have hparams := times construct.params fun param hparam =>
    typeIndex htypes (h.params param hparam)
  refine ((string hstrings h.name).bind
    ((count h.count).bind
      (hparams.bind (Carried.pure construct) ?_) ?_) ?_).weaken ?_ ?_
  all_goals omega

theorem enumType {variants : EnumType} (h : variants.WellFormed tables) :
    Carried (Writer.enumType tables.strings variants) 0 (Reader.enumType tables) variants 0 := by
  have hconstructs : Carried (Writer.each (Writer.enumConstruct tables.strings) variants.constructs)
      (1 * variants.constructs.length)
      (Reader.times (UInt8.ofNat variants.constructs.length).toNat (Reader.enumConstruct tables))
      variants.constructs 0 := by
    rw [toNat_byteCount h.count]
    exact times variants.constructs fun construct hconstruct =>
      enumConstruct hstrings htypes (h.constructs construct hconstruct)
  refine ((string hstrings h.name).bind
    ((globalIndex h.global).bind
      ((byteCount "constructs" h.count).bind
        (hconstructs.bind (Carried.pure variants) ?_) ?_) ?_) ?_).weaken ?_ ?_
  all_goals omega

theorem payload {source : SourceType} (h : source.WellFormed tables) :
    Carried (Writer.payload tables.strings source) 0
      (Reader.typeOfKind tables source.kind) source 0 := by
  cases source with
  | func signature =>
      exact (functionType htypes h).map SourceType.func
  | method signature =>
      exact (functionType htypes h).map SourceType.method
  | obj object =>
      exact (objectType hstrings htypes h).map SourceType.obj
  | struct object =>
      exact (objectType hstrings htypes h).map SourceType.struct
  | ref inner =>
      exact ((typeIndex htypes h).map SourceType.ref).weaken (Nat.zero_le _) (Nat.le_refl 0)
  | null inner =>
      exact ((typeIndex htypes h).map SourceType.null).weaken (Nat.zero_le _) (Nat.le_refl 0)
  | packed inner =>
      exact ((typeIndex htypes h).map SourceType.packed).weaken (Nat.zero_le _) (Nat.le_refl 0)
  | virtual fields =>
      have hfields := times fields fun item hitem => field hstrings htypes (h.2 item hitem)
      refine ((count h.1).bind
        (hfields.bind (Carried.pure (SourceType.virtual fields)) ?_) ?_).weaken ?_ ?_
      all_goals omega
  | abstract name =>
      exact ((string hstrings h).map SourceType.abstract).weaken (Nat.zero_le _) (Nat.le_refl 0)
  | enum variants =>
      exact (enumType hstrings htypes h).map SourceType.enum
  | _ => exact Carried.pure _

theorem sourceType {source : SourceType} (h : source.WellFormed tables) :
    Carried (Writer.sourceType tables.strings source) 1 (Reader.sourceType tables) source 0 := by
  have htag : Carried (.ok [source.kind.byte]) 1 Reader.byte source.kind.byte 0 :=
    ⟨_, rfl, Nat.le_refl 1, Reader.takes_byte _⟩
  refine (htag.bind (?_ : Carried _ 0 _ _ 0) (Nat.zero_le _)).weaken (Nat.le_refl 1) (Nat.le_refl 0)
  rw [TypeKind.ofByte?_byte]
  exact (payload hstrings htypes h).last

end Types

/-! ## Functions -/

theorem functionIndex {index size : Nat} (h : index < size) (hfits : Fits index) :
    Carried (Writer.unsignedIndex index) 1 (Reader.functionIndex size) index 0 := by
  obtain ⟨segment, hpart, hsize, htakes⟩ := unsignedIndex hfits
  refine ⟨segment, hpart, hsize, ?_⟩
  intro rest offset notes hneed
  rw [Reader.functionIndex, Reader.bind_ok _ (htakes rest offset notes hneed), if_pos h]
  rfl

theorem each_param (op : Operation) :
    Writer.each (fun i => Writer.index (op.param i)) (List.range op.params.length) =
      Writer.each Writer.index op.params := by
  unfold Writer.each
  congr 1
  refine List.ext_getElem (by simp) ?_
  intro i hleft hright
  have hi : i < op.params.length := by simpa using hright
  simp [Operation.param, List.getD_eq_getElem?_getD, hi]

theorem fixedParams {op : Operation} (h : ∀ param ∈ op.params, FitsSigned param) :
    Carried (Writer.each (fun i => Writer.index (op.param i)) (List.range op.params.length)) 0
      (Reader.times op.params.length Reader.index) op.params 0 := by
  rw [each_param]
  exact (times op.params fun param hparam => Carried.index (h param hparam)).weaken
    (Nat.zero_le _) (Nat.le_refl 0)

theorem callParams {first second : Int} {args : List Int} (hcount : args.length ≤ 255)
    (h : ∀ param ∈ first :: second :: args, FitsSigned param) :
    Carried
      (Writer.join [Writer.index first, Writer.index second, .ok [UInt8.ofNat args.length],
        Writer.each Writer.index args]) 0
      (Reader.params .callLike) (first :: second :: args) 0 := by
  have hbyte : Carried (.ok [UInt8.ofNat args.length]) 1 Reader.byte (UInt8.ofNat args.length) 0 :=
    ⟨_, rfl, Nat.le_refl 1, Reader.takes_byte _⟩
  have hargs : Carried (Writer.each Writer.index args) (1 * args.length)
      (Reader.times (UInt8.ofNat args.length).toNat Reader.index) args 0 := by
    rw [toNat_byteCount hcount]
    exact times args fun arg harg => Carried.index
      (h arg (List.mem_cons_of_mem _ (List.mem_cons_of_mem _ harg)))
  refine ((Carried.index (h first List.mem_cons_self)).bind
    ((Carried.index (h second (List.mem_cons_of_mem _ List.mem_cons_self))).bind
      (hbyte.bind
        (hargs.bind (Carried.pure (first :: second :: args)) ?_) ?_) ?_) ?_).weaken ?_ ?_
  all_goals omega

theorem switchParams {register stop : Nat} {offsets : List Nat} (hregister : Fits register)
    (hcount : Fits offsets.length) (hoffsets : ∀ offset ∈ offsets, Fits offset)
    (hstop : Fits stop) :
    Carried
      (Writer.join [Writer.unsignedIndex register, Writer.unsignedIndex offsets.length,
        Writer.each Writer.unsignedIndex offsets, Writer.unsignedIndex stop]) 0
      (Reader.params .switch) ((register :: offsets ++ [stop]).map Int.ofNat) 0 := by
  have hlist := times offsets fun offset hoffset => unsignedIndex (hoffsets offset hoffset)
  refine ((unsignedIndex hregister).bind
    ((count hcount).bind
      (hlist.bind
        ((unsignedIndex hstop).bind
          (Carried.pure ((register :: offsets ++ [stop]).map Int.ofNat)) ?_) ?_) ?_) ?_).weaken ?_ ?_
  all_goals omega

theorem eq_switch_of_arity {opcode : Opcode} (h : opcode.arity = .switch) : opcode = .switch := by
  cases opcode <;> first | rfl | cases h

theorem map_ofNat_toNat {values : List Int} (h : ∀ value ∈ values, 0 ≤ value) :
    (values.map Int.toNat).map Int.ofNat = values := by
  induction values with
  | nil => rfl
  | cons value values ih =>
      have hvalue : Int.ofNat value.toNat = value := Int.toNat_of_nonneg (h value List.mem_cons_self)
      rw [List.map_cons, List.map_cons, hvalue,
        ih fun other hother => h other (List.mem_cons_of_mem value hother)]

theorem signedSwitchParams {register stop : Int} {offsets : List Int}
    (hcount : Fits offsets.length)
    (h : ∀ param ∈ register :: (offsets ++ [stop]), 0 ≤ param ∧ FitsSigned param) :
    Carried
      (Writer.join [Writer.unsignedIndex register.toNat, Writer.unsignedIndex offsets.length,
        Writer.each (fun offset => Writer.unsignedIndex offset.toNat) offsets,
        Writer.unsignedIndex stop.toNat]) 0
      (Reader.params .switch) (register :: (offsets ++ [stop])) 0 := by
  have hfits : ∀ param ∈ register :: (offsets ++ [stop]), Fits param.toNat := by
    intro param hparam
    obtain ⟨hpos, hsigned⟩ := h param hparam
    have hsame : param.toNat = param.natAbs := by omega
    exact Nat.le_trans (Nat.le_of_eq hsame) hsigned
  have hoffsets : ∀ offset ∈ offsets.map Int.toNat, Fits offset :=
    List.forall_mem_map.mpr fun offset hoffset => hfits offset (by simp [hoffset])
  have hwritten : Writer.each (fun offset => Writer.unsignedIndex offset.toNat) offsets
      = Writer.each Writer.unsignedIndex (offsets.map Int.toNat) := by
    simp only [Writer.each, List.map_map, Function.comp_def]
  have hvalues : (register.toNat :: offsets.map Int.toNat ++ [stop.toNat]).map Int.ofNat
      = register :: (offsets ++ [stop]) := by
    rw [← map_ofNat_toNat fun param hparam => (h param hparam).1]
    simp
  have hparts := switchParams (hfits register List.mem_cons_self)
    (by rwa [List.length_map]) hoffsets (hfits stop (by simp))
  rwa [hvalues, List.length_map, ← hwritten] at hparts

theorem params {op : Operation} (h : op.WellFormed) :
    Carried (Writer.params op) 0 (Reader.params op.opcode.arity) op.params 0 := by
  unfold Operation.WellFormed at h
  unfold Writer.params
  cases harity : op.opcode.arity with
  | fixed number =>
      rw [harity] at h
      obtain ⟨hlength, hparams⟩ := h
      subst hlength
      exact fixedParams hparams
  | callLike =>
      rw [harity] at h
      obtain ⟨hleast, hmost, hparams⟩ := h
      obtain ⟨opcode, values⟩ := op
      match values, hleast with
      | first :: second :: args, _ =>
          have hcount : args.length ≤ 255 := by
            simp only [List.length_cons] at hmost
            omega
          have hbyte : Writer.byteCount "call arguments" args.length =
              .ok [UInt8.ofNat args.length] := if_pos hcount
          simp only [Operation.callArguments, List.drop_succ_cons, List.drop_zero, hbyte]
          exact callParams hcount hparams
  | switch =>
      rw [harity] at h
      obtain ⟨hleast, hcount, hparams⟩ := h
      obtain ⟨opcode, values⟩ := op
      obtain rfl : opcode = .switch := eq_switch_of_arity harity
      match values, hleast with
      | register :: second :: others, _ =>
          obtain ⟨offsets, stop, hsplit⟩ : ∃ offsets stop, second :: others = offsets ++ [stop] :=
            ⟨_, _, (List.dropLast_concat_getLast (List.cons_ne_nil second others)).symm⟩
          simp only [hsplit] at hcount hparams ⊢
          have hoffsets : Operation.switchOffsets ⟨.switch, register :: (offsets ++ [stop])⟩
              = offsets := by
            simp [Operation.switchOffsets]
          have hlast : (register :: (offsets ++ [stop])).getLastD 0 = stop := by
            rw [List.getLastD_cons, List.getLastD_concat]
          simp only [hoffsets, hlast]
          exact signedSwitchParams (by simpa using hcount) hparams

theorem operation {op : Operation} (h : op.WellFormed) :
    Carried (Writer.operation op) 1 Reader.operation op 0 := by
  have hbyte : Carried (.ok [op.opcode.byte]) 1 Reader.byte op.opcode.byte 0 :=
    ⟨_, rfl, Nat.le_refl 1, Reader.takes_byte _⟩
  refine (hbyte.bind (?_ : Carried _ 0 _ _ 0) (Nat.zero_le _)).weaken (Nat.le_refl 1) (Nat.le_refl 0)
  rw [Opcode.ofByte?_byte]
  exact ((params h).map (Operation.mk op.opcode)).last

section Functions

variable {layout : Layout} {tables : Tables}
  (hstrings : Fits tables.strings.length) (htypes : Fits tables.typeCount)

theorem present {part : Writer.Result} {reader : Reader α} {value : α} {size need : Nat}
    {flag : Bool} (hflag : flag = true) (h : Carried part size reader value need) :
    Carried (Writer.onlyIf flag part) size reader value need := by
  rw [Writer.onlyIf, if_pos hflag]
  exact h

theorem absent {flag : Bool} (part : Writer.Result) (value : α) (hflag : flag = false) :
    Carried (Writer.onlyIf flag part) 0 (Pure.pure value) value 0 := by
  rw [Writer.onlyIf, hflag]
  exact Carried.pure value

include hstrings htypes in
theorem native {native : Native} {indexSpace : Nat} (h : native.WellFormed tables indexSpace) :
    Carried (Writer.native tables.strings native) 1 (Reader.native tables indexSpace)
      native 0 := by
  refine ((string hstrings h.library).bind
    ((string hstrings h.symbol).bind
      ((typeIndex htypes h.type).bind
        ((functionIndex h.index h.index_fits).bind
          (Carried.pure native) ?_) ?_) ?_) ?_).weaken ?_ ?_
  all_goals omega

include hstrings in
theorem registerName {entry : RegisterName} (h : entry.WellFormed tables) :
    Carried (Writer.registerName tables.strings entry) 1 (Reader.registerName tables)
      entry 0 := by
  refine ((string hstrings h.name).bind
    ((Carried.index h.position).bind (Carried.pure entry) ?_) ?_).weaken ?_ ?_
  all_goals omega

theorem functionLines {function : FunctionDef} (h : function.Recorded layout tables) :
    CarriedIff
      (Writer.onlyIf layout.debug (.ok (LineTable.write (function.lines.getD [])))) 0
      (Reader.functionLines layout function.index function.operations.length)
      function.lines 0 (∀ entries ∈ function.lines, LineTable.Expressible 0 entries) := by
  unfold Reader.functionLines
  cases hdebug : layout.debug with
  | false =>
      rw [h.no_lines hdebug]
      exact (absent _ none rfl).always nofun
  | true =>
      obtain ⟨entries, hlines, hlength, hentries⟩ := h.lines hdebug
      rw [hlines]
      refine (CarriedIff.map (fun _ _ => Option.some.inj) (⟨_, rfl, Nat.zero_le _, ?_, ?_⟩ :
        CarriedIff _ 0 _ entries 0 (LineTable.Expressible 0 entries))).congr (by simp)
      · intro hexpressible rest offset notes _
        exact LineTable.read_write _ entries hlength.symm hentries rest offset notes hexpressible
      · intro rest offset notes after _ hrun
        exact LineTable.expressible_of_read_write _ entries hlength.symm hentries rest offset notes
          hrun

include hstrings in
theorem functionNames {function : FunctionDef} (h : function.Recorded layout tables) :
    Carried
      (Writer.onlyIf (layout.debug && Image.hasRegisterNames layout.version)
        (Writer.join [
          Writer.unsignedIndex function.names.length,
          Writer.each (Writer.registerName tables.strings) function.names])) 0
      (Reader.functionNames layout tables) function.names 0 := by
  unfold Reader.functionNames
  cases hflag : layout.debug && Image.hasRegisterNames layout.version with
  | false =>
      rw [h.no_names hflag]
      exact absent _ [] rfl
  | true =>
      have hlist := times function.names fun entry hentry =>
        registerName hstrings (h.names entry hentry)
      refine present rfl (((count h.nameCount).bind hlist.last ?_).weaken ?_ ?_)
      all_goals omega

include hstrings htypes in
theorem functionDef {image : Image} {function : FunctionDef} (hlayout : image.layout = layout)
    (htables : image.tables = tables) (h : function.Recorded layout tables) :
    CarriedIff (Writer.functionDef image function) 1 (Reader.functionDef layout tables)
      function 0 (∀ entries ∈ function.lines, LineTable.Expressible 0 entries) := by
  subst hlayout htables
  have hregisters := times function.registers fun register hregister =>
    typeIndex htypes (h.registers register hregister)
  have hoperations := times function.operations fun op hop => operation (h.operations op hop)
  refine (((typeIndex htypes h.type).bindIff
    ((functionIndex h.index h.index_fits).bindIff
      ((count h.registerCount).bindIff
        ((count h.operationCount).bindIff
          (hregisters.bindIff
            (hoperations.bindIff
              ((functionLines h).bind
                (((functionNames hstrings h).bind
                  (Carried.pure function) ?_).always trivial) ?_ ?lines) ?_) ?_) ?_) ?_) ?_)
    ?_).weaken ?_ ?_).congr (and_iff_left trivial)
  case lines =>
    exact fun found => .bind fun names => .pure fun hsame => congrArg FunctionDef.lines hsame
  all_goals omega

end Functions

theorem constant {constant : Constant} (h : constant.WellFormed) :
    Carried (Writer.constant constant) 1 Reader.constant constant 0 := by
  have hfields := times constant.fields fun field hfield => unsignedIndex (h.fields field hfield)
  refine ((unsignedIndex h.global).bind
    ((count h.count).bind
      (hfields.bind (Carried.pure constant) ?_) ?_) ?_).weaken ?_ ?_
  all_goals omega

/-! ## The image -/

theorem header {image : Image} (h : image.Recorded image.tables) :
    Carried (.ok [0x48, 0x4C, 0x42, image.version]) 4 Reader.header image.version 0 := by
  refine ⟨_, rfl, Nat.le_refl 4, ?_⟩
  intro rest offset notes _
  have hmagic : Reader.bytes 3 ⟨[0x48, 0x4C, 0x42, image.version] ++ rest, offset, notes⟩ =
      .ok Reader.magic ⟨image.version :: rest, offset + 3, notes⟩ :=
    Reader.takes_bytes Reader.magic (image.version :: rest) offset notes (Nat.zero_le _)
  have hversion : Reader.byte ⟨image.version :: rest, offset + 3, notes⟩ =
    .ok image.version ⟨rest, offset + 4, notes⟩ := rfl
  rw [Reader.header, Reader.bind_ok _ hmagic, if_pos rfl, Reader.bind_ok _ hversion,
    if_pos ⟨h.minVersion, h.maxVersion⟩]
  rfl

end Carried

namespace Image

def counts (image : Image) : Counts where
  ints := image.ints.length
  floats := image.floats.length
  strings := image.strings.length
  blobs := image.blobStarts.length
  types := image.types.length
  globals := image.globals.length
  natives := image.natives.length
  functions := image.functions.length
  constants := image.constants.length

def countParts (image : Image) : List Writer.Result := [
    Writer.unsignedIndex image.ints.length,
    Writer.unsignedIndex image.floats.length,
    Writer.unsignedIndex image.strings.length,
    Writer.onlyIf (Image.hasBlobs image.version) (Writer.unsignedIndex image.blobStarts.length),
    Writer.unsignedIndex image.types.length,
    Writer.unsignedIndex image.globals.length,
    Writer.unsignedIndex image.natives.length,
    Writer.unsignedIndex image.functions.length,
    Writer.onlyIf (Image.hasConstants image.version) (Writer.unsignedIndex image.constants.length)]

def announced (image : Image) : Nat :=
  image.ints.length + image.floats.length + image.strings.length + image.blobStarts.length
    + image.types.length + image.globals.length + image.natives.length + image.functions.length
    + image.constants.length

theorem encode_eq (image : Image) :
    image.encode = Writer.join [
      .ok [0x48, 0x4C, 0x42, image.version],
      Writer.unsignedIndex image.flags,
      Writer.join image.countParts,
      Writer.unsignedIndex image.entrypoint,
      .ok (image.ints.flatMap Writer.int32),
      .ok (image.floats.flatMap Writer.binary64),
      Writer.stringPool image.strings,
      Writer.onlyIf (hasBlobs image.version) (Writer.blobPool image.bytes image.blobStarts),
      Writer.onlyIf image.hasDebug
        (Writer.join [
          Writer.unsignedIndex image.debugFiles.length, Writer.stringPool image.debugFiles]),
      Writer.each (Writer.sourceType image.strings) image.types,
      Writer.each Writer.unsignedIndex image.globals,
      Writer.each (Writer.native image.strings) image.natives,
      Writer.each (Writer.functionDef image) image.functions,
      Writer.onlyIf (hasConstants image.version)
        (Writer.each Writer.constant image.constants)] := by
  have hcounts := fun after => Writer.join_nested
    [.ok [0x48, 0x4C, 0x42, image.version], Writer.unsignedIndex image.flags]
    image.countParts after
  rw [encode, Writer.header, Writer.pools, Writer.join_cons_join]
  simp only [List.cons_append, List.nil_append] at hcounts ⊢
  rw [hcounts]
  exact Writer.join_nested [_, _, _, _, _, _, _, _, _, _, _, _] [_, _, _, _, _] [_, _, _, _, _]

end Image

namespace Carried

theorem countIf {flag : Bool} {size : Nat} (hfits : flag = true → Fits size)
    (hnone : flag = false → size = 0) :
    Carried (Writer.onlyIf flag (Writer.unsignedIndex size)) 0 (Reader.countIf flag) size size := by
  unfold Reader.countIf
  cases flag with
  | true => exact present rfl ((count (hfits rfl)).weaken (Nat.zero_le 1) (Nat.le_refl size))
  | false =>
      rw [hnone rfl]
      exact absent _ 0 rfl

section Contents

variable {image : Image} (h : image.Recorded image.tables)

include h

theorem counts :
    Carried (Writer.join image.countParts) 0 (Reader.counts image.version) image.counts
      image.announced := by
  have hblobs := @countIf (Image.hasBlobs image.version) image.blobStarts.length
    (fun _ => h.blobCount) fun hflag => by rw [(h.no_blobs hflag).2, List.length_nil]
  have hconstants := @countIf (Image.hasConstants image.version) image.constants.length
    (fun _ => h.constantCount)
    fun hflag => by rw [h.no_constants hflag, List.length_nil]
  have hend : Carried (Writer.join []) 0 (Pure.pure image.counts) image.counts image.announced :=
    (Carried.pure image.counts).weaken (Nat.le_refl 0) (Nat.zero_le _)
  refine ((count h.intCount).bind
    ((count h.floatCount).bind
      ((count h.strings.count).bind
        (hblobs.bind
          ((count h.typeCount).bind
            ((count h.globalCount).bind
              ((count h.nativeCount).bind
                ((count h.functionCount).bind
                  (hconstants.bind hend ?_) ?_) ?_) ?_) ?_) ?_) ?_) ?_) ?_).weaken
    (Nat.zero_le _) (Nat.le_refl _)
  all_goals unfold Image.announced; omega

theorem blobs :
    Carried
      (Writer.onlyIf (Image.hasBlobs image.version)
        (Writer.blobPool image.bytes image.blobStarts))
      (1 * image.blobStarts.length)
      (Reader.blobs image.version image.blobStarts.length) (image.bytes, image.blobStarts) 0 := by
  unfold Reader.blobs
  cases hflag : Image.hasBlobs image.version with
  | true => exact present rfl (blobPool h.bytes h.blobStarts)
  | false =>
      obtain ⟨hbytes, hstarts⟩ := h.no_blobs hflag
      rw [hbytes, hstarts]
      exact absent _ ([], []) rfl

theorem debugFiles :
    CarriedIff
      (Writer.onlyIf image.hasDebug
        (Writer.join [
          Writer.unsignedIndex image.debugFiles.length, Writer.stringPool image.debugFiles])) 0
      (Reader.debugFiles (Image.flagsDebug image.flags)) image.debugFiles 0
      ((image.debugFiles.flatMap Writer.terminated).length < 0x80000000) := by
  unfold Reader.debugFiles
  cases hflag : image.hasDebug with
  | true =>
      have hdebug : Image.flagsDebug image.flags = true := hflag
      rw [hdebug]
      refine ((count h.debugFiles.count).bindIff (recordedPool h.debugFiles).last ?_).weaken ?_ ?_
      all_goals omega
  | false =>
      have hdebug : Image.flagsDebug image.flags = false := hflag
      rw [h.no_debugFiles hflag, hdebug]
      exact (absent _ [] rfl).always (by decide)

theorem constants :
    Carried
      (Writer.onlyIf (Image.hasConstants image.version)
        (Writer.each Writer.constant image.constants))
      (1 * image.constants.length)
      (Reader.times image.constants.length Reader.constant) image.constants 0 := by
  cases hflag : Image.hasConstants image.version with
  | true =>
      exact present rfl (times image.constants fun item hitem =>
        constant (h.constants item hitem))
  | false =>
      rw [h.no_constants hflag]
      exact absent _ [] rfl

/-- An image that was read is written, and its contents are read back exactly
when it is expressible. -/
theorem recordedContents (hquiet : image.diagnostics = []) :
    CarriedIff image.encode 0 Reader.contents image 0 image.Expressible := by
  have hend : Carried (Writer.join []) 0
      (Pure.pure { image with
        functionTable := Image.buildTable image.functions image.natives, diagnostics := [] })
      image 0 := by
    rw [← h.functionTable, ← hquiet]
    exact Carried.pure image
  have hstrings : Fits image.tables.strings.length := h.strings.count
  have htypes : Fits image.tables.typeCount := h.typeCount
  have hints := @words _ Writer.int32 Reader.int32 image.ints
    (fun item => by simp [Writer.int32])
    fun item hitem => Reader.takes_int32 (h.ints item hitem).1 (h.ints item hitem).2
  have hfloats := @words _ Writer.binary64 Reader.binary64 image.floats
    (fun item => by simp [Writer.binary64]) fun item _ => Reader.takes_binary64 item
  have hsources := times image.types fun item hitem =>
    sourceType hstrings htypes (h.types item hitem)
  have hglobals := times image.globals fun item hitem =>
    typeIndex htypes (h.globals item hitem)
  have hnatives := times image.natives fun item hitem =>
    native hstrings htypes (h.natives item hitem)
  have hfunctions := CarriedIff.times image.functions fun item hitem =>
    functionDef hstrings htypes rfl rfl (h.functions item hitem)
  have hannounced : image.announced =
      image.ints.length + image.floats.length + image.strings.length + image.blobStarts.length
        + image.types.length + image.globals.length + image.natives.length
        + image.functions.length + image.constants.length := rfl
  have hexpressible : (image.strings.flatMap Writer.terminated).length < 0x80000000 ∧
      (image.debugFiles.flatMap Writer.terminated).length < 0x80000000 ∧
      (∀ function ∈ image.functions, ∀ entries ∈ function.lines,
        LineTable.Expressible 0 entries) ∧ True ↔ image.Expressible := by
    constructor
    · rintro ⟨hpool, hfiles, hlines, -⟩
      exact ⟨hlines, hpool, hfiles⟩
    · rintro ⟨hlines, hpool, hfiles⟩
      exact ⟨hpool, hfiles, hlines, trivial⟩
  rw [Image.encode_eq]
  refine (((header h).bindIff
    ((unsignedIndex h.flags).bindIff
      ((counts h).bindIff
        ((unsignedIndex h.entrypoint).bindIff
          (hints.bindIff
            (hfloats.bindIff
              ((recordedPool h.strings).bind
                ((blobs h).bindIff
                  ((debugFiles h).bind
                    (hsources.bindIff
                      (hglobals.bindIff
                        (hnatives.bindIff
                          (hfunctions.bind
                            (((constants h).bind hend ?_).always trivial)
                            ?_ ?functions) ?_) ?_) ?_) ?_ ?files) ?_) ?_ ?strings)
                ?_) ?_) ?_) ?_) ?_) ?_).weaken
    (Nat.zero_le _) (Nat.le_refl 0)).congr hexpressible
  -- what was read of the parts with a limit shows in the image
  case strings =>
    exact fun found => .bind fun _ => .bind fun _ => .bind fun _ => .bind fun _ => .bind fun _ =>
      .bind fun _ => .bind fun _ => .pure fun hsame => congrArg Image.strings hsame
  case files =>
    exact fun found => .bind fun _ => .bind fun _ => .bind fun _ => .bind fun _ => .bind fun _ =>
      .pure fun hsame => congrArg Image.debugFiles hsame
  case functions => exact fun found => .bind fun _ => .pure fun hsame => congrArg Image.functions hsame
  -- the parts after the header are at least as long as what the header announces
  all_goals omega

end Contents

theorem contents {image : Image} (h : image.WellFormed) :
    Carried image.encode 0 Reader.contents image 0 :=
  (recordedContents h.recorded h.diagnostics).carried h.expressible

end Carried

namespace Image

/-- A well-formed image can be written, and the bytes are read back as that
image, without a remark. -/
theorem decode_encode (image : Image) (h : image.WellFormed) :
    ∃ bytes, image.encode = .ok bytes ∧ decode bytes = .ok image := by
  obtain ⟨bytes, hencode, -, htakes⟩ := Carried.contents h
  refine ⟨bytes, hencode, ?_⟩
  have hcontents := htakes [] 0 [] (Nat.zero_le _)
  rw [List.append_nil] at hcontents
  have hentrypoint : Reader.checkEntrypoint image.functionTable image.entrypoint = pure () := by
    have hsome : (image.functionTable.resolve? image.entrypoint).isNone = false := by
      rw [Option.isNone_eq_false_iff]
      exact h.entrypoint_resolves
    rw [Reader.checkEntrypoint, hsome]
    rfl
  have hread : Reader.image { rest := bytes } =
      .ok { image with diagnostics := [] } ⟨[], 0 + bytes.length, []⟩ := by
    rw [Reader.image, Reader.bind_ok _ hcontents, hentrypoint]
    rfl
  rw [decode, hread, ← h.diagnostics]

/-- An image with every kind of part, a repeated and an empty name, a name that
holds a zero byte and a float that is not a number. -/
def specimen : Image where
  version := 5
  flags := 1
  ints := [7, -0x80000000]
  floats := [⟨0x7FF8000000000001⟩]
  strings := ["main", "", "a\x00b", "main"]
  bytes := [0, 255, 1]
  blobStarts := [2, 0]
  debugFiles := ["Main.hx", ""]
  types := [
    .void, .i32, .func ⟨[1, 1], 0⟩, .virtual [⟨"", 1⟩],
    .obj ⟨"main", some 5, some 0, [⟨"a\x00b", 4⟩], [⟨"", 0, -1⟩], [⟨0, 1⟩]⟩,
    .struct ⟨"", none, none, [], [], []⟩, .enum ⟨"main", none, [⟨"", [1, 4]⟩]⟩, .abstract "",
    .null 1]
  globals := [4, 8]
  natives := [⟨1, "main", "a\x00b", 2⟩]
  functions := [{
    index := 0, type := 2, registers := [1, 1]
    operations := [⟨.switch, [0, 1, 0, 2]⟩, ⟨.callN, [1, 0, 0, 1]⟩, ⟨.jAlways, [-3]⟩]
    lines := some [⟨0, 3⟩, ⟨1, 3⟩, ⟨0, 70000⟩]
    names := [⟨"main", -1⟩] }]
  constants := [⟨0, [1]⟩]
  entrypoint := 1
  functionTable := FunctionTable.build [0] [1]

theorem specimen_wellFormed : specimen.WellFormed where
  minVersion := by decide
  maxVersion := by decide
  flags := by decide
  intCount := by decide
  ints := by decide
  floatCount := by decide
  strings := ⟨by decide, by decide, by simp [specimen, Text.length_terminated]; decide⟩
  blobs := fun _ => by decide
  no_blobs := by decide
  debugFiles := fun _ => ⟨by decide, by decide, by simp [specimen, Text.length_terminated]; decide⟩
  no_debugFiles := by decide
  typeCount := by decide
  types := by
    have hfield : Field.WellFormed specimen.tables ⟨"", 1⟩ := ⟨by decide, by decide⟩
    have hother : Field.WellFormed specimen.tables ⟨"a\x00b", 4⟩ := ⟨by decide, by decide⟩
    have hprototype : Prototype.WellFormed specimen.tables ⟨"", 0, -1⟩ :=
      ⟨by decide, by decide, by decide⟩
    have hbinding : Binding.WellFormed ⟨0, 1⟩ := ⟨by decide, by decide⟩
    have hconstruct : EnumConstruct.WellFormed specimen.tables ⟨"", [1, 4]⟩ :=
      ⟨by decide, by decide, by decide⟩
    simp only [specimen, List.forall_mem_cons, SourceType.WellFormed, true_and]
    refine ⟨⟨by decide, by decide, by decide⟩, ⟨by decide, hfield, nofun⟩,
      ⟨by decide, by decide, by decide, by decide, by decide, by decide, ?_, ?_, ?_⟩,
      ⟨by decide, by decide, by decide, by decide, by decide, by decide, nofun, nofun, nofun⟩,
      ⟨by decide, by decide, by decide, ?_⟩, by decide, by decide, nofun⟩
    · exact List.forall_mem_singleton.mpr hother
    · exact List.forall_mem_singleton.mpr hprototype
    · exact List.forall_mem_singleton.mpr hbinding
    · exact List.forall_mem_singleton.mpr hconstruct
  globalCount := by decide
  globals := by decide
  nativeCount := by decide
  natives := List.forall_mem_singleton.mpr
    ⟨by decide, by decide, by decide, by decide, by decide⟩
  functionCount := by decide
  functions := by
    refine List.forall_mem_singleton.mpr ⟨by decide, by decide, by decide, by decide, by decide,
      by decide, ?_, fun _ => ⟨_, rfl, rfl, ?_⟩, by decide, fun _ _ => ⟨by decide, ?_⟩, by decide⟩
    · simp only [List.forall_mem_cons]
      exact ⟨⟨by decide, by decide, by decide⟩, ⟨by decide, by decide, by decide⟩,
        ⟨by decide, by decide⟩, nofun⟩
    · simp only [List.forall_mem_cons]
      exact ⟨⟨by decide, by decide, by decide⟩, ⟨by decide, by decide, by decide⟩,
        ⟨by decide, by decide, by decide⟩, nofun⟩
    · exact List.forall_mem_singleton.mpr ⟨by decide, by decide⟩
  constants := fun _ => ⟨by decide,
    List.forall_mem_singleton.mpr ⟨by decide, by decide, by decide⟩⟩
  no_constants := by decide
  entrypoint := by decide
  entrypoint_resolves := by decide
  functionTable := by decide
  diagnostics := rfl

theorem decode_encode_specimen :
    specimen.WellFormed ∧ ∃ bytes, specimen.encode = .ok bytes ∧ decode bytes = .ok specimen :=
  ⟨specimen_wellFormed, decode_encode specimen specimen_wellFormed⟩

end Image

end BytecodeLowering
