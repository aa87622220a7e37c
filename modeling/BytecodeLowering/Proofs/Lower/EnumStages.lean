import BytecodeLowering.Proofs.Lower.Anchors
import BytecodeLowering.Proofs.Lower.Separation
import BytecodeLowering.Proofs.Target.EnumClasses

/-!
# The classes of an enum, pass by pass

The first pass makes the class of an enum and one below it for each construct,
the second gives the constructs their fields, and the third gives the
constructors their bodies.
-/

namespace BytecodeLowering

namespace EnumLayout

variable {image : Image} {index : TypeIndex} {variants : EnumType} {before after resolved : Registry}
  {declaration : Declaration} {shape : EnumShape} {result : Unit}

/-- The declaration of an enum with the classes made for it, at any stage. -/
structure Standing (index : TypeIndex) (variants : EnumType) (registry : Registry)
    (declaration : Declaration) (shape : EnumShape) : Prop where
  found : registry.declaration? index = some declaration
  shape_eq : declaration.shape = .enum shape
  names : shape.constructs.map (·.name) = variants.constructs.map (·.name)
  root : (registry.target.type? declaration.decl).map (·.base) = some none
  base : ∀ construct ∈ shape.constructs,
    (registry.target.type? construct.decl).map (·.base) = some (some declaration.decl)
  signature : ∀ construct ∈ shape.constructs,
    (registry.target.method? construct.constructor).map (·.signature)
      = some ⟨construct.fields.map (·.type), .void⟩

structure Filled (image : Image) (index : TypeIndex) (variants : EnumType) (registry : Registry)
    (declaration : Declaration) (shape : EnumShape) : Prop
    extends Standing index variants registry declaration shape where
  fields : ∀ (k : Nat) source construct, variants.constructs[k]? = some source →
    shape.constructs[k]? = some construct →
      constructFields image construct.decl source.params registry = .ok construct.fields

structure Coded (image : Image) (index : TypeIndex) (variants : EnumType) (registry : Registry)
    (declaration : Declaration) (shape : EnumShape) : Prop
    extends Filled image index variants registry declaration shape where
  bodies : ∀ (k : Nat) construct, shape.constructs[k]? = some construct →
    construct.fields.length ≤ 65535 ∧
      (registry.target.method? construct.constructor).map (·.body)
        = some (constructorCode shape.indexField k construct.fields)

/-! ## What stays -/

section Keeping

variable (hlinked : before.Linked) (huntouched : before.Untouched index after)

include hlinked huntouched

theorem Standing.constructor_same (h : Standing index variants before declaration shape)
    {construct : ConstructShape} (hconstruct : construct ∈ shape.constructs) :
    after.target.method? construct.constructor = before.target.method? construct.constructor := by
  refine huntouched.codes _ (hlinked.constructors index declaration h.found _ ?_)
  rw [h.shape_eq]
  exact List.mem_map_of_mem hconstruct

theorem Standing.keep (h : Standing index variants before declaration shape) :
    Standing index variants after declaration shape where
  found := huntouched.declaration.trans h.found
  shape_eq := h.shape_eq
  names := h.names
  root := by
    rw [huntouched.classes _ (hlinked.decl index declaration h.found)]
    exact h.root
  base construct hconstruct := by
    rw [huntouched.classes _ (hlinked.decls index declaration h.found _ ?_)]
    · exact h.base construct hconstruct
    · rw [h.shape_eq]
      exact List.mem_map_of_mem hconstruct
  signature construct hconstruct := by
    rw [h.constructor_same hlinked huntouched hconstruct]
    exact h.signature construct hconstruct

theorem Filled.keep (hdecls : after.decl? = before.decl?)
    (h : Filled image index variants before declaration shape) :
    Filled image index variants after declaration shape where
  toStanding := h.toStanding.keep hlinked huntouched
  fields k source construct hsource hconstruct := by
    rw [constructFields, Registry.mapType_same hdecls]
    exact h.fields k source construct hsource hconstruct

theorem Coded.keep (hdecls : after.decl? = before.decl?)
    (h : Coded image index variants before declaration shape) :
    Coded image index variants after declaration shape where
  toFilled := h.toFilled.keep hlinked huntouched hdecls
  bodies k construct hconstruct := by
    rw [h.toStanding.constructor_same hlinked huntouched (List.mem_of_getElem? hconstruct)]
    exact h.bodies k construct hconstruct

end Keeping

/-! ## The first pass -/

theorem base_resolveConstruct {name : String} {base : TypeId} {construct : EnumConstruct}
    {made : ConstructShape}
    (h : resolveConstruct index name base construct before = .ok made after) :
    made.name = construct.name ∧
      (after.target.type? made.decl).map (·.base) = some (some base) := by
  obtain ⟨decl, first, htype, h⟩ := Lowering.bind_ok h
  cases htype
  obtain ⟨constructor, second, hmethod, h⟩ := Lowering.bind_ok h
  cases hmethod
  obtain ⟨_, third, hlink, h⟩ := Lowering.bind_ok h
  cases hlink
  cases h
  exact ⟨rfl, by simp [TargetModule.type?, TargetModule.modifyType, TargetModule.modifyMethod]⟩

theorem bases_resolveConstructs {name : String} {base : TypeId} {constructs : List EnumConstruct}
    {made : List ConstructShape}
    (h : constructs.mapM (resolveConstruct index name base) before = .ok made after) :
    made.map (·.name) = constructs.map (·.name) ∧ ∀ construct ∈ made,
      (after.target.type? construct.decl).map (·.base) = some (some base) := by
  induction constructs generalizing before made with
  | nil =>
      cases h
      exact ⟨rfl, nofun⟩
  | cons construct constructs ih =>
      rw [List.mapM_cons] at h
      obtain ⟨first, middle, hfirst, h⟩ := Lowering.bind_ok h
      obtain ⟨rest, last, hrest, h⟩ := Lowering.bind_ok h
      cases h
      obtain ⟨hname, hbase⟩ := base_resolveConstruct hfirst
      obtain ⟨hnames, hbases⟩ := ih hrest
      refine ⟨by rw [List.map_cons, List.map_cons, hname, hnames],
        List.forall_mem_cons.mpr ⟨?_, hbases⟩⟩
      obtain ⟨type, htype, hsame⟩ := Option.map_eq_some_iff.mp hbase
      have hplace := getElem?_of_begins (resolveConstructs_ok hrest).begins htype
      exact Option.map_eq_some_iff.mpr ⟨type, hplace, hsame⟩

theorem resolve_standing (h : resolve index variants before = .ok result after) :
    ∃ declaration shape, Standing index variants after declaration shape ∧
      ∀ construct ∈ shape.constructs, construct.fields = [] := by
  obtain ⟨decl, first, htype, h⟩ := Lowering.bind_ok h
  cases htype
  obtain ⟨_, second, hlink, h⟩ := Lowering.bind_ok h
  have hroot : (second.target.type? before.target.types.length).map (·.base) = some none := by
    cases hlink
    simp [TargetModule.type?, TargetModule.modifyType]
  obtain ⟨constructs, third, hconstructs, h⟩ := Lowering.bind_ok h
  have hmade := resolveConstructs_ok hconstructs
  obtain ⟨hnames, hbases⟩ := bases_resolveConstructs hconstructs
  obtain ⟨hvacant, rfl⟩ := register_ok h
  have hlength := (List.getElem?_eq_some_iff.mp hvacant).1
  let shape : EnumShape := ⟨variants.name, ⟨before.target.types.length, 0⟩, constructs⟩
  refine ⟨⟨.resolved, index, before.target.types.length, .enum shape⟩, shape,
    ⟨?_, rfl, hnames, ?_, hbases, ?_⟩,
    fun construct hconstruct => (hmade.constructors construct hconstruct).1⟩
  · simp [Registry.declaration?, hlength, shape]
  · obtain ⟨type, htype, hsame⟩ := Option.map_eq_some_iff.mp hroot
    exact Option.map_eq_some_iff.mpr ⟨type, getElem?_of_begins hmade.begins htype, hsame⟩
  · intro construct hconstruct
    obtain ⟨hempty, -, hsignature, -⟩ := hmade.constructors construct hconstruct
    rw [hempty]
    exact hsignature

/-! ## The second pass -/

theorem kept_withFields (pairs : List ((EnumConstruct × ConstructShape) × List FlatField))
    (module : TargetModule) :
    let filled := pairs.foldl (fun module entry => withFields module entry.1.2 entry.2) module
    (∀ id, (filled.type? id).map (·.base) = (module.type? id).map (·.base)) ∧
      ∀ id, (filled.method? id).map (·.signature.ret) = (module.method? id).map (·.signature.ret) := by
  induction pairs generalizing module with
  | nil => exact ⟨fun _ => rfl, fun _ => rfl⟩
  | cons entry pairs ih =>
      obtain ⟨hbases, hresults⟩ := ih (withFields module entry.1.2 entry.2)
      refine ⟨fun id => (hbases id).trans ?_, fun id => (hresults id).trans ?_⟩
      · have htype := module.type?_modifyType entry.1.2.decl id fun type =>
          { type with fields := entry.2.map fun field => ⟨field.name, field.type⟩ }
        refine (congrArg (Option.map TypeDecl.base) htype).trans ?_
        split
        · rw [Option.map_map]
          rfl
        · rfl
      · rw [withFields, TargetModule.method?_modifyMethod]
        split
        · rw [Option.map_map]
          rfl
        · rfl

theorem getElem?_setFields {constructs : List ConstructShape} {fields : List (List FlatField)}
    {k : Nat} {construct : ConstructShape} (hlength : fields.length = constructs.length)
    (h : (setFields constructs fields)[k]? = some construct) :
    ∃ made flat, constructs[k]? = some made ∧ fields[k]? = some flat ∧
      construct = { made with fields := flat } := by
  rw [setFields, List.getElem?_mapIdx] at h
  obtain ⟨made, hmade, rfl⟩ := Option.map_eq_some_iff.mp h
  have hplace := (List.getElem?_eq_some_iff.mp hmade).1
  have hflat := List.getElem?_eq_getElem (hlength ▸ hplace : k < fields.length)
  exact ⟨made, _, hmade, hflat, by rw [hflat]⟩

section Defined

variable {declarations : List (Option Declaration)}
  {pairs : List (EnumConstruct × ConstructShape)} {fields : List (List FlatField)}
  {module defined : TargetModule}

theorem DefinedConstructs.base (h : DefinedConstructs image declarations pairs fields module defined)
    (id : TypeId) : (defined.type? id).map (·.base) = (module.type? id).map (·.base) := by
  rw [h.built]
  exact (kept_withFields (pairs.zip fields) module).1 id

theorem DefinedConstructs.signature
    (h : DefinedConstructs image declarations pairs fields module defined)
    (hdistinct : (pairs.map (·.2.constructor)).Nodup) {k : Nat}
    {pair : EnumConstruct × ConstructShape} {flat : List FlatField} {params : List TargetType}
    {ret : TargetType} (hpair : pairs[k]? = some pair) (hflat : fields[k]? = some flat)
    (hsignature : (module.method? pair.2.constructor).map (·.signature) = some ⟨params, ret⟩) :
    (defined.method? pair.2.constructor).map (·.signature) = some ⟨flat.map (·.type), ret⟩ := by
  obtain ⟨method, hmethod, hsame⟩ := Option.map_eq_some_iff.mp hsignature
  obtain ⟨filled, hfilled, hparams⟩ := Option.map_eq_some_iff.mp
    (h.params hdistinct k pair flat hpair hflat (Option.isSome_iff_exists.mpr ⟨method, hmethod⟩))
  have hresult := (kept_withFields (pairs.zip fields) module).2 pair.2.constructor
  rw [← h.built, hfilled, hmethod, Option.map_some, Option.map_some, hsame] at hresult
  have hret : filled.signature.ret = ret := Option.some.inj hresult
  rw [hfilled, Option.map_some, ← hparams, ← hret]

end Defined

theorem define_filled (hlinked : before.Linked)
    (hstanding : Standing index variants before declaration shape)
    (hempty : ∀ construct ∈ shape.constructs, construct.fields = [])
    (h : define image index variants before = .ok result after) :
    ∃ declaration shape, Filled image index variants after declaration shape := by
  obtain ⟨old, found, fields, hshape, hdefined, hchanges⟩ := define_ok h
  obtain rfl : old = declaration := Option.some.inj (hchanges.found.symm.trans hstanding.found)
  obtain rfl : found = shape := Shape.enum.inj (hshape.symm.trans hstanding.shape_eq)
  have hclass (id : TypeId) : (after.target.type? id).map (·.base)
      = (before.target.type? id).map (·.base) := by
    rw [hdefined.base, TargetModule.type?_modifyType]
    split
    · rw [Option.map_map]
      rfl
    · rfl
  have hcount : found.constructs.length = variants.constructs.length := by
    simpa using congrArg List.length hstanding.names
  have hlength : fields.length = found.constructs.length := by
    rw [hdefined.length, List.length_zip, hcount, Nat.min_self]
  have hcodes : ((variants.constructs.zip found.constructs).map (·.2.constructor)).Nodup := by
    have hdistinct := hlinked.distinct index old hstanding.found
    rw [hshape] at hdistinct
    rw [map_zip_snd ConstructShape.constructor]
    exact hdistinct.sublist (List.take_sublist ..)
  refine ⟨_, _, ⟨hchanges.changed, rfl, ?_, ?_, ?_, ?_⟩, ?_⟩
  · exact (map_setFields (fun _ _ => rfl) ..).trans hstanding.names
  · rw [hclass]
    exact hstanding.root
  · intro construct hconstruct
    obtain ⟨k, hk⟩ := List.mem_iff_getElem?.mp hconstruct
    obtain ⟨made, flat, hmade, -, rfl⟩ := getElem?_setFields hlength hk
    rw [hclass]
    exact hstanding.base made (List.mem_of_getElem? hmade)
  · intro construct hconstruct
    obtain ⟨k, hk⟩ := List.mem_iff_getElem?.mp hconstruct
    obtain ⟨made, flat, hmade, hflat, rfl⟩ := getElem?_setFields hlength hk
    have hsource := List.getElem?_eq_getElem
      (hcount ▸ (List.getElem?_eq_some_iff.mp hmade).1 : k < variants.constructs.length)
    have hzip : (variants.constructs.zip found.constructs)[k]? = some (_, made) :=
      List.getElem?_zip_eq_some.mpr ⟨hsource, hmade⟩
    exact hdefined.signature hcodes hzip hflat
      (hstanding.signature made (List.mem_of_getElem? hmade))
  · intro k source construct hsource hconstruct
    obtain ⟨made, flat, hmade, hflat, rfl⟩ := getElem?_setFields hlength hconstruct
    obtain ⟨pair, registry, hpair, htypes, hmapped⟩ := hdefined.mapped k flat hflat
    have hzip : (variants.constructs.zip found.constructs)[k]? = some (source, made) :=
      List.getElem?_zip_eq_some.mpr ⟨hsource, hmade⟩
    rw [hzip] at hpair
    cases hpair
    have hdecls : after.decl? = registry.decl? := by
      have hupdated : registry.decl?
          = (before.update index fun declaration => { declaration with stage := .defined }).decl? := by
        funext other
        simp only [Registry.decl?, Registry.declaration?, htypes]
      rw [hchanges.decl?, hupdated, before.decl?_update_stage]
    rw [constructFields, Registry.mapType_same hdecls]
    exact hmapped

/-! ## The third pass -/

def FirstCoded (shape : EnumShape) (count : Nat) (module : TargetModule) : Prop :=
  ∀ k < count, ∀ construct, shape.constructs[k]? = some construct →
    construct.fields.length ≤ 65535 ∧
      (module.method? construct.constructor).map (·.body)
        = some (constructorCode shape.indexField k construct.fields)

theorem compileConstruct_coded (hdistinct : (shape.constructs.map (·.constructor)).Nodup) {k : Nat}
    {construct : ConstructShape} (hconstruct : shape.constructs[k]? = some construct)
    (hcoded : FirstCoded shape k before.target)
    (h : compileConstruct shape (construct, k) before = .ok result after) :
    FirstCoded shape (k + 1) after.target := by
  obtain ⟨hcount, hplace, rfl⟩ := compileConstruct_steps h
  intro j hj other hother
  rw [TargetModule.method?_modifyMethod]
  rcases Nat.lt_succ_iff_lt_or_eq.mp hj with hearlier | rfl
  · rw [if_neg ?_]
    · exact hcoded j hearlier other hother
    · intro hsame
      have hplaces : (shape.constructs.map (·.constructor))[k]?
          = (shape.constructs.map (·.constructor))[j]? := by
        rw [List.getElem?_map, List.getElem?_map, hconstruct, hother, Option.map_some,
          Option.map_some, hsame]
      have hlength := (List.getElem?_eq_some_iff.mp hconstruct).1
      have hjk := (List.getElem?_inj (by simpa using hlength) hdistinct).mp hplaces
      omega
  · obtain rfl := Option.some.inj (hconstruct.symm.trans hother)
    refine ⟨hcount, ?_⟩
    rw [if_pos rfl, TargetModule.method?, List.getElem?_eq_getElem hplace]
    rfl

theorem compile_coded (hlinked : before.Linked)
    (hfilled : Filled image index variants before declaration shape)
    (h : compile index before = .ok result after) :
    ∃ declaration, Coded image index variants after declaration shape := by
  obtain ⟨old, hrecodes, hchanges⟩ := compile_ok h
  obtain rfl : old = declaration := Option.some.inj (hchanges.found.symm.trans hfilled.found)
  have hdistinct := hlinked.distinct index old hfilled.found
  rw [hfilled.shape_eq] at hdistinct
  have hcoded : FirstCoded shape shape.constructs.length after.target := by
    obtain ⟨found, other, hfound, hshape, h⟩ := compile_steps h
    obtain rfl : found = old := Option.some.inj (hfound.symm.trans hfilled.found)
    obtain rfl : shape = other := Shape.enum.inj (hfilled.shape_eq.symm.trans hshape)
    rw [← Nat.zero_add shape.constructs.length]
    refine Lowering.forM_zipIdx (fun count registry => FirstCoded shape count registry.target) ?_
      nofun h
    intro k construct hconstruct first _ second hheld hstep
    rw [Nat.zero_add] at hheld hstep ⊢
    exact compileConstruct_coded hdistinct hconstruct hheld hstep
  refine ⟨_, ⟨⟨⟨hchanges.changed, hfilled.shape_eq, hfilled.names, ?_, ?_, ?_⟩, ?_⟩, ?_⟩⟩
  · rw [hrecodes.type?]
    exact hfilled.root
  · intro construct hconstruct
    rw [hrecodes.type?]
    exact hfilled.base construct hconstruct
  · intro construct hconstruct
    rw [hrecodes.signature?]
    exact hfilled.signature construct hconstruct
  · intro k source construct hsource hconstruct
    rw [constructFields, Registry.mapType_same hchanges.decl?]
    exact hfilled.fields k source construct hsource hconstruct
  · exact fun k construct hconstruct =>
      hcoded k (List.getElem?_eq_some_iff.mp hconstruct).1 construct hconstruct

/-! ## What a compiled enum is -/

theorem Standing.lengths (h : Standing index variants before declaration shape) :
    shape.constructs.length = variants.constructs.length := by
  simpa using congrArg List.length h.names

theorem Coded.built (h : Coded image index variants before declaration shape)
    (hlinked : before.Linked) (hanchors : before.Anchors declaration) :
    shape.Built before.target declaration.decl := by
  have hplaced := hanchors.placed
  have hdistinct := hlinked.distinct index declaration h.found
  have hfresh := hlinked.fresh index declaration h.found
  have hlinks := hlinked.links index declaration h.found
  have hindex := hlinked.index index declaration h.found
  have hindexed := hanchors.index
  rw [h.shape_eq] at hplaced hdistinct hfresh
  simp only [Declaration.stem, h.shape_eq, List.forall_mem_map] at hlinks
  simp only [Declaration.stem, h.shape_eq, Option.some.injEq, forall_eq'] at hindex hindexed
  refine ⟨hindex, hindex ▸ hindexed, h.root, h.base, hfresh, decls_nodup hdistinct hlinks, ?_, ?_,
    ?_⟩
  · intro construct hconstruct j field hfield
    obtain ⟨k, hk⟩ := List.mem_iff_getElem?.mp hconstruct
    have hsource := List.getElem?_eq_getElem
      (h.lengths ▸ (List.getElem?_eq_some_iff.mp hk).1 : k < variants.constructs.length)
    refine ⟨places_of_mapM (h.fields k _ construct hsource hk) ?_ j field hfield,
      ((hplaced construct hconstruct).1 field (List.mem_of_getElem? hfield)).2⟩
    intro item i field hstep
    obtain ⟨type, -, hstep⟩ := ok_of_bind hstep
    cases hstep
    rfl
  · intro construct hconstruct
    obtain ⟨k, hk⟩ := List.mem_iff_getElem?.mp hconstruct
    exact (h.bodies k construct hk).1
  · intro k construct hconstruct
    have hmem := List.mem_of_getElem? hconstruct
    obtain ⟨hkind, howner, -⟩ := hlinks construct hmem
    obtain ⟨method, hmethod, hkind⟩ := Option.map_eq_some_iff.mp hkind
    have hsignature := h.signature construct hmem
    have hbody := (h.bodies k construct hconstruct).2
    rw [hmethod] at howner hsignature hbody
    exact ⟨method, hmethod, hkind, howner, Option.some.inj hsignature, Option.some.inj hbody⟩

end EnumLayout

/-! ## The passes together -/

namespace TypePasses

open EnumLayout

variable {image : Image} {index : TypeIndex} {variants : EnumType} {before after : Registry}
  {result : Unit}

theorem run_coded (hvariants : image.types[index]? = some (.enum variants))
    (hbefore : before.Linked) (h : run image before = .ok result after) :
    after.Linked ∧ ∃ declaration shape, Coded image index variants after declaration shape := by
  obtain ⟨resolved, defined, hresolve, hdefine, hcompile⟩ := run_ok h
  let stands (registry : Registry) : Prop := ∃ declaration shape,
    Standing index variants registry declaration shape ∧
      ∀ construct ∈ shape.constructs, construct.fields = []
  let fills (registry : Registry) : Prop :=
    ∃ declaration shape, Filled image index variants registry declaration shape
  let stores (registry : Registry) : Prop :=
    ∃ declaration shape, Coded image index variants registry declaration shape
  have hstands (first second : Registry) (hlinked : first.Linked)
      (huntouched : first.Untouched index second) : stands first → stands second :=
    fun ⟨declaration, shape, hheld, hempty⟩ =>
      ⟨declaration, shape, hheld.keep hlinked huntouched, hempty⟩
  have hfills (first second : Registry) (hlinked : first.Linked)
      (hapart : first.Untouched index second ∧ second.decl? = first.decl?) :
      fills first → fills second :=
    fun ⟨declaration, shape, hheld⟩ =>
      ⟨declaration, shape, hheld.keep hlinked hapart.1 hapart.2⟩
  have hresolved : resolved.Linked ∧ stands resolved := by
    refine pass_single (fun _ => True) stands (Registry.Untouched index) (fun _ _ _ _ => id) hstands
      (fun _ => .enter _) (fun _ _ _ _ _ hlinked hne hstep => resolveType_untouched hlinked hstep hne)
      hvariants ?_ ⟨hbefore, trivial⟩ hresolve
    intro first _ second hlinked _ hstep
    obtain ⟨declaration, hresolves, -⟩ := EnumLayout.resolve_ok hstep
    exact ⟨hlinked.resolves hresolves, resolve_standing hstep⟩
  have hdefined : defined.Linked ∧ fills defined := by
    refine pass_single stands fills _ (fun first second hlinked hapart =>
      hstands first second hlinked hapart.1) hfills (fun _ => ⟨.enter _, rfl⟩)
      (fun _ _ _ _ _ hlinked hne hstep => defineType_untouched hlinked hstep hne) hvariants ?_
      hresolved hdefine
    rintro first _ second hlinked ⟨declaration, shape, hstanding, hempty⟩ hstep
    obtain ⟨_, _, _, -, -, hchanges⟩ := EnumLayout.define_ok hstep
    exact ⟨hlinked.changes hchanges, define_filled hlinked hstanding hempty hstep⟩
  refine pass_single fills stores _ hfills (fun first second hlinked hapart => ?_)
    (fun _ => ⟨.enter _, rfl⟩)
    (fun _ _ _ _ _ hlinked hne hstep => compileType_untouched hlinked hstep hne) hvariants ?_
    hdefined hcompile
  · rintro ⟨declaration, shape, hheld⟩
    exact ⟨declaration, shape, hheld.keep hlinked hapart.1 hapart.2⟩
  · rintro first _ second hlinked ⟨declaration, shape, hfilled⟩ hstep
    obtain ⟨_, -, hchanges⟩ := EnumLayout.compile_ok hstep
    obtain ⟨declaration, hcoded⟩ := compile_coded hlinked hfilled hstep
    exact ⟨hlinked.changes hchanges, declaration, shape, hcoded⟩

end TypePasses

end BytecodeLowering
