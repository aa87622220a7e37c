import BytecodeLowering.Proofs.Lower.Links

/-!
# What the first pass makes

What the first pass over the type table does to one type: it makes the class and
the constructors of a declaration and enters the declaration.
-/

namespace BytecodeLowering

def Shape.constructors : Shape → List MethodId
  | .object shape => [shape.constructor]
  | .virtual shape => [shape.constructor]
  | .enum shape => shape.constructs.map (·.constructor)
  | .abstract _ => []

def Shape.decls : Shape → List TypeId
  | .enum shape => shape.constructs.map (·.decl)
  | _ => []

/-- What is fixed of a declaration when it is entered: its kind, its classes with
their constructors, and the field that holds the number of a construct. -/
structure Stem where
  kind : Nominal
  links : List (TypeId × MethodId)
  index : Option FieldRef
  deriving DecidableEq, Repr

def Declaration.stem (declaration : Declaration) : Stem :=
  match declaration.shape with
  | .object shape => ⟨.object, [(declaration.decl, shape.constructor)], none⟩
  | .virtual shape => ⟨.virtual, [(declaration.decl, shape.constructor)], none⟩
  | .enum shape => ⟨.enum, shape.constructs.map fun construct => (construct.decl, construct.constructor),
      some shape.indexField⟩
  | .abstract _ => ⟨.abstract, [], none⟩

def SourceType.nominal? : SourceType → Option Nominal
  | .obj _ | .struct _ => some .object
  | .virtual _ => some .virtual
  | .enum _ => some .enum
  | .abstract _ => some .abstract
  | _ => none

def Shape.Bare : Shape → Prop
  | .object shape => shape.base = none ∧ shape.fields = [] ∧ shape.slots = []
  | .virtual shape => shape.fields = []
  | .enum shape => ∀ construct ∈ shape.constructs, construct.fields = []
  | .abstract _ => True

/-! ## Making classes -/

theorem modify_append_length (items : List α) (item : α) (f : α → α) :
    (items ++ [item]).modify items.length f = items ++ [f item] := by
  induction items with
  | nil => rfl
  | cons first items ih => simpa using ih

theorem type?_addedType (module : TargetModule) (type : TypeDecl) (f : TypeDecl → TypeDecl) :
    ((module.types ++ [type]).modify module.types.length f)[module.types.length]?.bind
      (·.constructor) = (f type).constructor := by
  rw [modify_append_length, List.getElem?_append_right (Nat.le_refl _), Nat.sub_self]
  rfl

structure MadeType (index : TypeIndex) (before after : TargetModule) (decl : TypeId) : Prop where
  place : decl = before.types.length
  types : ∃ type : TypeDecl, type.sourceType = some index ∧ type.fields = [] ∧
    after.types = before.types ++ [type]

structure MadeClass (index : TypeIndex) (before after : TargetModule) (decl : TypeId)
    (constructor : MethodId) : Prop extends MadeType index before after decl where
  code : constructor = before.methods.length
  methods : ∃ method : MethodDecl, method.kind = .constructor ∧ method.owner = some decl ∧
    method.signature = ⟨[], .void⟩ ∧ after.methods = before.methods ++ [method]
  globals : after.globals = before.globals
  linked : (after.type? decl).bind (·.constructor) = some constructor

section Made

variable {index : TypeIndex} {before after : TargetModule} {decl : TypeId} {constructor : MethodId}

theorem MadeType.sourceOf? (h : MadeType index before after decl) :
    after.sourceOf? decl = some index := by
  obtain ⟨type, hsource, -, htypes⟩ := h.types
  simp [TargetModule.sourceOf?, TargetModule.type?, h.place, htypes, hsource]

theorem MadeType.begins (h : MadeType index before after decl) : before.types <+: after.types := by
  obtain ⟨type, -, -, htypes⟩ := h.types
  exact ⟨[type], htypes.symm⟩

theorem MadeType.fields (h : MadeType index before after decl) :
    ∀ type ∈ after.types, type ∈ before.types ∨ type.fields = [] := by
  obtain ⟨type, -, hfields, htypes⟩ := h.types
  intro other hother
  rw [htypes, List.mem_append, List.mem_singleton] at hother
  rcases hother with hother | rfl
  · exact Or.inl hother
  · exact Or.inr hfields

theorem MadeClass.keeps (h : MadeClass index before after decl constructor)
    (free : MethodId → Prop) : before.Keeps free after := by
  obtain ⟨type, -, -, htypes⟩ := h.types
  obtain ⟨method, -, -, -, hmethods⟩ := h.methods
  exact .append htypes hmethods

theorem MadeClass.method? (h : MadeClass index before after decl constructor) :
    ∃ method, after.method? constructor = some method ∧ method.kind = .constructor ∧
      method.owner = some decl ∧ method.signature = ⟨[], .void⟩ := by
  obtain ⟨method, hkind, howner, hsignature, hmethods⟩ := h.methods
  refine ⟨method, ?_, hkind, howner, hsignature⟩
  simp [TargetModule.method?, h.code, hmethods]

theorem MadeClass.links (h : MadeClass index before after decl constructor) :
    after.Links decl constructor := by
  obtain ⟨method, hmethod, hkind, howner, -⟩ := h.method?
  exact ⟨by rw [hmethod, Option.map_some, hkind], by rw [hmethod, Option.bind_some, howner],
    h.linked⟩

theorem MadeClass.builds? (h : MadeClass index before after decl constructor) :
    after.builds? constructor = some index := by
  obtain ⟨method, hmethod, hkind, howner, -⟩ := h.method?
  simp [TargetModule.builds?, hmethod, hkind, howner, h.sourceOf?]

theorem MadeClass.signature (h : MadeClass index before after decl constructor) :
    (after.method? constructor).map (·.signature) = some ⟨[], .void⟩ := by
  obtain ⟨method, hmethod, -, -, hsignature⟩ := h.method?
  rw [hmethod, Option.map_some, hsignature]

end Made

/-! ## The first pass -/

structure Registry.Resolves (index : TypeIndex) (declaration : Declaration)
    (before after : Registry) : Prop where
  vacant : before.types[index]? = some none
  types : after.types = before.types.set index (some declaration)
  functions : after.functions = before.functions
  globals : after.target.globals = before.target.globals
  target : before.target.Keeps (fun _ => False) after.target
  begins : before.target.types <+: after.target.types
  classes : ∀ type ∈ after.target.types, type ∈ before.target.types ∨ type.fields = []
  decl : after.target.sourceOf? declaration.decl = some index
  constructors : ∀ constructor ∈ declaration.shape.constructors,
    after.target.builds? constructor = some index ∧
      (after.target.method? constructor).map (·.signature) = some ⟨[], .void⟩
  distinct : declaration.shape.constructors.Nodup
  bare : declaration.shape.Bare
  decls : ∀ decl ∈ declaration.shape.decls, after.target.sourceOf? decl = some index
  links : ∀ link ∈ declaration.stem.links, after.target.Links link.1 link.2
  index : ∀ field, declaration.stem.index = some field → field = ⟨declaration.decl, 0⟩
  fresh : declaration.decl ∉ declaration.shape.decls
  stage : declaration.stage = .resolved
  pass : after.pass = before.pass

section Resolving

variable {index : TypeIndex} {before after : Registry}

theorem register_ok {declaration : Declaration} {result : Unit}
    (h : Registry.register index declaration before = .ok result after) :
    before.types[index]? = some none ∧
      { before with types := before.types.set index (some declaration) } = after := by
  obtain ⟨_, _, hget, h⟩ := Lowering.bind_ok h
  obtain ⟨rfl, rfl⟩ := Lowering.get_ok hget
  cases hfound : before.types[index]? with
  | none =>
      simp only [hfound] at h
      cases h
  | some entry =>
      cases entry with
      | some existing =>
          simp only [hfound] at h
          cases h
      | none =>
          simp only [hfound] at h
          cases h
          exact ⟨rfl, rfl⟩

theorem Registry.Resolves.of_class {made : Registry} {declaration : Declaration}
    {constructor : MethodId} {result : Unit}
    (h : Registry.register index declaration made = .ok result after)
    (hmade : MadeClass index before.target made.target declaration.decl constructor)
    (hsame : made.types = before.types ∧ made.functions = before.functions ∧
      made.pass = before.pass)
    (hconstructors : declaration.shape.constructors = [constructor])
    (hdecls : declaration.shape.decls = []) (hbare : declaration.shape.Bare)
    (hlinks : declaration.stem.links = [(declaration.decl, constructor)])
    (hindex : declaration.stem.index = none) (hstage : declaration.stage = .resolved) :
    Registry.Resolves index declaration before after := by
  obtain ⟨hvacant, rfl⟩ := register_ok h
  rw [hsame.1] at hvacant
  refine ⟨hvacant, by rw [hsame.1], hsame.2.1, hmade.globals, hmade.keeps _, hmade.begins,
    hmade.fields, hmade.sourceOf?, ?_, by simp [hconstructors], hbare, by simp [hdecls], ?_, by simp [hindex],
    by simp [hdecls], hstage, hsame.2.2⟩
  · intro other hother
    rw [hconstructors, List.mem_singleton] at hother
    subst hother
    exact ⟨hmade.builds?, hmade.signature⟩
  · rw [hlinks]
    exact List.forall_mem_singleton.mpr hmade.links

theorem class_ok {name : String} {kind : DeclKind} {result : Unit}
    {enter : TypeId → MethodId → Lowering Unit}
    (h : (do
      let decl ← Registry.addType name kind
      let constructor ← Registry.addMethod (name ++ "..ctor") .constructor
      Registry.modifyTarget fun target =>
        let target := target.modifyType decl fun type =>
          { type with sourceType := some index, constructor := some constructor }
        target.modifyMethod constructor fun method => { method with owner := some decl }
      enter decl constructor) before = .ok result after) :
    ∃ made : Registry, MadeClass index before.target made.target before.target.types.length
        before.target.methods.length ∧
      (made.types = before.types ∧ made.functions = before.functions ∧ made.pass = before.pass) ∧
      enter before.target.types.length before.target.methods.length made = .ok result after := by
  obtain ⟨decl, first, htype, h⟩ := Lowering.bind_ok h
  cases htype
  obtain ⟨constructor, second, hmethod, h⟩ := Lowering.bind_ok h
  cases hmethod
  obtain ⟨_, third, hlink, h⟩ := Lowering.bind_ok h
  refine ⟨third, ?_, ?_, h⟩
  · cases hlink
    exact ⟨⟨rfl, _, rfl, rfl, modify_append_length _ _ _⟩, rfl,
      ⟨_, rfl, rfl, rfl, modify_append_length _ _ _⟩, rfl, type?_addedType _ _ _⟩
  · cases hlink
    exact ⟨rfl, rfl, rfl⟩

theorem ObjectLayout.resolve_ok {object : ObjectType} {result : Unit}
    (h : ObjectLayout.resolve index object before = .ok result after) :
    ∃ declaration, Registry.Resolves index declaration before after ∧
      declaration.stem.kind = .object := by
  obtain ⟨made, hmade, hsame, h⟩ := class_ok h
  exact ⟨_, .of_class h hmade hsame rfl rfl ⟨rfl, rfl, rfl⟩ rfl rfl rfl, rfl⟩

theorem VirtualLayout.resolve_ok {result : Unit}
    (h : VirtualLayout.resolve index before = .ok result after) :
    ∃ declaration, Registry.Resolves index declaration before after ∧
      declaration.stem.kind = .virtual := by
  obtain ⟨made, hmade, hsame, h⟩ := class_ok h
  exact ⟨_, .of_class h hmade hsame rfl rfl rfl rfl rfl rfl, rfl⟩

theorem AbstractLayout.resolve_ok {name : String} {result : Unit}
    (h : AbstractLayout.resolve index name before = .ok result after) :
    ∃ declaration, Registry.Resolves index declaration before after ∧
      declaration.stem.kind = .abstract := by
  obtain ⟨decl, first, htype, h⟩ := Lowering.bind_ok h
  cases htype
  obtain ⟨_, second, hlink, h⟩ := Lowering.bind_ok h
  have hmade : MadeType index before.target second.target before.target.types.length := by
    cases hlink
    exact ⟨rfl, _, rfl, rfl, modify_append_length _ _ _⟩
  have hkeeps : before.target.Keeps (fun _ => False) second.target := by
    cases hlink
    exact .append (modify_append_length _ _ _) (List.append_nil _).symm
  obtain ⟨hvacant, rfl⟩ := register_ok h
  cases hlink
  exact ⟨_, ⟨hvacant, rfl, rfl, rfl, hkeeps, hmade.begins, hmade.fields, hmade.sourceOf?, nofun,
    List.nodup_nil, trivial, nofun, nofun, nofun, List.not_mem_nil, rfl, rfl⟩, rfl⟩

/-! ### Constructs of an enum -/

structure MadeConstructs (index : TypeIndex) (constructs : List ConstructShape)
    (before after : Registry) : Prop where
  types : after.types = before.types
  functions : after.functions = before.functions
  globals : after.target.globals = before.target.globals
  target : before.target.Keeps (fun _ => False) after.target
  begins : before.target.types <+: after.target.types
  classes : ∀ type ∈ after.target.types, type ∈ before.target.types ∨ type.fields = []
  count : before.target.methods.length ≤ after.target.methods.length
  constructors : ∀ construct ∈ constructs, construct.fields = [] ∧
    after.target.builds? construct.constructor = some index ∧
    (after.target.method? construct.constructor).map (·.signature) = some ⟨[], .void⟩ ∧
    before.target.methods.length ≤ construct.constructor
  distinct : (constructs.map (·.constructor)).Nodup
  decls : ∀ construct ∈ constructs, after.target.sourceOf? construct.decl = some index
  links : ∀ construct ∈ constructs, after.target.Links construct.decl construct.constructor
  later : ∀ construct ∈ constructs, before.target.types.length ≤ construct.decl
  pass : after.pass = before.pass

theorem EnumLayout.resolveConstruct_ok {name : String} {base : TypeId} {construct : EnumConstruct}
    {shape : ConstructShape}
    (h : EnumLayout.resolveConstruct index name base construct before = .ok shape after) :
    MadeClass index before.target after.target shape.decl shape.constructor ∧ shape.fields = [] ∧
      after.types = before.types ∧ after.functions = before.functions ∧
        after.pass = before.pass := by
  obtain ⟨decl, first, htype, h⟩ := Lowering.bind_ok h
  cases htype
  obtain ⟨constructor, second, hmethod, h⟩ := Lowering.bind_ok h
  cases hmethod
  obtain ⟨_, third, hlink, h⟩ := Lowering.bind_ok h
  cases hlink
  cases h
  exact ⟨⟨⟨rfl, _, rfl, rfl, modify_append_length _ _ _⟩, rfl,
    ⟨_, rfl, rfl, rfl, modify_append_length _ _ _⟩, rfl, type?_addedType _ _ _⟩, rfl, rfl, rfl, rfl⟩

theorem EnumLayout.resolveConstructs_ok {name : String} {base : TypeId}
    {constructs : List EnumConstruct} {shapes : List ConstructShape}
    (h : constructs.mapM (EnumLayout.resolveConstruct index name base) before
      = .ok shapes after) : MadeConstructs index shapes before after := by
  induction constructs generalizing before shapes with
  | nil =>
      cases h
      exact ⟨rfl, rfl, rfl, .refl _, List.prefix_rfl, fun _ h => Or.inl h, Nat.le_refl _, nofun,
        List.nodup_nil, nofun, nofun, nofun, rfl⟩
  | cons construct constructs ih =>
      rw [List.mapM_cons] at h
      obtain ⟨shape, middle, hshape, h⟩ := Lowering.bind_ok h
      obtain ⟨shapes, last, hshapes, h⟩ := Lowering.bind_ok h
      cases h
      obtain ⟨hmade, hfields, htypes, hfunctions, hpass⟩ := resolveConstruct_ok hshape
      have hrest := ih hshapes
      have hlength : middle.target.methods.length = before.target.methods.length + 1 := by
        obtain ⟨method, -, -, -, hmethods⟩ := hmade.methods
        simp [hmethods]
      have hcount := hrest.count
      have hclasses : middle.target.types.length = before.target.types.length + 1 := by
        obtain ⟨type, -, -, htypes⟩ := hmade.types
        simp [htypes]
      refine ⟨hrest.types.trans htypes, hrest.functions.trans hfunctions,
        hrest.globals.trans hmade.globals, (hmade.keeps _).trans hrest.target,
        hmade.begins.trans hrest.begins, ?_, by omega, ?_, ?_,
        List.forall_mem_cons.mpr ⟨hrest.target.sourceOf? hmade.sourceOf?, hrest.decls⟩,
        List.forall_mem_cons.mpr ⟨hrest.target.links hmade.links, hrest.links⟩,
        List.forall_mem_cons.mpr ⟨Nat.le_of_eq hmade.place.symm, ?_⟩, hrest.pass.trans hpass⟩
      · intro type htype
        rcases hrest.classes type htype with hmiddle | hnone
        · exact hmade.fields type hmiddle
        · exact Or.inr hnone
      · intro other hother
        rcases List.mem_cons.mp hother with rfl | hother
        · exact ⟨hfields, hrest.target.builds? hmade.builds?,
            hrest.target.signature id hmade.signature, Nat.le_of_eq hmade.code.symm⟩
        · obtain ⟨hnone, hbuilds, hsignature, hlow⟩ := hrest.constructors other hother
          exact ⟨hnone, hbuilds, hsignature, by omega⟩
      · rw [List.map_cons, List.nodup_cons]
        refine ⟨?_, hrest.distinct⟩
        intro hmem
        obtain ⟨other, hother, hsame⟩ := List.mem_map.mp hmem
        have hlow := (hrest.constructors other hother).2.2.2
        rw [show other.constructor = shape.constructor from hsame, hmade.code] at hlow
        omega
      · intro other hother
        have hlater := hrest.later other hother
        omega

theorem EnumLayout.resolve_ok {variants : EnumType} {result : Unit}
    (h : EnumLayout.resolve index variants before = .ok result after) :
    ∃ declaration, Registry.Resolves index declaration before after ∧
      declaration.stem.kind = .enum := by
  obtain ⟨decl, first, htype, h⟩ := Lowering.bind_ok h
  cases htype
  obtain ⟨_, second, hlink, h⟩ := Lowering.bind_ok h
  have hmade : MadeType index before.target second.target before.target.types.length := by
    cases hlink
    exact ⟨rfl, _, rfl, rfl, modify_append_length _ _ _⟩
  have hkeeps : before.target.Keeps (fun _ => False) second.target := by
    cases hlink
    exact .append (modify_append_length _ _ _) (List.append_nil _).symm
  have hsame : second.types = before.types ∧ second.functions = before.functions ∧
      second.target.globals = before.target.globals ∧ second.pass = before.pass := by
    cases hlink
    exact ⟨rfl, rfl, rfl, rfl⟩
  obtain ⟨constructs, third, hconstructs, h⟩ := Lowering.bind_ok h
  have hrest := resolveConstructs_ok hconstructs
  have htypes := hrest.types.trans hsame.1
  obtain ⟨hvacant, rfl⟩ := register_ok h
  rw [htypes] at hvacant
  refine ⟨_, ⟨hvacant, by rw [htypes], hrest.functions.trans hsame.2.1,
    hrest.globals.trans hsame.2.2.1, hkeeps.trans hrest.target, hmade.begins.trans hrest.begins,
    ?_, ?_, ?_, ?_, ?_, List.forall_mem_map.mpr hrest.decls, List.forall_mem_map.mpr hrest.links,
    ?_, ?_, rfl, hrest.pass.trans hsame.2.2.2⟩, rfl⟩
  · intro type htype
    rcases hrest.classes type htype with hearlier | hnone
    · exact hmade.fields type hearlier
    · exact Or.inr hnone
  · exact hrest.target.sourceOf? hmade.sourceOf?
  · intro constructor hconstructor
    obtain ⟨construct, hconstruct, rfl⟩ := List.mem_map.mp hconstructor
    obtain ⟨-, hbuilds, hsignature, -⟩ := hrest.constructors construct hconstruct
    exact ⟨hbuilds, hsignature⟩
  · exact hrest.distinct
  · exact fun construct hconstruct => (hrest.constructors construct hconstruct).1
  · rintro field ⟨⟩
    rfl
  · intro hmem
    obtain ⟨construct, hconstruct, hsame⟩ := List.mem_map.mp hmem
    have hlater := hrest.later construct hconstruct
    rw [show construct.decl = before.target.types.length from hsame] at hlater
    have hcount : second.target.types.length = before.target.types.length + 1 := by
      obtain ⟨type, -, -, htypes⟩ := hmade.types
      simp [htypes]
    omega

theorem TypePasses.resolveType_ok {source : SourceType} {result : Unit}
    (h : TypePasses.resolveType (source, index) before = .ok result after) :
    before = after ∨ ∃ declaration, Registry.Resolves index declaration before after ∧
      source.nominal? = some declaration.stem.kind := by
  cases source with
  | obj object | struct object =>
      obtain ⟨declaration, hresolves, hkind⟩ := ObjectLayout.resolve_ok h
      exact Or.inr ⟨declaration, hresolves, congrArg some hkind.symm⟩
  | enum variants =>
      obtain ⟨declaration, hresolves, hkind⟩ := EnumLayout.resolve_ok h
      exact Or.inr ⟨declaration, hresolves, congrArg some hkind.symm⟩
  | virtual fields =>
      obtain ⟨declaration, hresolves, hkind⟩ := VirtualLayout.resolve_ok h
      exact Or.inr ⟨declaration, hresolves, congrArg some hkind.symm⟩
  | abstract name =>
      obtain ⟨declaration, hresolves, hkind⟩ := AbstractLayout.resolve_ok h
      exact Or.inr ⟨declaration, hresolves, congrArg some hkind.symm⟩
  | _ =>
      cases h
      exact Or.inl rfl

end Resolving

end BytecodeLowering
