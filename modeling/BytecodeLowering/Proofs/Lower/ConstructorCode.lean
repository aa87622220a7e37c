import BytecodeLowering.Proofs.Lower.Anchors
import BytecodeLowering.Proofs.Lower.FlatLayout

/-!
# The code of constructors

The code of constructors refers to what exists.  The last pass over the type
table gives every constructor its code and every object type its layout; the
classes are fixed by then, so both stay valid in every later registry.
-/

namespace BytecodeLowering

/-! ## Changing one method -/

namespace TargetModule

variable {module : TargetModule}

theorem Grows.modifyMethod (id : MethodId) {f : MethodDecl → MethodDecl}
    (hkind : ∀ method, (f method).kind = method.kind)
    (howner : ∀ method, (f method).owner = method.owner) :
    module.Grows (module.modifyMethod id f) :=
  (Keeps.modifyMethod module id hkind howner trivial :
    Keeps (fun _ => True) module (module.modifyMethod id f)).grows rfl (Nat.le_refl _)

theorem Closed.modifyMethod (h : module.Closed) (id : MethodId) {f : MethodDecl → MethodDecl}
    (hid : ∀ method, (f method).id = method.id) (hkind : ∀ method, (f method).kind = method.kind)
    (howner : ∀ method, (f method).owner = method.owner)
    (hframed : ∀ method, method.Framed module.types.length →
      (f method).Framed module.types.length)
    (hcoded : ∀ method, (module.modifyMethod id f).method? id = some method →
      method.Coded (module.modifyMethod id f)) : (module.modifyMethod id f).Closed := by
  have hgrows : module.Grows (module.modifyMethod id f) := .modifyMethod id hkind howner
  refine ⟨h.toFramed.modifyMethod id hid hframed, ?_⟩
  intro method hmethod
  rcases mem_modify_cases hmethod with hearlier | ⟨earlier, hearlier, rfl⟩
  · exact (h.code method hearlier).grows hgrows
  · refine hcoded (f earlier) ?_
    rw [method?_modifyMethod, if_pos rfl, method?, hearlier, Option.map_some]

theorem Closed.setBody (h : module.Closed) (id : MethodId) {body : List Instr}
    (hcoded : ∀ method,
      (module.modifyMethod id fun method => { method with body }).method? id = some method →
        method.Coded (module.modifyMethod id fun method => { method with body })) :
    (module.modifyMethod id fun method => { method with body }).Closed :=
  h.modifyMethod id (fun _ => rfl) (fun _ => rfl) (fun _ => rfl)
    (fun _ hmethod => ⟨hmethod.owner, hmethod.signature, hmethod.locals⟩) hcoded

theorem Links.method_lt {decl : TypeId} {id : MethodId} (h : module.Links decl id) :
    id < module.methods.length := by
  obtain ⟨method, hmethod, -⟩ := Option.map_eq_some_iff.mp h.1
  exact (List.getElem?_eq_some_iff.mp hmethod).1

theorem Links.type_lt {decl : TypeId} {id : MethodId} (h : module.Links decl id) :
    decl < module.types.length := by
  obtain ⟨type, htype, -⟩ := Option.bind_eq_some_iff.mp h.2.2
  exact (List.getElem?_eq_some_iff.mp htype).1

theorem Links.argumentOffset {decl : TypeId} {id : MethodId} (h : module.Links decl id)
    {method : MethodDecl} (hmethod : module.method? id = some method) :
    method.argumentOffset = 1 := by
  have hkind := h.1
  rw [hmethod, Option.map_some] at hkind
  exact if_pos (Option.some.inj hkind)

end TargetModule

/-! ## Anchored registries -/

/-- A registry whose target is closed and whose declarations are anchored in it. -/
structure Registry.Anchored (registry : Registry) : Prop extends registry.Linked where
  closed : registry.target.Closed
  anchors : ∀ index declaration, registry.declaration? index = some declaration →
    registry.Anchors declaration

section Reserved

variable {registry : Registry} {index : TypeIndex}

theorem Registry.Linked.reserved_lt (h : registry.Linked) {function method : Nat}
    (hmethod : registry.method? function = some method) :
    method < registry.target.methods.length := by
  unfold method? at hmethod
  split at hmethod
  · cases hmethod
    obtain ⟨found, hfound, -⟩ := Option.map_eq_some_iff.mp (h.reserved function ‹_›)
    exact (List.getElem?_eq_some_iff.mp hfound).1
  · cases hmethod

theorem Registry.Linked.links_of_outline (h : registry.Linked) {outline : Outline}
    (houtline : registry.outline? index = some outline) :
    registry.target.Links outline.decl outline.constructor := by
  obtain ⟨declaration, hdeclaration, houtline⟩ := Option.bind_eq_some_iff.mp houtline
  have hlinks := h.links index declaration hdeclaration
  unfold Declaration.outline? at houtline
  unfold Declaration.stem at hlinks
  split at houtline
  · rename_i hshape
    cases houtline
    rw [hshape] at hlinks
    exact hlinks _ List.mem_cons_self
  · cases houtline

end Reserved

/-! ## Object types -/

section Object

variable {image : Image} {registry : Registry} {index : TypeIndex} {chain : List TypeIndex}
  {planned : List ObjectLayout.PlannedSlot} {shape : ObjectShape}

theorem Flattened.declares {parts : List (List FlatField)}
    {new : List (List (String × FieldRef × Signature))}
    (h : Flattened image registry index chain planned shape parts new)
    (hclasses : AllClassed image registry) {field : FlatField} (hfield : field ∈ shape.fields) :
    registry.target.Declares field.field field.type := by
  rw [h.fields] at hfield
  obtain ⟨part, hpart, hfield⟩ := List.mem_flatten.mp hfield
  obtain ⟨owner, -, hplaced⟩ := mem_of_mapM h.parts_ok hpart
  obtain ⟨object, hobject, hplaced⟩ := ok_of_bind hplaced
  obtain ⟨decl, hdecl, hplaced⟩ := ok_of_bind hplaced
  obtain ⟨⟨source, position⟩, hsource, hstep⟩ := mem_of_mapM hplaced hfield
  obtain ⟨type, htype, hstep⟩ := ok_of_bind hstep
  cases hstep
  obtain ⟨found, own, slots, hclass⟩ :=
    hclasses owner object (ObjectLayout.sourceObject_ok hobject)
  obtain rfl : found = decl := by
    rw [TypeMapping.declared_eq_ok, hclass.made] at hdecl
    exact Option.some.inj hdecl
  -- the class declares its own fields in front of the delegates of its slots
  obtain ⟨declared, hdeclared, hown⟩ :=
    getElem?_of_mapM hclass.own_ok (List.mem_zipIdx_iff_getElem?.mp hsource)
  obtain ⟨mapped, hmapped, hown⟩ := ok_of_bind hown
  cases hown
  obtain rfl : type = mapped := Except.ok.inj (htype.symm.trans hmapped)
  obtain ⟨class_, hclass_, hfields⟩ := Option.map_eq_some_iff.mp hclass.fields
  simp [TargetModule.Declares, TargetModule.field?, hclass_, hfields,
    List.getElem?_append_left (List.getElem?_eq_some_iff.mp hdeclared).1, hdeclared]

theorem ObjectLayout.Binds.refers {module : TargetModule} {method? : Nat → Option MethodId}
    {slots : List MethodSlot} {code : List Instr} {arguments locals : Nat}
    (h : Binds method? (slots.map (·.entry)) planned code)
    (hmethods : ∀ function method, method? function = some method →
      method < module.methods.length)
    (hslots : ∀ slot ∈ slots, (module.field? slot.field).isSome) (harguments : 0 < arguments) :
    ∀ instr ∈ code, instr.Refers module arguments locals ∧ ∀ id, instr ≠ .call (.method id) := by
  induction h with
  | nil => nofun
  | @cons first rest code method field hmethod hfield _ ih =>
      have hsome : (module.field? field).isSome := by
        rw [List.getElem?_map, Option.map_map] at hfield
        obtain ⟨slot, hslot, rfl⟩ := Option.map_eq_some_iff.mp hfield
        exact hslots slot (List.mem_of_getElem? hslot)
      simp only [List.cons_append, List.nil_append, List.forall_mem_cons]
      exact ⟨⟨harguments, nofun⟩, ⟨harguments, nofun⟩, ⟨hmethods _ _ hmethod, nofun⟩,
        ⟨hsome, nofun⟩, ih⟩

theorem Assembled.base_refers {outline : Outline} {base code : List Instr}
    (h : Assembled image registry index chain planned outline shape base code)
    (hlinked : registry.Linked)
    (hbase : ∀ parent, outline.base = some parent →
      (registry.target.type? outline.decl).bind (·.base) = registry.decl? parent)
    {arguments : Nat} (harguments : 0 < arguments) (locals : Nat) :
    ∀ instr ∈ base, instr.Refers registry.target arguments locals ∧
      ∀ id, instr = .call (.method id) → ∃ decl,
        (registry.target.type? outline.decl).bind (·.base) = some decl ∧
          registry.target.Links decl id := by
  have hbased := h.based
  unfold baseCode? at hbased
  cases hparent : outline.base with
  | none =>
      simp only [hparent] at hbased
      cases hbased
      nofun
  | some parent =>
      simp only [hparent] at hbased
      obtain ⟨above, habove, rfl⟩ := Option.map_eq_some_iff.mp hbased
      have hlinks := hlinked.links_of_outline habove
      simp only [List.forall_mem_cons]
      refine ⟨⟨harguments, nofun⟩, ⟨hlinks.method_lt, ?_⟩, nofun⟩
      rintro id ⟨⟩
      refine ⟨above.decl, ?_, hlinks⟩
      obtain ⟨declaration, hdeclaration, hdecl, -⟩ := Registry.declaration_of_outline habove
      rw [hbase parent hparent, Registry.decl?, hdeclaration, Option.map_some, hdecl]

theorem Assembled.coded {outline : Outline} {base code : List Instr}
    (h : Assembled image registry index chain planned outline shape base code)
    (hlinked : registry.Linked)
    (hbase : ∀ parent, outline.base = some parent →
      (registry.target.type? outline.decl).bind (·.base) = registry.decl? parent)
    (hslots : ∀ slot ∈ shape.slots, (registry.target.field? slot.field).isSome)
    {method : MethodDecl} (hmethod : registry.target.method? outline.constructor = some method) :
    method.Coded registry.target := by
  have hself := hlinked.links_of_outline h.outlined
  have hbody : method.body = base ++ code ++ [Instr.ret] := by
    have hbody := h.body
    rw [hmethod, Option.map_some] at hbody
    exact Option.some.inj hbody
  have harguments : 0 < method.signature.params.length + method.argumentOffset := by
    rw [hself.argumentOffset hmethod]
    omega
  have hcode : ∀ instr ∈ code, instr.Refers registry.target
      (method.signature.params.length + method.argumentOffset) method.locals.length ∧
      ∀ id, instr ≠ .call (.method id) :=
    h.binds.refers (fun _ _ => hlinked.reserved_lt) hslots harguments
  have hfirst := h.base_refers hlinked hbase harguments method.locals.length
  have howner : method.owner = some outline.decl := by
    have howner := hself.2.1
    rwa [hmethod, Option.bind_some] at howner
  refine ⟨?_, ?_⟩
  · rw [hbody]
    simp only [List.forall_mem_append, List.forall_mem_singleton]
    exact ⟨⟨fun instr hinstr => (hfirst instr hinstr).1, fun instr hinstr => (hcode instr hinstr).1⟩,
      trivial⟩
  · intro _ id hid
    rw [hbody, List.mem_append, List.mem_append] at hid
    rcases hid with (hid | hid) | hid
    · obtain ⟨decl, hdecl, hlinks⟩ := (hfirst _ hid).2 id rfl
      exact ⟨outline.decl, decl, howner, hdecl, hlinks⟩
    · exact absurd rfl ((hcode _ hid).2 id)
    · cases List.mem_singleton.mp hid

end Object

/-! ## Enum types -/

namespace EnumLayout

theorem constructorCode_coded {module : TargetModule} {indexField : FieldRef} {number : Nat}
    {construct : ConstructShape} (hlinks : module.Links construct.decl construct.constructor)
    (hlists : module.Lists construct.decl construct.fields)
    (htakes : module.Takes construct.constructor construct.fields.length)
    (hindex : (module.field? indexField).isSome) {method : MethodDecl}
    (hmethod : module.method? construct.constructor = some method)
    (hbody : method.body = constructorCode indexField number construct.fields) :
    method.Coded module := by
  have hparams : method.signature.params.length = construct.fields.length := by
    rw [TargetModule.Takes, hmethod, Option.map_some] at htakes
    exact Option.some.inj htakes
  have hcode : ∀ instr ∈ method.body, instr.Refers module
      (method.signature.params.length + method.argumentOffset) method.locals.length ∧
      ∀ id, instr ≠ .call (.method id) := by
    rw [hbody, hparams, hlinks.argumentOffset hmethod, constructorCode]
    simp only [List.forall_mem_append, List.forall_mem_cons]
    refine ⟨⟨⟨⟨Nat.succ_pos _, by simp⟩, ⟨trivial, by simp⟩, ⟨hindex, by simp⟩, by simp⟩, ?_⟩,
      ⟨trivial, by simp⟩, by simp⟩
    intro instr hinstr
    obtain ⟨part, hpart, hinstr⟩ := List.mem_flatten.mp hinstr
    obtain ⟨position, hposition, rfl⟩ := List.mem_mapIdx.mp hpart
    have hargument : (UInt16.ofNat (position + 1)).toNat < construct.fields.length + 1 := by
      rw [UInt16.toNat_ofNat']
      exact Nat.lt_of_le_of_lt (Nat.mod_le _ _) (Nat.succ_lt_succ hposition)
    have hfield := (hlists _ (List.getElem_mem hposition)).2.isSome
    rcases List.mem_cons.mp hinstr with rfl | hinstr
    · exact ⟨Nat.succ_pos _, by simp⟩
    · rcases List.mem_cons.mp hinstr with rfl | hinstr
      · exact ⟨hargument, by simp⟩
      · obtain rfl := List.mem_singleton.mp hinstr
        exact ⟨hfield, by simp⟩
  exact ⟨fun instr hinstr => (hcode instr hinstr).1,
    fun _ id hid => absurd rfl ((hcode _ hid).2 id)⟩

variable {index : TypeIndex} {before after : Registry}

theorem compileConstruct_closed {free : MethodId → Prop} {start : TargetModule}
    {shape : EnumShape} {construct : ConstructShape} {number : Nat} {result : Unit}
    (hlinks : start.Links construct.decl construct.constructor)
    (hlists : start.Lists construct.decl construct.fields)
    (htakes : start.Takes construct.constructor construct.fields.length)
    (hindex : (start.field? shape.indexField).isSome) (hfree : free construct.constructor)
    (hbefore : start.Recodes free before.target) (hclosed : before.target.Closed)
    (h : compileConstruct shape (construct, number) before = .ok result after) :
    start.Recodes free after.target ∧ after.target.Closed := by
  obtain ⟨-, -, rfl⟩ := compileConstruct_steps h
  have hrecodes : start.Recodes free (before.target.modifyMethod construct.constructor fun method =>
      { method with body := constructorCode shape.indexField number construct.fields }) :=
    hbefore.trans (.setBody _ _ hfree)
  refine ⟨hrecodes, hclosed.setBody _ ?_⟩
  intro method hmethod
  refine constructorCode_coded (hrecodes.toKeeps.links hlinks) (hlists.keep (hrecodes.type? _))
    (htakes.keep (hrecodes.signature? _)) ?_ hmethod
    (?_ : _ = constructorCode shape.indexField number construct.fields)
  · rw [TargetModule.field?, hrecodes.type?]
    exact hindex
  · rw [TargetModule.method?_modifyMethod, if_pos rfl] at hmethod
    obtain ⟨earlier, -, rfl⟩ := Option.map_eq_some_iff.mp hmethod
    rfl

theorem compile_closed {result : Unit} (hbefore : before.Anchored)
    (h : compile index before = .ok result after) : after.target.Closed := by
  obtain ⟨old, shape, hold, hshape, h⟩ := compile_steps h
  have hanchors := hbefore.anchors index old hold
  have hlinks := hbefore.links index old hold
  have hplaced := hanchors.placed
  have hindex := hanchors.index shape.indexField (by simp only [Declaration.stem, hshape])
  simp only [Declaration.stem, hshape, List.forall_mem_map] at hlinks
  rw [hshape] at hplaced
  refine (Lowering.forM_keeps (fun registry => before.target.Recodes (fun _ => True)
    registry.target ∧ registry.target.Closed) ?_ ?_ h).2
  · rintro ⟨construct, number⟩ hconstruct first _ second ⟨hfirst, hclosed⟩ hstep
    have hmem := List.fst_mem_of_mem_zipIdx hconstruct
    obtain ⟨hlists, htakes⟩ := hplaced construct hmem
    exact compileConstruct_closed (hlinks construct hmem) hlists htakes hindex trivial hfirst
      hclosed hstep
  · exact ⟨.refl _, hbefore.closed⟩

end EnumLayout

/-! ## The last pass -/

section Compiling

variable {image : Image} {index : TypeIndex} {before after : Registry}

theorem ObjectLayout.compile_anchors {object : ObjectType} {result : Unit}
    (hbefore : before.Anchored) (hclasses : AllClassed image before)
    (h : compile image index object before = .ok result after) {declaration : Declaration}
    (hfound : after.declaration? index = some declaration) : after.Anchors declaration := by
  obtain ⟨old, shape, laid, hshape, -, htarget, hchanges⟩ := compile_ok h
  obtain ⟨chain, planned, found, parts, new, hflat⟩ := compile_flattened hclasses h
  have hlater : AllClassed image after :=
    hclasses.keep hchanges.decl? (by rw [htarget]; rfl)
  have hold := hbefore.anchors index old hchanges.found
  rw [hchanges.changed] at hfound
  cases hfound
  have hobject := hflat.object
  simp only [Registry.object?, hchanges.changed] at hobject
  cases hobject
  refine ⟨⟨?_, ?_⟩, by rintro field ⟨⟩, ?_⟩
  · exact fun field hfield => hflat.declares hlater hfield
  · intro slot hslot
    rw [TargetModule.Declares, hflat.delegate hlater hslot]
    rfl
  · rintro outline parent ⟨⟩ hparent
    rw [htarget, hchanges.decl?]
    exact hold.base ⟨old.decl, shape.constructor, shape.base⟩ parent
      (by simp only [Declaration.outline?, hshape]) hparent

theorem Registry.Anchors.stage {registry : Registry} {declaration : Declaration}
    (h : registry.Anchors declaration) (stage : Stage) :
    registry.Anchors { declaration with stage } :=
  ⟨h.placed, h.index, h.base⟩

theorem TypePasses.compileType_anchors {source : SourceType} {result : Unit}
    (hbefore : before.Anchored) (hclasses : AllClassed image before)
    (h : compileType image (source, index) before = .ok result after) {other : TypeIndex}
    {declaration : Declaration} (hfound : after.declaration? other = some declaration) :
    after.Anchors declaration := by
  have hkeep {found : Declaration} {place : TypeIndex}
      (hearlier : before.declaration? place = some found) {free : MethodId → Prop}
      (hrecodes : before.target.Recodes free after.target)
      (hdecls : after.decl? = before.decl?) : after.Anchors found := by
    have hanchors := hbefore.anchors place found hearlier
    exact hanchors.keep (hanchors.placed.keep (Or.inr hrecodes.classes)
      (fun id _ => hrecodes.type? id) fun id _ => hrecodes.signature? id)
      (hbefore.index place found hearlier) (hrecodes.type? _) hdecls
  have hself {old : Declaration} {free : MethodId → Prop}
      (hrecodes : before.target.Recodes free after.target)
      (hchanges : Registry.Changes index old { old with stage := .compiled } before after)
      (hsame : other = index) : after.Anchors declaration := by
    rw [hsame, hchanges.changed] at hfound
    cases hfound
    exact (hkeep hchanges.found hrecodes hchanges.decl?).stage .compiled
  rcases compileType_ok h with rfl | ⟨old, new, hrecodes, hchanges, -⟩
  · exact hbefore.anchors other declaration hfound
  · by_cases hsame : other = index
    · cases source with
      | obj object | struct object =>
          rw [hsame] at hfound
          exact ObjectLayout.compile_anchors hbefore hclasses h hfound
      | enum variants =>
          obtain ⟨old, hrecodes, hchanges⟩ := EnumLayout.compile_ok h
          exact hself hrecodes hchanges hsame
      | virtual fields =>
          obtain ⟨old, shape, -, htarget, hchanges⟩ := VirtualLayout.compile_ok h
          have hrecodes : before.target.Recodes (fun _ => True) after.target := by
            rw [htarget]
            exact .setBody _ _ trivial
          exact hself hrecodes hchanges hsame
      | abstract name =>
          obtain ⟨old, hrecodes, hchanges⟩ := advance_changes h
          exact hself hrecodes hchanges hsame
      | _ =>
          cases h
          exact hbefore.anchors other declaration hfound
    · rw [hchanges.others other hsame] at hfound
      exact hkeep hfound hrecodes hchanges.decl?

theorem ObjectLayout.compile_closed {object : ObjectType} {result : Unit}
    (hbefore : before.Anchored) (hclasses : AllClassed image before)
    (h : compile image index object before = .ok result after) : after.target.Closed := by
  obtain ⟨chain, planned, outline, shape, base, code, hassembled⟩ :=
    compile_assembled hbefore.toLinked h
  obtain ⟨old, found, laid, hshape, -, htarget, hchanges⟩ := compile_ok h
  have hanchors := compile_anchors hbefore hclasses h hchanges.changed
  have hcoded {method : MethodDecl}
      (hmethod : after.target.method? outline.constructor = some method) :
      method.Coded after.target := by
    refine hassembled.coded (hbefore.toLinked.changes hchanges) ?_ ?_ hmethod
    · intro parent hparent
      refine hanchors.base outline parent ?_ hparent
      have houtline := hassembled.outlined
      rwa [Registry.outline?, hchanges.changed, Option.bind_some] at houtline
    · intro slot hslot
      have hobject := hassembled.object
      simp only [Registry.object?, hchanges.changed] at hobject
      cases hobject
      exact (hanchors.placed.2 slot hslot).isSome
  have hconstructor : found.constructor = outline.constructor := by
    have houtline := hassembled.outlined
    rw [Registry.outline?_of_declaration ⟨hchanges.changed, rfl⟩] at houtline
    cases houtline
    rfl
  rw [htarget] at hcoded ⊢
  rw [← hconstructor] at hcoded
  exact hbefore.closed.setBody _ fun method hmethod => hcoded hmethod

theorem TypePasses.compileType_closed {source : SourceType} {result : Unit}
    (hbefore : before.Anchored) (hclasses : AllClassed image before)
    (h : compileType image (source, index) before = .ok result after) : after.target.Closed := by
  cases source with
  | obj object | struct object => exact ObjectLayout.compile_closed hbefore hclasses h
  | enum variants => exact EnumLayout.compile_closed hbefore h
  | virtual fields =>
      obtain ⟨old, shape, -, htarget, -⟩ := VirtualLayout.compile_ok h
      rw [htarget]
      refine hbefore.closed.setBody _ ?_
      intro method hmethod
      rw [TargetModule.method?_modifyMethod, if_pos rfl] at hmethod
      obtain ⟨earlier, -, rfl⟩ := Option.map_eq_some_iff.mp hmethod
      exact ⟨List.forall_mem_singleton.mpr trivial,
        fun _ id hid => absurd (List.mem_singleton.mp hid) nofun⟩
  | abstract name =>
      obtain ⟨old, -, -, rfl⟩ := advance_ok h
      exact hbefore.closed
  | _ =>
      cases h
      exact hbefore.closed

/-- The passes over the type table leave a closed module behind in which all
declarations are anchored. -/
theorem TypePasses.run_anchored {result : Unit} (hbefore : before.Defining image 0)
    (h : run image before = .ok result after) : after.Anchored := by
  obtain ⟨resolved, defined, hresolve, hdefine, hcompile⟩ := run_ok h
  obtain ⟨hlinked, hhollow, hanchors⟩ := defineAll_anchors hbefore hresolve hdefine
  have hclassed := defineAll_classed (resolveAll_linked hbefore.toLinked hresolve) hdefine
  have hclasses : AllClassed image defined := fun index object hobject =>
    hclassed.classes index (Image.lt_of_object hobject) object hobject
  have hall : after.Anchored ∧ AllClassed image after := by
    refine pass_keeps (fun registry => registry.Anchored ∧ AllClassed image registry) hcompile
      ?_ ?_ ⟨⟨hlinked, hhollow.closed, hanchors⟩, hclasses⟩
    · rintro registry ⟨hold, hknown⟩
      refine ⟨⟨hold.toLinked.enter, hold.closed, ?_⟩, hknown.keep rfl rfl⟩
      intro index declaration hfound
      have hanchored := hold.anchors index declaration hfound
      exact ⟨hanchored.placed, hanchored.index, hanchored.base⟩
    · rintro index source hsource first _ second ⟨hold, hknown⟩ hstep
      refine ⟨⟨?_, compileType_closed hold hknown hstep,
        fun _ _ => compileType_anchors hold hknown hstep⟩, ?_⟩
      · rcases compileType_ok hstep with rfl | ⟨old, new, -, hchanges, -⟩
        · exact hold.toLinked
        · exact hold.toLinked.changes hchanges
      · rcases compileType_ok hstep with rfl | ⟨old, new, hrecodes, hchanges, -⟩
        · exact hknown
        · exact hknown.keep hchanges.decl? hrecodes.classes
  exact hall.1

end Compiling

end BytecodeLowering
