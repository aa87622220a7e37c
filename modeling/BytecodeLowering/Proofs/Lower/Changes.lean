import BytecodeLowering.Proofs.Lower.Classes
import BytecodeLowering.Proofs.Lower.ConstructorArguments

/-!
# What a pass changes

What the later passes over the type table do to one declaration: they change the
declaration, its class and its constructors, and nothing else.
-/

namespace BytecodeLowering

/-- A declaration is changed together with its class and its constructors. -/
structure Registry.Changes (index : TypeIndex) (old new : Declaration)
    (before after : Registry) : Prop where
  found : before.declaration? index = some old
  changed : after.declaration? index = some new
  decl : new.decl = old.decl
  constructors : new.shape.constructors = old.shape.constructors
  others : ∀ other, other ≠ index → after.declaration? other = before.declaration? other
  functions : after.functions = before.functions
  globals : after.target.globals = before.target.globals
  target : before.target.Keeps (· ∈ old.shape.constructors) after.target
  decls : new.shape.decls = old.shape.decls
  stem : new.stem = old.stem
  pass : after.pass = before.pass

def Registry.update (registry : Registry) (index : TypeIndex) (f : Declaration → Declaration) :
    Registry :=
  { registry with types := registry.types.modify index (·.map f) }

section Changing

variable {image : Image} {index : TypeIndex} {before after : Registry}

theorem Registry.declaration?_update (registry : Registry) (f : Declaration → Declaration)
    (other : TypeIndex) :
    (registry.update index f).declaration? other
      = if index = other then (registry.declaration? other).map f
        else registry.declaration? other := by
  simp only [declaration?, update, List.getElem?_modify]
  split
  · cases registry.types[other]? with
    | none => rfl
    | some entry => cases entry <;> rfl
  · simp

theorem advance_ok {stage : Stage} {result : Unit}
    (h : Registry.advance index stage before = .ok result after) :
    ∃ old, before.declaration? index = some old ∧ some old.stage = stage.previous ∧
      before.update index (fun declaration => { declaration with stage }) = after := by
  obtain ⟨_, _, hget, h⟩ := Lowering.bind_ok h
  obtain ⟨rfl, rfl⟩ := Lowering.get_ok hget
  cases hfound : before.declaration? index with
  | none =>
      simp only [hfound] at h
      cases h
  | some old =>
      simp only [hfound] at h
      split at h
      · rename_i hstage
        cases h
        exact ⟨old, rfl, hstage.2, rfl⟩
      · cases h

theorem modifyShape_ok {f : Shape → Shape} {result : Unit}
    (h : Registry.modifyShape index f before = .ok result after) :
    before.update index (fun declaration => { declaration with shape := f declaration.shape })
      = after := by
  cases h
  rfl

section Parts

variable {old : Declaration} {stage : Stage} {target : TargetModule}
  (hold : before.declaration? index = some old)

include hold

theorem Registry.Changes.of_stage
    (hafter : { before.update index (fun declaration => { declaration with stage }) with target }
      = after)
    (hglobals : target.globals = before.target.globals)
    (htarget : before.target.Keeps (· ∈ old.shape.constructors) target) :
    Registry.Changes index old { old with stage } before after := by
  subst hafter
  have hlook (other : TypeIndex) : _ = if index = other then _ else _ :=
    before.declaration?_update (fun declaration => { declaration with stage }) other
  refine ⟨hold, ?_, rfl, rfl, ?_, rfl, hglobals, htarget, rfl, rfl, rfl⟩
  · exact (hlook index).trans (by rw [if_pos rfl, hold]; rfl)
  · intro other hother
    exact (hlook other).trans (if_neg (Ne.symm hother))

theorem Registry.Changes.of_shape {f : Shape → Shape} {result : Unit}
    (h : Registry.modifyShape index f
      { before.update index (fun declaration => { declaration with stage }) with target }
        = .ok result after)
    (hglobals : target.globals = before.target.globals)
    (htarget : before.target.Keeps (· ∈ old.shape.constructors) target)
    (hconstructors : (f old.shape).constructors = old.shape.constructors)
    (hdecls : (f old.shape).decls = old.shape.decls)
    (hstem : Declaration.stem { old with stage, shape := f old.shape } = old.stem) :
    after.target = target ∧
      Registry.Changes index old { old with stage, shape := f old.shape } before after := by
  have hstage : Registry.Changes index old { old with stage } before
      { before.update index (fun declaration => { declaration with stage }) with target } :=
    .of_stage hold rfl hglobals htarget
  rw [← modifyShape_ok h]
  refine ⟨rfl, hold, ?_, rfl, hconstructors, ?_, rfl, hglobals, htarget, hdecls, hstem, rfl⟩
  · rw [Registry.declaration?_update, if_pos rfl, hstage.changed]
    rfl
  · intro other hother
    rw [Registry.declaration?_update, if_neg (Ne.symm hother), hstage.others other hother]

end Parts

theorem requireType_ok {registry : Registry} {least : Stage} {declaration : Declaration}
    (h : registry.requireType index least = .ok declaration) :
    registry.declaration? index = some declaration := by
  unfold Registry.requireType at h
  cases hfound : registry.declaration? index with
  | none =>
      rw [hfound] at h
      cases h
  | some found =>
      simp only [hfound] at h
      split at h
      · cases h
      · cases h
        rfl

theorem requireObject_ok {registry : Registry} {least : Stage} {declaration : Declaration}
    {shape : ObjectShape} (h : registry.requireObject index least = .ok (declaration, shape)) :
    registry.declaration? index = some declaration ∧ declaration.shape = .object shape := by
  obtain ⟨found, hfound, h⟩ := ok_of_bind h
  cases hshape : found.shape with
  | object shape =>
      simp only [hshape] at h
      cases h
      exact ⟨requireType_ok hfound, hshape⟩
  | _ =>
      simp only [hshape] at h
      cases h

theorem mem_modify_cases {items : List α} {place : Nat} {f : α → α} {item : α}
    (h : item ∈ items.modify place f) :
    item ∈ items ∨ ∃ other, items[place]? = some other ∧ f other = item := by
  obtain ⟨i, hi⟩ := List.mem_iff_getElem?.mp h
  rw [List.getElem?_modify] at hi
  split at hi
  · rename_i hplace
    obtain ⟨other, hother, rfl⟩ := Option.map_eq_some_iff.mp hi
    exact Or.inr ⟨other, by rw [hplace, hother], rfl⟩
  · exact Or.inl (List.mem_of_getElem? (by simpa using hi))

theorem mem_modify (part : α → β) {items : List α} {place : Nat} {f : α → α} {value : β} {item : α}
    (h : item ∈ items.modify place f) (hf : ∀ item, part (f item) = value) :
    item ∈ items ∨ part item = value := by
  obtain hearlier | ⟨other, -, rfl⟩ := mem_modify_cases h
  · exact Or.inl hearlier
  · exact Or.inr (hf other)

namespace ObjectLayout

theorem baseOf_ok {object : ObjectType} {registry : Registry}
    {base : Option (TypeIndex × TypeId)} (h : baseOf object registry = .ok base) :
    base.map Prod.fst = object.super := by
  unfold baseOf at h
  cases hsuper : object.super with
  | none =>
      simp only [hsuper] at h
      cases h
      rfl
  | some parent =>
      simp only [hsuper] at h
      obtain ⟨found, -, h⟩ := ok_of_bind h
      cases h
      rfl

theorem define_ok {object : ObjectType} {result : Unit}
    (h : define image index object before = .ok result after) :
    ∃ old shape base fields slots, old.shape = .object shape ∧
      baseOf object
        (before.update index fun declaration => { declaration with stage := .defined })
          = .ok base ∧
      ownFields image object
        (before.update index fun declaration => { declaration with stage := .defined })
          = .ok fields ∧
      slotFields image index
        (before.update index fun declaration => { declaration with stage := .defined })
          = .ok slots ∧
      after.target = before.target.modifyType old.decl
        (fun type => { type with base := base.map Prod.snd, fields := fields ++ slots }) ∧
      Registry.Changes index old
        { old with stage := .defined, shape := .object { shape with base := object.super } }
        before after := by
  obtain ⟨_, advanced, hadvance, h⟩ := Lowering.bind_ok h
  obtain ⟨old, hold, -, rfl⟩ := advance_ok hadvance
  obtain ⟨⟨declaration, shape⟩, hrequire, h⟩ := Lowering.query_bind h
  obtain ⟨base, hbase, h⟩ := Lowering.query_bind h
  obtain ⟨fields, hfields, h⟩ := Lowering.query_bind h
  obtain ⟨slots, hslots, h⟩ := Lowering.query_bind h
  have h := Lowering.modifyTarget_bind h
  obtain ⟨hfound, hshape⟩ := requireObject_ok hrequire
  rw [Registry.declaration?_update, if_pos rfl, hold] at hfound
  obtain rfl : { old with stage := .defined } = declaration := Option.some.inj hfound
  replace hshape : old.shape = .object shape := hshape
  obtain ⟨htarget, hchanges⟩ := Registry.Changes.of_shape hold h rfl
    (.modifyType _ _ (fun _ => rfl) fun _ => rfl) (by rw [hshape]; rfl) (by rw [hshape]; rfl)
    (by simp only [Declaration.stem, hshape])
  refine ⟨old, shape, base, fields, slots, hshape, hbase, hfields, hslots, htarget, ?_⟩
  simpa only [hshape, baseOf_ok hbase] using hchanges

structure LaidOut (image : Image) (index : TypeIndex) (object : ObjectType) (registry : Registry)
    (laid : Layout) (chain : List TypeIndex) (parts : List Contribution)
    (planned : List PlannedSlot) (shape : ObjectShape) (base : List Instr)
    (bindings : List (List Instr)) : Prop where
  chain_ok : superChain image index = .ok chain
  parts_ok : chain.mapM (contribution image registry) = .ok parts
  planned_ok : planSlots image chain = .ok planned
  slots_ok : planned.foldlM (addSlot image registry parts) [] = .ok laid.slots
  shape_ok : ∃ declaration, registry.declaration? index = some declaration ∧
    declaration.shape = .object shape
  base_ok : callBase registry shape.base = .ok base
  bindings_ok : (planned.filter (·.owner = index)).mapM
    (bindSlot registry object.name laid.slots) = .ok bindings
  fields_eq : laid.fields = parts.flatMap (·.fields)
  constructor_eq : laid.constructor = shape.constructor
  body_eq : laid.body = base ++ bindings.flatten ++ [Instr.ret]

theorem layout_ok {object : ObjectType} {registry : Registry} {laid : Layout}
    (h : layout image index object registry = .ok laid) :
    ∃ chain parts planned shape base bindings,
      LaidOut image index object registry laid chain parts planned shape base bindings := by
  obtain ⟨chain, hchain, h⟩ := ok_of_bind h
  obtain ⟨parts, hparts, h⟩ := ok_of_bind h
  obtain ⟨planned, hplanned, h⟩ := ok_of_bind h
  obtain ⟨slots, hslots, h⟩ := ok_of_bind h
  obtain ⟨⟨declaration, shape⟩, hshape, h⟩ := ok_of_bind h
  obtain ⟨base, hbase, h⟩ := ok_of_bind h
  obtain ⟨bindings, hbindings, h⟩ := ok_of_bind h
  split at h
  · cases h
    exact ⟨chain, parts, planned, shape, base, bindings, hchain, hparts, hplanned, hslots,
      ⟨declaration, requireObject_ok hshape⟩, hbase, hbindings, rfl, rfl, rfl⟩
  · cases h

theorem compile_ok {object : ObjectType} {result : Unit}
    (h : compile image index object before = .ok result after) :
    ∃ old shape laid, old.shape = .object shape ∧
      layout image index object
        (before.update index fun declaration => { declaration with stage := .compiled })
          = .ok laid ∧
      after.target = before.target.modifyMethod shape.constructor
        (fun method => { method with body := laid.body }) ∧
      Registry.Changes index old
        { old with
          stage := .compiled
          shape := .object { shape with fields := laid.fields, slots := laid.slots } }
        before after := by
  obtain ⟨_, advanced, hadvance, h⟩ := Lowering.bind_ok h
  obtain ⟨old, hold, -, rfl⟩ := advance_ok hadvance
  obtain ⟨laid, hlayout, h⟩ := Lowering.query_bind h
  have h := Lowering.modifyTarget_bind h
  obtain ⟨_, _, _, shape, _, _, hlaid⟩ := layout_ok hlayout
  obtain ⟨declaration, hfound, hshape⟩ := hlaid.shape_ok
  rw [Registry.declaration?_update, if_pos rfl, hold] at hfound
  obtain rfl : { old with stage := .compiled } = declaration := Option.some.inj hfound
  replace hshape : old.shape = .object shape := hshape
  have hconstructor : laid.constructor ∈ old.shape.constructors := by
    simp [hshape, Shape.constructors, hlaid.constructor_eq]
  obtain ⟨htarget, hchanges⟩ := Registry.Changes.of_shape hold h rfl
    (.modifyMethod _ _ (fun _ => rfl) (fun _ => rfl) hconstructor) (by rw [hshape]; rfl)
    (by rw [hshape]; rfl) (by simp only [Declaration.stem, hshape])
  rw [hlaid.constructor_eq] at htarget
  exact ⟨old, shape, laid, hshape, hlayout, htarget, by simpa only [hshape] using hchanges⟩

end ObjectLayout

namespace VirtualLayout

theorem virtualDecl?_ok {registry : Registry} {decl : TypeId} {shape : VirtualShape}
    (h : virtualDecl? registry index = some (decl, shape)) :
    ∃ declaration, registry.declaration? index = some declaration ∧ declaration.decl = decl ∧
      declaration.shape = .virtual shape := by
  unfold virtualDecl? at h
  split at h
  · rename_i hfound
    cases h
    exact ⟨_, hfound, rfl, rfl⟩
  · cases h

theorem define_ok {fields : List Field} {result : Unit}
    (h : define image index fields before = .ok result after) :
    ∃ old shape flat, old.shape = .virtual shape ∧
      recordFields image old.decl fields
        (before.update index fun declaration => { declaration with stage := .defined })
          = .ok flat ∧
      after.target = before.target.modifyType old.decl
        (fun type => { type with fields := flat.map fun field => ⟨field.name, field.type⟩ }) ∧
      Registry.Changes index old
        { old with stage := .defined, shape := .virtual { shape with fields := flat } }
        before after := by
  obtain ⟨_, advanced, hadvance, h⟩ := Lowering.bind_ok h
  obtain ⟨old, hold, -, rfl⟩ := advance_ok hadvance
  have h := Lowering.get_bind h
  cases hvirtual : virtualDecl?
      (before.update index fun declaration => { declaration with stage := .defined }) index with
  | none =>
      simp only [hvirtual] at h
      cases h
  | some found =>
      obtain ⟨decl, shape⟩ := found
      simp only [hvirtual] at h
      obtain ⟨flat, hflat, h⟩ := Lowering.query_bind h
      have h := Lowering.modifyTarget_bind h
      obtain ⟨declaration, hfound, rfl, hshape⟩ := virtualDecl?_ok hvirtual
      rw [Registry.declaration?_update, if_pos rfl, hold] at hfound
      obtain rfl : { old with stage := .defined } = declaration := Option.some.inj hfound
      replace hshape : old.shape = .virtual shape := hshape
      obtain ⟨htarget, hchanges⟩ := Registry.Changes.of_shape hold h rfl
        (.modifyType _ _ (fun _ => rfl) fun _ => rfl) (by rw [hshape]; rfl) (by rw [hshape]; rfl)
        (by simp only [Declaration.stem, hshape])
      exact ⟨old, shape, flat, hshape, hflat, htarget, by simpa only [hshape] using hchanges⟩

theorem compile_ok {result : Unit} (h : compile index before = .ok result after) :
    ∃ old shape, old.shape = .virtual shape ∧
      after.target = before.target.modifyMethod shape.constructor
        (fun method => { method with body := [.ret] }) ∧
      Registry.Changes index old { old with stage := .compiled } before after := by
  obtain ⟨_, advanced, hadvance, h⟩ := Lowering.bind_ok h
  obtain ⟨old, hold, -, rfl⟩ := advance_ok hadvance
  have h := Lowering.get_bind h
  cases hvirtual : virtualDecl?
      (before.update index fun declaration => { declaration with stage := .compiled }) index with
  | none =>
      simp only [hvirtual] at h
      cases h
  | some found =>
      obtain ⟨decl, shape⟩ := found
      simp only [hvirtual] at h
      obtain ⟨declaration, hfound, rfl, hshape⟩ := virtualDecl?_ok hvirtual
      rw [Registry.declaration?_update, if_pos rfl, hold] at hfound
      obtain rfl : { old with stage := .compiled } = declaration := Option.some.inj hfound
      replace hshape : old.shape = .virtual shape := hshape
      have hconstructor : shape.constructor ∈ old.shape.constructors := by
        simp [hshape, Shape.constructors]
      cases h
      exact ⟨old, shape, hshape, rfl, .of_stage hold rfl rfl
        (.modifyMethod _ _ (fun _ => rfl) (fun _ => rfl) hconstructor)⟩

end VirtualLayout

namespace EnumLayout

theorem requireEnum_ok {declaration : Declaration} {shape : EnumShape}
    (h : requireEnum index before = .ok (declaration, shape) after) :
    before.declaration? index = some declaration ∧ declaration.shape = .enum shape ∧
      before = after := by
  have h := Lowering.get_bind h
  cases hfound : before.declaration? index with
  | none =>
      simp only [hfound] at h
      cases h
  | some found =>
      simp only [hfound] at h
      cases hshape : found.shape with
      | enum shape =>
          simp only [hshape] at h
          cases h
          exact ⟨rfl, hshape, rfl⟩
      | _ =>
          simp only [hshape] at h
          cases h

def withFields (module : TargetModule) (shape : ConstructShape) (fields : List FlatField) :
    TargetModule :=
  (module.modifyType shape.decl fun type =>
      { type with fields := fields.map fun field => ⟨field.name, field.type⟩ }).modifyMethod
    shape.constructor fun method =>
      { method with signature := { method.signature with params := fields.map (·.type) } }

theorem keeps_withFields {free : MethodId → Prop} (module : TargetModule) {shape : ConstructShape}
    (fields : List FlatField) (h : free shape.constructor) :
    module.Keeps free (withFields module shape fields) := by
  have htypes : module.Keeps free (module.modifyType shape.decl fun type =>
      { type with fields := fields.map fun field => ⟨field.name, field.type⟩ }) :=
    .modifyType _ _ (fun _ => rfl) fun _ => rfl
  exact htypes.trans (.modifyMethod _ _ (fun _ => rfl) (fun _ => rfl) h)

theorem params_withFields (module : TargetModule) {shape : ConstructShape}
    (fields : List FlatField) (h : (module.method? shape.constructor).isSome) :
    ((withFields module shape fields).method? shape.constructor).map (·.signature.params)
      = some (fields.map (·.type)) := by
  obtain ⟨method, hmethod⟩ := Option.isSome_iff_exists.mp h
  replace hmethod : (module.modifyType shape.decl fun type =>
      { type with fields := fields.map fun field => ⟨field.name, field.type⟩ }).method?
        shape.constructor = some method := hmethod
  rw [withFields, TargetModule.method?_modifyMethod, if_pos rfl, hmethod]
  rfl

theorem defineConstruct_ok {construct : EnumConstruct} {shape : ConstructShape}
    {fields : List FlatField}
    (h : defineConstruct image (construct, shape) before = .ok fields after) :
    constructFields image shape.decl construct.params before = .ok fields ∧
      { before with target := withFields before.target shape fields } = after := by
  obtain ⟨fields, hfields, h⟩ := Lowering.query_bind h
  cases h
  exact ⟨hfields, rfl⟩

theorem map_setFields {part : ConstructShape → α}
    (h : ∀ construct fields, part { construct with fields } = part construct)
    (constructs : List ConstructShape) (fields : List (List FlatField)) :
    (setFields constructs fields).map part = constructs.map part := by
  refine List.ext_getElem? fun i => ?_
  simp only [setFields, List.getElem?_map, List.getElem?_mapIdx, Option.map_map]
  congr 1
  funext construct
  simp only [Function.comp_apply]
  split
  · exact h construct _
  · rfl

/-- The classes and constructors of some constructs have got their fields, whose
types are mapped with the given declarations. -/
structure DefinedConstructs (image : Image) (declarations : List (Option Declaration))
    (pairs : List (EnumConstruct × ConstructShape)) (fields : List (List FlatField))
    (before after : TargetModule) : Prop where
  globals : after.globals = before.globals
  target : before.Keeps (· ∈ pairs.map (·.2.constructor)) after
  built : after = (pairs.zip fields).foldl
    (fun module entry => withFields module entry.1.2 entry.2) before
  length : fields.length = pairs.length
  classes : ∀ type ∈ after.types, type ∈ before.types ∨
    ∃ flat ∈ fields, type.fields = flat.map fun field => ⟨field.name, field.type⟩
  mapped : ∀ (i : Nat) flat, fields[i]? = some flat → ∃ pair registry, pairs[i]? = some pair ∧
    registry.types = declarations ∧
      constructFields image pair.2.decl pair.1.params registry = .ok flat
  params : (pairs.map (·.2.constructor)).Nodup → ∀ (i : Nat) pair flat, pairs[i]? = some pair →
    fields[i]? = some flat → (before.method? pair.2.constructor).isSome →
      (after.method? pair.2.constructor).map (·.signature.params) = some (flat.map (·.type))
  others : ∀ id, id ∉ pairs.map (·.2.decl) → after.type? id = before.type? id
  filled : (pairs.map (·.2.decl)).Nodup → ∀ (i : Nat) pair flat, pairs[i]? = some pair →
    fields[i]? = some flat → (before.type? pair.2.decl).isSome →
      (after.type? pair.2.decl).map (·.fields)
        = some (flat.map fun field => ⟨field.name, field.type⟩)

theorem defineConstructs_ok {pairs : List (EnumConstruct × ConstructShape)}
    {fields : List (List FlatField)}
    (h : pairs.mapM (defineConstruct image) before = .ok fields after) :
    { before with target := after.target } = after ∧
      DefinedConstructs image before.types pairs fields before.target after.target := by
  induction pairs generalizing before fields with
  | nil =>
      cases h
      exact ⟨rfl, rfl, .refl _, rfl, rfl, fun _ h => Or.inl h, nofun, nofun, fun _ _ => rfl, nofun⟩
  | cons pair pairs ih =>
      obtain ⟨construct, shape⟩ := pair
      rw [List.mapM_cons] at h
      obtain ⟨first, middle, hfirst, h⟩ := Lowering.bind_ok h
      obtain ⟨fields, last, hfields, h⟩ := Lowering.bind_ok h
      cases h
      obtain ⟨hsame, hrest⟩ := ih hfields
      obtain ⟨hflat, rfl⟩ := defineConstruct_ok hfirst
      have hown : before.target.Keeps (· ∈ ((construct, shape) :: pairs).map (·.2.constructor))
          (withFields before.target shape first) := keeps_withFields _ _ List.mem_cons_self
      refine ⟨hsame, hrest.globals, hown.trans (hrest.target.mono fun _ => List.mem_cons_of_mem _),
        hrest.built, ?_, ?_, ?_, ?_, ?_, ?_⟩
      · simp [hrest.length]
      · intro type htype
        rcases hrest.classes type htype with hearlier | ⟨flat, hmem, hsame⟩
        · refine (mem_modify TypeDecl.fields hearlier fun _ => rfl).imp_right fun hsame => ?_
          exact ⟨first, List.mem_cons_self, hsame⟩
        · exact Or.inr ⟨flat, List.mem_cons_of_mem _ hmem, hsame⟩
      · intro i flat hfound
        cases i with
        | zero =>
            cases hfound
            exact ⟨_, _, rfl, rfl, hflat⟩
        | succ i => exact hrest.mapped i flat hfound
      · intro hdistinct i pair flat hpair hflat hsome
        obtain ⟨hfresh, hothers⟩ := List.nodup_cons.mp hdistinct
        cases i with
        | zero =>
            cases hpair
            cases hflat
            have hset := params_withFields before.target first hsome
            obtain ⟨method, hmethod, hparams⟩ := Option.map_eq_some_iff.mp hset
            rw [hrest.target.method hfresh hmethod, Option.map_some, hparams]
        | succ i =>
            obtain ⟨method, hmethod⟩ := Option.isSome_iff_exists.mp hsome
            obtain ⟨method', hmethod', -⟩ := hown.methods _ _ hmethod
            exact hrest.params hothers i pair flat hpair hflat
              (Option.isSome_iff_exists.mpr ⟨method', hmethod'⟩)
      · intro id hid
        obtain ⟨hne, hothers⟩ := not_or.mp (mt List.mem_cons.mpr hid)
        have hfirst : (withFields before.target shape first).type? id = before.target.type? id :=
          (TargetModule.type?_modifyType ..).trans (if_neg (Ne.symm hne))
        exact (hrest.others id hothers).trans hfirst
      · intro hdistinct i pair flat hpair hflat hsome
        obtain ⟨hfresh, hothers⟩ := List.nodup_cons.mp hdistinct
        obtain ⟨type, htype⟩ := Option.isSome_iff_exists.mp hsome
        cases i with
        | zero =>
            cases hpair
            cases hflat
            rw [hrest.others shape.decl hfresh]
            have hset := before.target.type?_modifyType shape.decl shape.decl fun type =>
              { type with fields := first.map fun field => ⟨field.name, field.type⟩ }
            rw [if_pos rfl, htype] at hset
            exact congrArg (Option.map TypeDecl.fields) hset
        | succ i =>
            obtain ⟨type', htype', -⟩ := hown.types _ _ htype
            exact hrest.filled hothers i pair flat hpair hflat
              (Option.isSome_iff_exists.mpr ⟨type', htype'⟩)

theorem map_zip_snd (part : ConstructShape → α) (constructs : List EnumConstruct)
    (shapes : List ConstructShape) :
    (constructs.zip shapes).map (fun pair => part pair.2)
      = (shapes.map part).take constructs.length := by
  induction constructs generalizing shapes with
  | nil => rfl
  | cons construct constructs ih =>
      cases shapes with
      | nil => rfl
      | cons shape shapes => simpa using ih shapes

theorem not_mem_take {items : List α} (h : items.Nodup) {count i : Nat} {item : α}
    (hitem : items[i]? = some item) (hi : count ≤ i) : item ∉ items.take count := by
  intro hearlier
  obtain ⟨j, hj⟩ := List.mem_iff_getElem?.mp hearlier
  rw [List.getElem?_take] at hj
  split at hj
  · have hsame := (List.getElem?_inj (List.getElem?_eq_some_iff.mp hitem).1 h).mp
      (hitem.trans hj.symm)
    omega
  · cases hj

structure FilledConstruct (image : Image) (declarations : List (Option Declaration))
    (module : TargetModule) (construct : ConstructShape) : Prop where
  mapped : ∃ params registry, registry.types = declarations ∧
    constructFields image construct.decl params registry = .ok construct.fields
  params : (module.method? construct.constructor).map (·.signature.params)
    = some (construct.fields.map (·.type))
  fields : (module.type? construct.decl).map (·.fields)
    = some (construct.fields.map fun field => ⟨field.name, field.type⟩)

theorem decls_nodup {module : TargetModule} {shapes : List ConstructShape}
    (hcodes : (shapes.map (·.constructor)).Nodup)
    (hlinks : ∀ shape ∈ shapes, module.Links shape.decl shape.constructor) :
    (shapes.map (·.decl)).Nodup := by
  simp only [List.Nodup, List.pairwise_map] at hcodes ⊢
  refine hcodes.imp_of_mem ?_
  intro first second hfirst hsecond hne hsame
  have hone := (hlinks first hfirst).2.2
  rw [hsame, (hlinks second hsecond).2.2] at hone
  exact hne (Option.some.inj hone).symm

/-- A construct of an enum that has been defined has got its fields, or is what
it was. -/
theorem DefinedConstructs.cases {declarations : List (Option Declaration)}
    {constructs : List EnumConstruct} {shapes : List ConstructShape}
    {fields : List (List FlatField)} {first last : TargetModule}
    (h : DefinedConstructs image declarations (constructs.zip shapes) fields first last)
    (hcodes : (shapes.map (·.constructor)).Nodup)
    (hlinks : ∀ shape ∈ shapes, first.Links shape.decl shape.constructor)
    {construct : ConstructShape} (hconstruct : construct ∈ setFields shapes fields) :
    construct.fields ∈ fields ∧ FilledConstruct image declarations last construct ∨
      construct ∈ shapes ∧
        construct.constructor ∉ (constructs.zip shapes).map (·.2.constructor) ∧
        construct.decl ∉ (constructs.zip shapes).map (·.2.decl) := by
  obtain ⟨i, hi⟩ := List.mem_iff_getElem?.mp hconstruct
  rw [setFields, List.getElem?_mapIdx] at hi
  obtain ⟨made, hfound, rfl⟩ := Option.map_eq_some_iff.mp hi
  have hdecls := decls_nodup hcodes hlinks
  have hlength := h.length
  rw [List.length_zip] at hlength
  cases hflat : fields[i]? with
  | some flat =>
      obtain ⟨⟨construct, shape⟩, registry, hpair, htypes, hmapped⟩ := h.mapped i flat hflat
      obtain rfl : made = shape := by
        have hsecond := (List.getElem?_zip_eq_some.mp hpair).2
        exact Option.some.inj (hfound.symm.trans hsecond)
      obtain ⟨hkind, -, hcode⟩ := hlinks made (List.mem_of_getElem? hfound)
      obtain ⟨method, hmethod, -⟩ := Option.map_eq_some_iff.mp hkind
      obtain ⟨type, htype, -⟩ := Option.bind_eq_some_iff.mp hcode
      refine Or.inl ⟨List.mem_of_getElem? hflat, ⟨construct.params, registry, htypes, hmapped⟩,
        ?_, ?_⟩
      · refine h.params ?_ i (construct, made) flat hpair hflat (by simp [hmethod])
        rw [map_zip_snd ConstructShape.constructor]
        exact hcodes.sublist (List.take_sublist _ _)
      · refine h.filled ?_ i (construct, made) flat hpair hflat (by simp [htype])
        rw [map_zip_snd ConstructShape.decl]
        exact hdecls.sublist (List.take_sublist _ _)
  | none =>
      have hi := List.getElem?_eq_none_iff.mp hflat
      have hplace := (List.getElem?_eq_some_iff.mp hfound).1
      refine Or.inr ⟨List.mem_of_getElem? hfound, ?_, ?_⟩
      · rw [map_zip_snd ConstructShape.constructor]
        refine not_mem_take (i := i) hcodes ?_ (by omega)
        rw [List.getElem?_map, hfound, Option.map_some]
      · rw [map_zip_snd ConstructShape.decl]
        refine not_mem_take (i := i) hdecls ?_ (by omega)
        rw [List.getElem?_map, hfound, Option.map_some]

theorem define_ok {variants : EnumType} {result : Unit}
    (h : define image index variants before = .ok result after) :
    ∃ old shape fields, old.shape = .enum shape ∧
      DefinedConstructs image
        (before.update index fun declaration => { declaration with stage := .defined }).types
        (variants.constructs.zip shape.constructs) fields
        (before.target.modifyType old.decl fun type =>
          { type with fields := [{ name := "index", type := .i32 }] }) after.target ∧
      Registry.Changes index old
        { old with
          stage := .defined
          shape := .enum { shape with constructs := setFields shape.constructs fields } }
        before after := by
  obtain ⟨_, advanced, hadvance, h⟩ := Lowering.bind_ok h
  obtain ⟨old, hold, -, rfl⟩ := advance_ok hadvance
  obtain ⟨⟨declaration, shape⟩, middle, hrequire, h⟩ := Lowering.bind_ok h
  obtain ⟨hfound, hshape, rfl⟩ := requireEnum_ok hrequire
  rw [Registry.declaration?_update, if_pos rfl, hold] at hfound
  obtain rfl : { old with stage := .defined } = declaration := Option.some.inj hfound
  replace hshape : old.shape = .enum shape := hshape
  obtain ⟨fields, filled, hfields, hlast⟩ := Lowering.bind_ok (Lowering.modifyTarget_bind h)
  obtain ⟨hsame, hdefined⟩ := defineConstructs_ok hfields
  rw [← hsame] at hlast
  have hclass : before.target.Keeps (· ∈ old.shape.constructors)
      (before.target.modifyType old.decl fun type =>
        { type with fields := [{ name := "index", type := .i32 }] }) :=
    .modifyType _ _ (fun _ => rfl) fun _ => rfl
  have hkeeps : before.target.Keeps (· ∈ old.shape.constructors) filled.target := by
    refine hclass.trans (hdefined.target.mono ?_)
    intro id hid
    obtain ⟨pair, hpair, rfl⟩ := List.mem_map.mp hid
    rw [hshape]
    exact List.mem_map_of_mem (List.of_mem_zip hpair).2
  have hlinks : (setFields shape.constructs fields).map
      (fun construct => (construct.decl, construct.constructor))
        = shape.constructs.map fun construct => (construct.decl, construct.constructor) :=
    map_setFields (fun _ _ => rfl) shape.constructs fields
  obtain ⟨htarget, hchanges⟩ := Registry.Changes.of_shape hold hlast hdefined.globals hkeeps
    (by rw [hshape]; exact map_setFields (fun _ _ => rfl) shape.constructs fields)
    (by rw [hshape]; exact map_setFields (fun _ _ => rfl) shape.constructs fields)
    (by simp only [Declaration.stem, hshape, hlinks])
  refine ⟨old, shape, fields, hshape, ?_, by simpa only [hshape] using hchanges⟩
  rw [htarget]
  exact hdefined

theorem compileConstruct_ok {free : MethodId → Prop} {shape : EnumShape}
    {construct : ConstructShape} {number : Nat} {result : Unit} (hfree : free construct.constructor)
    (h : compileConstruct shape (construct, number) before = .ok result after) :
    { before with target := after.target } = after ∧ before.target.Recodes free after.target := by
  obtain ⟨-, -, rfl⟩ := compileConstruct_steps h
  exact ⟨rfl, .setBody _ _ hfree⟩

theorem compile_steps {result : Unit} (h : compile index before = .ok result after) :
    ∃ old shape, before.declaration? index = some old ∧ old.shape = .enum shape ∧
      shape.constructs.zipIdx.forM (compileConstruct shape)
        (before.update index fun declaration => { declaration with stage := .compiled })
          = .ok ⟨⟩ after := by
  obtain ⟨_, advanced, hadvance, h⟩ := Lowering.bind_ok h
  obtain ⟨old, hold, -, rfl⟩ := advance_ok hadvance
  obtain ⟨⟨declaration, shape⟩, middle, hrequire, h⟩ := Lowering.bind_ok h
  obtain ⟨hfound, hshape, rfl⟩ := requireEnum_ok hrequire
  rw [Registry.declaration?_update, if_pos rfl, hold] at hfound
  obtain rfl : { old with stage := .compiled } = declaration := Option.some.inj hfound
  exact ⟨old, shape, hold, hshape, h⟩

theorem compile_ok {result : Unit} (h : compile index before = .ok result after) :
    ∃ old, before.target.Recodes (· ∈ old.shape.constructors) after.target ∧
      Registry.Changes index old { old with stage := .compiled } before after := by
  obtain ⟨old, shape, hold, hshape, h⟩ := compile_steps h
  obtain ⟨hsame, hrecodes⟩ : { before.update index (fun declaration =>
        { declaration with stage := .compiled }) with target := after.target } = after ∧
      before.target.Recodes (· ∈ old.shape.constructors) after.target := by
    refine Lowering.forM_keeps (fun registry => { before.update index (fun declaration =>
        { declaration with stage := .compiled }) with target := registry.target } = registry ∧
      before.target.Recodes (· ∈ old.shape.constructors) registry.target) ?_ ?_ h
    · rintro ⟨construct, number⟩ hconstruct first _ second ⟨hfirst, hkept⟩ hstep
      have hfree : construct.constructor ∈ old.shape.constructors := by
        rw [hshape]
        exact List.mem_map_of_mem (List.fst_mem_of_mem_zipIdx hconstruct)
      obtain ⟨hsecond, hmore⟩ := compileConstruct_ok hfree hstep
      refine ⟨?_, hkept.trans hmore⟩
      rw [← hsecond, ← hfirst]
    · exact ⟨rfl, .refl _⟩
  exact ⟨old, hrecodes, .of_stage hold hsame hrecodes.globals hrecodes.toKeeps⟩

end EnumLayout

end Changing

end BytecodeLowering
