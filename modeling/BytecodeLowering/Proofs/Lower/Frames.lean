import BytecodeLowering.Proofs.Lower.TypeUnfolding

/-!
# Modules under construction

The declarations of a module while it is built.  Every step that adds or changes
a declaration keeps the module framed, since a mapped type names only classes
that have been made.  No method has code until all types are defined.
-/

namespace BytecodeLowering

/-! ## Building -/

namespace TargetModule

variable {module : TargetModule}

theorem length_modifyType (decl : TypeId) (f : TypeDecl → TypeDecl) :
    (module.modifyType decl f).types.length = module.types.length :=
  List.length_modify ..

theorem length_modifyMethod (id : MethodId) (f : MethodDecl → MethodDecl) :
    (module.modifyMethod id f).methods.length = module.methods.length :=
  List.length_modify ..

namespace Framed

variable (h : module.Framed)

include h

theorem addType (name : String) (kind : DeclKind) : (module.addType name kind).2.Framed := by
  have hcount : module.types.length ≤ (module.addType name kind).2.types.length := by
    simp [TargetModule.addType]
  refine ⟨?_, h.methodIds, h.globalIds, ?_, ?_, ?_, h.entrypoint, h.initializer⟩
  · intro id type htype
    rcases getElem?_concat_cases htype with hearlier | ⟨rfl, rfl⟩
    · exact h.typeIds id type hearlier
    · rfl
  · intro type htype
    rcases List.mem_append.mp htype with hearlier | hnew
    · exact (h.types type hearlier).mono hcount (Nat.le_refl _)
    · obtain rfl := List.mem_singleton.mp hnew
      exact ⟨nofun, nofun, nofun⟩
  · exact fun method hmethod => (h.methods method hmethod).mono hcount
  · exact fun slot hslot => (h.globals slot hslot).mono hcount

theorem addMethod (name : String) (kind : MethodKind) :
    (module.addMethod name kind).2.Framed := by
  have hcount : module.methods.length ≤ (module.addMethod name kind).2.methods.length := by
    simp [TargetModule.addMethod]
  refine ⟨h.typeIds, ?_, h.globalIds, ?_, ?_, h.globals,
    fun id hid => Nat.lt_of_lt_of_le (h.entrypoint id hid) hcount,
    fun id hid => Nat.lt_of_lt_of_le (h.initializer id hid) hcount⟩
  · intro id method hmethod
    rcases getElem?_concat_cases hmethod with hearlier | ⟨rfl, rfl⟩
    · exact h.methodIds id method hearlier
    · rfl
  · exact fun type htype => (h.types type htype).mono (Nat.le_refl _) hcount
  · intro method hmethod
    rcases List.mem_append.mp hmethod with hearlier | hnew
    · exact h.methods method hearlier
    · obtain rfl := List.mem_singleton.mp hnew
      exact ⟨by rintro id ⟨⟩, ⟨List.forall_mem_nil _, TargetType.within_builtin _⟩,
        List.forall_mem_nil _⟩

theorem addGlobal {slot : GlobalSlot} (hid : slot.id = module.globals.length)
    (htype : slot.type.Within module.types.length) : (module.addGlobal slot).Framed := by
  refine ⟨h.typeIds, h.methodIds, ?_, h.types, h.methods, ?_, h.entrypoint, h.initializer⟩
  · intro id found hfound
    rcases getElem?_concat_cases hfound with hearlier | ⟨rfl, rfl⟩
    · exact h.globalIds id found hearlier
    · exact hid
  · intro found hfound
    rcases List.mem_append.mp hfound with hearlier | hnew
    · exact h.globals found hearlier
    · rwa [List.mem_singleton.mp hnew]

theorem modifyType (decl : TypeId) {f : TypeDecl → TypeDecl} (hid : ∀ type, (f type).id = type.id)
    (hf : ∀ type, type.Framed module.types.length module.methods.length →
      (f type).Framed module.types.length module.methods.length) :
    (module.modifyType decl f).Framed := by
  have hcount := module.length_modifyType decl f
  refine ⟨?_, h.methodIds, h.globalIds, ?_, ?_, ?_, h.entrypoint, h.initializer⟩
  · intro id type htype
    rw [type?_modifyType] at htype
    split at htype
    · obtain ⟨earlier, hearlier, rfl⟩ := Option.map_eq_some_iff.mp htype
      rw [hid, h.typeIds id earlier hearlier]
    · exact h.typeIds id type htype
  · intro type htype
    rw [hcount]
    rcases mem_modify_cases htype with hearlier | ⟨earlier, hearlier, rfl⟩
    · exact h.types type hearlier
    · exact hf earlier (h.types earlier (List.mem_of_getElem? hearlier))
  · rw [hcount]
    exact h.methods
  · rw [hcount]
    exact h.globals

theorem modifyMethod (id : MethodId) {f : MethodDecl → MethodDecl}
    (hid : ∀ method, (f method).id = method.id)
    (hf : ∀ method, method.Framed module.types.length →
      (f method).Framed module.types.length) : (module.modifyMethod id f).Framed := by
  have hcount := module.length_modifyMethod id f
  refine ⟨h.typeIds, ?_, h.globalIds, ?_, ?_, h.globals, by rw [hcount]; exact h.entrypoint,
    by rw [hcount]; exact h.initializer⟩
  · intro other method hmethod
    rw [method?_modifyMethod] at hmethod
    split at hmethod
    · obtain ⟨earlier, hearlier, rfl⟩ := Option.map_eq_some_iff.mp hmethod
      rw [hid, h.methodIds other earlier hearlier]
    · exact h.methodIds other method hmethod
  · rw [hcount]
    exact h.types
  · intro method hmethod
    rcases mem_modify_cases hmethod with hearlier | ⟨earlier, hearlier, rfl⟩
    · exact h.methods method hearlier
    · exact hf earlier (h.methods earlier (List.mem_of_getElem? hearlier))

end Framed

/-- A framed module whose methods have no code. -/
structure Hollow (module : TargetModule) : Prop extends module.Framed where
  bodies : ∀ method ∈ module.methods, method.body = []

namespace Hollow

variable (h : module.Hollow)

include h

theorem addType (name : String) (kind : DeclKind) : (module.addType name kind).2.Hollow :=
  ⟨h.toFramed.addType name kind, h.bodies⟩

theorem addMethod (name : String) (kind : MethodKind) :
    (module.addMethod name kind).2.Hollow := by
  refine ⟨h.toFramed.addMethod name kind, ?_⟩
  intro method hmethod
  rcases List.mem_append.mp hmethod with hearlier | hnew
  · exact h.bodies method hearlier
  · rw [List.mem_singleton.mp hnew]

theorem modifyType (decl : TypeId) {f : TypeDecl → TypeDecl} (hid : ∀ type, (f type).id = type.id)
    (hf : ∀ type, type.Framed module.types.length module.methods.length →
      (f type).Framed module.types.length module.methods.length) :
    (module.modifyType decl f).Hollow :=
  ⟨h.toFramed.modifyType decl hid hf, h.bodies⟩

theorem modifyMethod (id : MethodId) {f : MethodDecl → MethodDecl}
    (hid : ∀ method, (f method).id = method.id)
    (hf : ∀ method, method.Framed module.types.length → (f method).Framed module.types.length)
    (hbody : ∀ method, (f method).body = method.body) : (module.modifyMethod id f).Hollow := by
  refine ⟨h.toFramed.modifyMethod id hid hf, ?_⟩
  intro method hmethod
  rcases mem_modify_cases hmethod with hearlier | ⟨earlier, hearlier, rfl⟩
  · exact h.bodies method hearlier
  · rw [hbody, h.bodies earlier (List.mem_of_getElem? hearlier)]

theorem addClass (name code : String) (kind : DeclKind) {f : TypeDecl → TypeDecl}
    (hid : ∀ type, (f type).id = type.id) (hfields : ∀ type, (f type).fields = type.fields)
    (hbase : ∀ type base, (f type).base = some base →
      type.base = some base ∨ base < module.types.length)
    (hcode : ∀ type, (f type).constructor = some module.methods.length) :
    ((((module.addType name kind).2.addMethod code .constructor).2.modifyType module.types.length
      f).modifyMethod module.methods.length
        fun method => { method with owner := some module.types.length }).Hollow := by
  have hadded := (h.addType name kind).addMethod code .constructor
  have hlinked := hadded.modifyType module.types.length hid ?_
  · refine hlinked.modifyMethod _ (fun _ => rfl) ?_ fun _ => rfl
    intro method hmethod
    refine ⟨?_, hmethod.signature, hmethod.locals⟩
    rintro owner ⟨⟩
    rw [length_modifyType]
    simp [TargetModule.addMethod, TargetModule.addType]
  · intro type htype
    refine ⟨?_, by rw [hfields]; exact htype.fields, ?_⟩
    · intro base hsome
      rcases hbase type base hsome with hearlier | hlow
      · exact htype.base base hearlier
      · refine Nat.lt_of_lt_of_le hlow ?_
        simp [TargetModule.addMethod, TargetModule.addType]
    · intro id hsome
      rw [hcode] at hsome
      cases hsome
      simp [TargetModule.addMethod, TargetModule.addType]

theorem closed : module.Closed := by
  refine ⟨h.toFramed, ?_⟩
  intro method hmethod
  have hbody := h.bodies method hmethod
  exact ⟨by rw [hbody]; nofun, by rw [hbody]; nofun⟩

end Hollow

end TargetModule

/-! ## Mapped types -/

theorem Registry.Linked.decl_lt {registry : Registry} (h : registry.Linked) {index : TypeIndex}
    {decl : TypeId} (hdecl : registry.decl? index = some decl) :
    decl < registry.target.types.length := by
  obtain ⟨declaration, hdeclaration, rfl⟩ := Option.map_eq_some_iff.mp hdecl
  obtain ⟨type, htype, -⟩ := Option.bind_eq_some_iff.mp (h.decl index declaration hdeclaration)
  exact (List.getElem?_eq_some_iff.mp htype).1

section Mapping

variable {image : Image} {registry : Registry} {count : Nat}
  (hdecls : ∀ index decl, registry.decl? index = some decl → decl < count)

include hdecls

namespace TypeMapping

omit hdecls in
theorem within_of_signatureWith {mapType : TypeIndex → Except LoweringError TargetType}
    (hmap : ∀ index type, mapType index = .ok type → type.Within count) {source : FunctionType}
    {signature : Signature} (h : signatureWith mapType source = .ok signature) :
    signature.Within count := by
  obtain ⟨params, hparams, h⟩ := ok_of_bind h
  obtain ⟨ret, hret, h⟩ := ok_of_bind h
  cases h
  refine ⟨?_, hmap _ ret hret⟩
  intro param hparam
  obtain ⟨arg, -, hmapped⟩ := mem_of_mapM hparams hparam
  exact hmap arg param hmapped

theorem within_of_mapWithin (levels : Nat) (index : TypeIndex) {type : TargetType}
    (h : mapWithin image registry levels index = .ok type) : type.Within count := by
  intro id hid
  obtain ⟨leaf, hleaf⟩ := exists_of_mem_ids h hid
  exact hdecls leaf id hleaf

end TypeMapping

namespace Registry

theorem within_of_mapType {index : TypeIndex} {type : TargetType}
    (h : registry.mapType image index = .ok type) : type.Within count :=
  TypeMapping.within_of_mapWithin hdecls _ index h

theorem within_of_signatureOf {index : TypeIndex} {signature : Signature}
    (h : registry.signatureOf image index = .ok signature) : signature.Within count := by
  unfold signatureOf at h
  split at h
  · exact TypeMapping.within_of_signatureWith
      (fun arg _ => TypeMapping.within_of_mapWithin hdecls _ arg) h
  · cases h

end Registry

namespace ObjectLayout

theorem within_of_prototypeSignature {prototype : Prototype} {signature : Signature}
    (h : prototypeSignature image registry prototype = .ok signature) :
    signature.Within count := by
  unfold prototypeSignature at h
  split at h
  · obtain ⟨whole, hwhole, h⟩ := ok_of_bind h
    cases h
    have hwithin := registry.within_of_signatureOf hdecls hwhole
    exact ⟨fun param hparam => hwithin.params param (List.mem_of_mem_tail hparam), hwithin.ret⟩
  · cases h

theorem within_of_ownFields {object : ObjectType} {fields : List FieldDecl}
    (h : ownFields image object registry = .ok fields) :
    ∀ field ∈ fields, field.type.Within count := by
  intro field hfield
  obtain ⟨source, -, hstep⟩ := mem_of_mapM h hfield
  obtain ⟨type, htype, hstep⟩ := ok_of_bind hstep
  cases hstep
  exact registry.within_of_mapType hdecls htype

theorem within_of_slotFields {index : TypeIndex} {fields : List FieldDecl}
    (h : slotFields image index registry = .ok fields) :
    ∀ field ∈ fields, field.type.Within count := by
  obtain ⟨chain, -, h⟩ := ok_of_bind h
  obtain ⟨planned, -, h⟩ := ok_of_bind h
  intro field hfield
  obtain ⟨method, -, hstep⟩ := mem_of_mapM h hfield
  obtain ⟨signature, hsignature, hstep⟩ := ok_of_bind hstep
  cases hstep
  exact TargetType.within_ofSignature.mpr (within_of_prototypeSignature hdecls hsignature)

omit hdecls in
theorem baseOf_decl {object : ObjectType} {base : Option (TypeIndex × TypeId)}
    (h : baseOf object registry = .ok base) {parent : TypeIndex}
    (hparent : object.super = some parent) : base.map Prod.snd = registry.decl? parent := by
  unfold baseOf at h
  simp only [hparent] at h
  obtain ⟨⟨declaration, shape⟩, hdeclaration, h⟩ := ok_of_bind h
  cases h
  rw [Registry.decl?, (requireObject_ok hdeclaration).1]
  rfl

theorem lt_of_baseOf {object : ObjectType} {base : Option (TypeIndex × TypeId)}
    (h : baseOf object registry = .ok base) {decl : TypeId}
    (hdecl : base.map Prod.snd = some decl) : decl < count := by
  have hsuper := baseOf_ok h
  cases hparent : object.super with
  | none =>
      rw [hparent, Option.map_eq_none_iff] at hsuper
      rw [hsuper] at hdecl
      cases hdecl
  | some parent =>
      rw [baseOf_decl h hparent] at hdecl
      exact hdecls parent decl hdecl

end ObjectLayout

theorem VirtualLayout.within_of_recordFields {decl : TypeId} {fields : List Field}
    {flat : List FlatField} (h : recordFields image decl fields registry = .ok flat) :
    ∀ field ∈ flat, field.type.Within count := by
  intro field hfield
  obtain ⟨source, -, hstep⟩ := mem_of_mapM h hfield
  obtain ⟨type, htype, hstep⟩ := ok_of_bind hstep
  cases hstep
  exact registry.within_of_mapType hdecls htype

theorem EnumLayout.within_of_constructFields {decl : TypeId} {params : List TypeIndex}
    {flat : List FlatField} (h : constructFields image decl params registry = .ok flat) :
    ∀ field ∈ flat, field.type.Within count := by
  intro field hfield
  obtain ⟨source, -, hstep⟩ := mem_of_mapM h hfield
  obtain ⟨type, htype, hstep⟩ := ok_of_bind hstep
  cases hstep
  exact registry.within_of_mapType hdecls htype

end Mapping

/-! ## The first two passes over the type table -/

section Passes

variable {image : Image} {index : TypeIndex} {before after : Registry}

theorem ObjectLayout.resolve_hollow {object : ObjectType} {result : Unit}
    (hbefore : before.target.Hollow)
    (h : resolve index object before = .ok result after) : after.target.Hollow := by
  obtain ⟨decl, first, htype, h⟩ := Lowering.bind_ok h
  cases htype
  obtain ⟨constructor, second, hmethod, h⟩ := Lowering.bind_ok h
  cases hmethod
  obtain ⟨-, rfl⟩ := register_ok (Lowering.modifyTarget_bind h)
  exact hbefore.addClass _ _ _ (fun _ => rfl) (fun _ => rfl) (fun _ _ h => Or.inl h) fun _ => rfl

theorem VirtualLayout.resolve_hollow {result : Unit} (hbefore : before.target.Hollow)
    (h : resolve index before = .ok result after) : after.target.Hollow := by
  obtain ⟨decl, first, htype, h⟩ := Lowering.bind_ok h
  cases htype
  obtain ⟨constructor, second, hmethod, h⟩ := Lowering.bind_ok h
  cases hmethod
  obtain ⟨-, rfl⟩ := register_ok (Lowering.modifyTarget_bind h)
  exact hbefore.addClass _ _ _ (fun _ => rfl) (fun _ => rfl) (fun _ _ h => Or.inl h) fun _ => rfl

theorem AbstractLayout.resolve_hollow {name : String} {result : Unit}
    (hbefore : before.target.Hollow)
    (h : resolve index name before = .ok result after) : after.target.Hollow := by
  obtain ⟨decl, first, htype, h⟩ := Lowering.bind_ok h
  cases htype
  obtain ⟨-, rfl⟩ := register_ok (Lowering.modifyTarget_bind h)
  exact (hbefore.addType _ _).modifyType _ (fun _ => rfl)
    fun type htype => ⟨htype.base, htype.fields, htype.constructor⟩

theorem EnumLayout.resolveConstruct_hollow {name : String} {base : TypeId}
    {construct : EnumConstruct} {shape : ConstructShape} (hbefore : before.target.Hollow)
    (hbase : base < before.target.types.length)
    (h : resolveConstruct index name base construct before = .ok shape after) :
    after.target.Hollow ∧ base < after.target.types.length := by
  obtain ⟨decl, first, htype, h⟩ := Lowering.bind_ok h
  cases htype
  obtain ⟨constructor, second, hmethod, h⟩ := Lowering.bind_ok h
  cases hmethod
  have h := Lowering.modifyTarget_bind h
  cases h
  refine ⟨hbefore.addClass _ _ _ (fun _ => rfl) (fun _ => rfl) ?_ fun _ => rfl, ?_⟩
  · rintro type found ⟨⟩
    exact Or.inr hbase
  · refine Nat.lt_of_lt_of_le hbase ?_
    simp [TargetModule.modifyType, TargetModule.modifyMethod]

theorem EnumLayout.resolve_hollow {variants : EnumType} {result : Unit}
    (hbefore : before.target.Hollow)
    (h : resolve index variants before = .ok result after) : after.target.Hollow := by
  obtain ⟨decl, first, htype, h⟩ := Lowering.bind_ok h
  cases htype
  obtain ⟨constructs, made, hconstructs, h⟩ := Lowering.bind_ok (Lowering.modifyTarget_bind h)
  obtain ⟨-, rfl⟩ := register_ok h
  refine (Lowering.mapM_keeps (fun registry => registry.target.Hollow ∧
    before.target.types.length < registry.target.types.length) ?_ ?_ hconstructs).1
  · exact fun construct _ _ _ _ ⟨hhollow, hbase⟩ hstep =>
      resolveConstruct_hollow hhollow hbase hstep
  · refine ⟨(hbefore.addType _ _).modifyType _ (fun _ => rfl)
      fun type htype => ⟨htype.base, htype.fields, htype.constructor⟩, ?_⟩
    simp [TargetModule.modifyType]

theorem TypePasses.resolveType_hollow {source : SourceType} {result : Unit}
    (hbefore : before.target.Hollow)
    (h : resolveType (source, index) before = .ok result after) : after.target.Hollow := by
  cases source with
  | obj object | struct object => exact ObjectLayout.resolve_hollow hbefore h
  | enum variants => exact EnumLayout.resolve_hollow hbefore h
  | virtual fields => exact VirtualLayout.resolve_hollow hbefore h
  | abstract name => exact AbstractLayout.resolve_hollow hbefore h
  | _ =>
      cases h
      exact hbefore

theorem EnumLayout.withFields_hollow {module : TargetModule} (h : module.Hollow)
    (shape : ConstructShape) {flat : List FlatField}
    (hflat : ∀ field ∈ flat, field.type.Within module.types.length) :
    (withFields module shape flat).Hollow ∧
      (withFields module shape flat).types.length = module.types.length := by
  have hcount := module.length_modifyType shape.decl fun type =>
    { type with fields := flat.map fun field => ⟨field.name, field.type⟩ }
  have hclass : (module.modifyType shape.decl fun type =>
      { type with fields := flat.map fun field => ⟨field.name, field.type⟩ }).Hollow :=
    h.modifyType _ (fun _ => rfl)
      fun type htype => ⟨htype.base, List.forall_mem_map.mpr hflat, htype.constructor⟩
  refine ⟨hclass.modifyMethod _ (fun _ => rfl) ?_ fun _ => rfl, hcount⟩
  rw [hcount]
  exact fun method hmethod => ⟨hmethod.owner, ⟨List.forall_mem_map.mpr hflat,
    hmethod.signature.ret⟩, hmethod.locals⟩

theorem EnumLayout.built_hollow {module : TargetModule} (h : module.Hollow)
    {entries : List ((EnumConstruct × ConstructShape) × List FlatField)}
    (hentries : ∀ entry ∈ entries, ∀ field ∈ entry.2, field.type.Within module.types.length) :
    (entries.foldl (fun module entry => withFields module entry.1.2 entry.2) module).Hollow := by
  induction entries generalizing module with
  | nil => exact h
  | cons entry entries ih =>
      obtain ⟨hfirst, hothers⟩ := List.forall_mem_cons.mp hentries
      obtain ⟨hhollow, hcount⟩ := withFields_hollow h entry.1.2 hfirst
      exact ih hhollow (by rw [hcount]; exact hothers)

theorem TypePasses.defineType_hollow {source : SourceType} {result : Unit}
    (hlinked : before.Linked) (hbefore : before.target.Hollow)
    (h : defineType image (source, index) before = .ok result after) : after.target.Hollow := by
  have hdecls {registry : Registry} (hsame : registry.types = (before.update index
      fun declaration => { declaration with stage := .defined }).types)
      (other : TypeIndex) (decl : TypeId) (hdecl : registry.decl? other = some decl) :
      decl < before.target.types.length := by
    rw [Registry.decl?, Registry.declaration?, hsame] at hdecl
    refine hlinked.decl_lt (?_ : before.decl? other = some decl)
    rwa [← before.decl?_update_stage index .defined]
  cases source with
  | obj object | struct object =>
      obtain ⟨old, _, base, own, slots, -, hbase, hown, hslots, htarget, -⟩ :=
        ObjectLayout.define_ok h
      rw [htarget]
      refine hbefore.modifyType _ (fun _ => rfl) fun type htype => ⟨?_, ?_, htype.constructor⟩
      · exact fun decl => ObjectLayout.lt_of_baseOf (hdecls rfl) hbase
      · exact List.forall_mem_append.mpr ⟨ObjectLayout.within_of_ownFields (hdecls rfl) hown,
          ObjectLayout.within_of_slotFields (hdecls rfl) hslots⟩
  | virtual fields =>
      obtain ⟨old, _, flat, -, hflat, htarget, -⟩ := VirtualLayout.define_ok h
      rw [htarget]
      refine hbefore.modifyType _ (fun _ => rfl) fun type htype =>
        ⟨htype.base, ?_, htype.constructor⟩
      exact List.forall_mem_map.mpr (VirtualLayout.within_of_recordFields (hdecls rfl) hflat)
  | enum variants =>
      obtain ⟨old, shape, fields, -, hdefined, -⟩ := EnumLayout.define_ok h
      have hclass : (before.target.modifyType old.decl fun type =>
          { type with fields := [{ name := "index", type := .i32 }] }).Hollow :=
        hbefore.modifyType _ (fun _ => rfl) fun type htype => ⟨htype.base,
          List.forall_mem_singleton.mpr (TargetType.within_builtin _), htype.constructor⟩
      rw [hdefined.built]
      refine EnumLayout.built_hollow hclass fun entry hentry => ?_
      rw [TargetModule.length_modifyType]
      obtain ⟨i, hi⟩ := List.mem_iff_getElem?.mp (List.of_mem_zip hentry).2
      obtain ⟨pair, registry, -, hsame, hmapped⟩ := hdefined.mapped i _ hi
      exact EnumLayout.within_of_constructFields (hdecls hsame) hmapped
  | abstract name =>
      obtain ⟨old, -, -, rfl⟩ := advance_ok h
      exact hbefore
  | _ =>
      cases h
      exact hbefore

end Passes

theorem Registry.create_hollow (name : String) (typeCount functionCount : Nat) :
    (create name typeCount functionCount).target.Hollow := by
  have hmethod {method : MethodDecl}
      (hmem : method ∈ (create name typeCount functionCount).target.methods) :
      ∃ function, method = { id := function, name := s!"fun{function}", kind := .static } := by
    obtain ⟨function, -, rfl⟩ := List.mem_map.mp hmem
    exact ⟨function, rfl⟩
  refine ⟨⟨by rintro id type ⟨⟩, ?_, by rintro id slot ⟨⟩, List.forall_mem_nil _, ?_,
    List.forall_mem_nil _, by rintro id ⟨⟩, by rintro id ⟨⟩⟩, ?_⟩
  · intro id method hfound
    simp only [TargetModule.method?, create, List.getElem?_map] at hfound
    obtain ⟨function, hfunction, rfl⟩ := Option.map_eq_some_iff.mp hfound
    obtain ⟨hlength, hsame⟩ := List.getElem?_eq_some_iff.mp hfunction
    simpa using hsame.symm
  · intro method hmem
    obtain ⟨function, rfl⟩ := hmethod hmem
    exact ⟨by rintro id ⟨⟩, ⟨List.forall_mem_nil _, TargetType.within_builtin _⟩,
      List.forall_mem_nil _⟩
  · intro method hmem
    obtain ⟨function, rfl⟩ := hmethod hmem
    rfl

end BytecodeLowering
