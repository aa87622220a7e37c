import BytecodeLowering.Proofs.Body.References
import BytecodeLowering.Proofs.Lower.Preparation

/-!
# Compiled modules are closed

Behind the type table every step adds a slot, adds the initializer or changes
the method of one function, and it refers only to what the registry knows, so
that the module stays closed to its end.
-/

namespace BytecodeLowering

/-! ## Adding to a closed module -/

namespace TargetModule

variable {module : TargetModule}

theorem Closed.addGlobal (h : module.Closed) {slot : GlobalSlot}
    (hid : slot.id = module.globals.length) (htype : slot.type.Within module.types.length) :
    (module.addGlobal slot).Closed := by
  have hgrows : module.Grows (module.addGlobal slot) := by
    refine ⟨rfl, fun _ method hmethod => ⟨method, hmethod, rfl, fun _ howner => howner⟩, ?_⟩
    simp [TargetModule.addGlobal]
  exact ⟨h.toFramed.addGlobal hid htype, fun method hmethod => (h.code method hmethod).grows hgrows⟩

def addInitializer (module : TargetModule) (method : MethodDecl) : TargetModule :=
  { module with
    methods := module.methods ++ [method]
    initializer := some module.methods.length }

theorem Closed.addInitializer (h : module.Closed) {method : MethodDecl}
    (hid : method.id = module.methods.length) (hframed : method.Framed module.types.length)
    (hkind : method.kind ≠ .constructor)
    (hbody : ∀ instr ∈ method.body, instr.Refers module method.signature.params.length
      method.locals.length) : (module.addInitializer method).Closed := by
  have hcount : (module.addInitializer method).methods.length = module.methods.length + 1 :=
    List.length_append
  have hkeeps : module.Keeps (fun _ => False) (module.addInitializer method) :=
    .append (List.append_nil _).symm rfl
  have hgrows : module.Grows (module.addInitializer method) := hkeeps.grows rfl (Nat.le_refl _)
  have hoffset : method.argumentOffset = 0 := if_neg hkind
  refine ⟨⟨h.typeIds, ?_, h.globalIds, ?_, ?_, h.globals, ?_, ?_⟩, ?_⟩
  · intro id found hfound
    rcases getElem?_concat_cases hfound with hearlier | ⟨rfl, rfl⟩
    · exact h.methodIds id found hearlier
    · exact hid
  · intro type htype
    exact (h.types type htype).mono (Nat.le_refl _) (by omega)
  · intro found hfound
    rcases List.mem_append.mp hfound with hearlier | hnew
    · exact h.methods found hearlier
    · rwa [List.mem_singleton.mp hnew]
  · intro id hid
    exact Nat.lt_of_lt_of_le (h.entrypoint id hid) (by omega)
  · rintro id ⟨⟩
    exact Nat.lt_of_lt_of_eq (Nat.lt_succ_self _) hcount.symm
  · intro found hfound
    rcases List.mem_append.mp hfound with hearlier | hnew
    · exact (h.code found hearlier).grows hgrows
    · rw [List.mem_singleton.mp hnew]
      refine ⟨?_, fun hconstructor => absurd hconstructor hkind⟩
      rw [hoffset]
      exact fun instr hinstr => (hbody instr hinstr).grows hgrows

end TargetModule

/-! ## Registries that stay grounded -/

def Registry.Vacant (registry : Registry) : Prop :=
  ∀ function < registry.functions.length,
    (registry.target.method? function).map (·.body) = some []

namespace Registry

variable {before after : Registry}

theorem Anchored.keeps {free : MethodId → Prop} (h : before.Anchored)
    (htypes : after.types = before.types)
    (hfunctions : after.functions.length = before.functions.length)
    (hclasses : after.target.types = before.target.types)
    (htarget : before.target.Keeps free after.target)
    (hfree : ∀ id, free id → before.target.builds? id = none)
    (hclosed : after.target.Closed) : after.Anchored := by
  have hlook (index : TypeIndex) : after.declaration? index = before.declaration? index := by
    simp only [declaration?, htypes]
  have hclass (id : TypeId) : after.target.type? id = before.target.type? id := by
    simp only [TargetModule.type?, hclasses]
  refine ⟨h.toLinked.keeps htypes hfunctions htarget, hclosed, ?_⟩
  intro index declaration hfound
  rw [hlook] at hfound
  have hanchors := h.anchors index declaration hfound
  refine hanchors.keep ?_ (h.index index declaration hfound) (hclass _) ?_
  · refine hanchors.placed.keep (Or.inr hclasses) (fun id _ => hclass id) ?_
    intro constructor hconstructor
    have hbuilds := h.constructors index declaration hfound constructor hconstructor
    obtain ⟨method, hmethod, -⟩ := Option.bind_eq_some_iff.mp hbuilds
    rw [hmethod]
    refine htarget.signature (fun hid => ?_) (by rw [hmethod, Option.map_some])
    rw [hfree constructor hid] at hbuilds
    cases hbuilds
  · funext other
    simp only [decl?, hlook]

theorem Grounded.grows (h : before.Grounded) {methods : List MethodDecl}
    (htypes : after.types = before.types) (hfunctions : after.functions = before.functions)
    (hclasses : after.target.types = before.target.types)
    (hmethods : after.target.methods = before.target.methods ++ methods)
    (hclosed : after.target.Closed) : after.Grounded := by
  have htarget : before.target.Keeps (fun _ => False) after.target :=
    .append (hclasses.trans (List.append_nil _).symm) hmethods
  refine ⟨h.toAnchored.keeps htypes (by rw [hfunctions]) hclasses htarget nofun hclosed, ?_⟩
  intro function entry hentry
  rw [function?, hfunctions] at hentry
  obtain ⟨hmethod, hwithin, hsignature⟩ := h.functions function entry hentry
  rw [hclasses]
  exact ⟨hmethod, hwithin, htarget.signature id hsignature⟩

theorem Grounded.enters (h : before.Grounded) {function : Nat} {entry : FunctionEntry}
    {f : MethodDecl → MethodDecl} (hkind : ∀ method, (f method).kind = method.kind)
    (howner : ∀ method, (f method).owner = method.owner)
    (hfunction : function < before.functions.length) (hmethod : entry.method = function)
    (hwithin : entry.signature.Within before.target.types.length)
    (hsignature : ((before.target.method? function).map f).map (·.signature)
      = some entry.signature)
    (hclosed : (before.target.modifyMethod function f).Closed) :
    (before.enter function f entry).Grounded := by
  have htarget : before.target.Keeps (· = function) (before.target.modifyMethod function f) :=
    .modifyMethod _ _ hkind howner rfl
  have hfree (id : MethodId) (hid : id = function) : before.target.builds? id = none := by
    rw [hid]
    exact h.toLinked.builds?_eq_none hfunction
  refine ⟨h.toAnchored.keeps rfl List.length_set rfl htarget hfree hclosed, ?_⟩
  intro other found hfound
  rw [function?_enter hfunction] at hfound
  split at hfound
  · rename_i hsame
    subst hsame
    cases hfound
    refine ⟨hmethod, hwithin, ?_⟩
    rw [enter, TargetModule.method?_modifyMethod, if_pos rfl]
    exact hsignature
  · rename_i hother
    obtain ⟨hmethod, hwithin, hsignature⟩ := h.functions other found hfound
    exact ⟨hmethod, hwithin, htarget.signature (fun hsame => hother hsame.symm) hsignature⟩

theorem Vacant.grows (h : before.Vacant) {methods : List MethodDecl}
    (hfunctions : after.functions = before.functions)
    (hmethods : after.target.methods = before.target.methods ++ methods) : after.Vacant := by
  intro function hfunction
  rw [hfunctions] at hfunction
  obtain ⟨method, hmethod, hbody⟩ := Option.map_eq_some_iff.mp (h function hfunction)
  have hplace := getElem?_of_begins ⟨methods, hmethods.symm⟩ hmethod
  exact Option.map_eq_some_iff.mpr ⟨method, hplace, hbody⟩

end Registry

/-! ## Globals and initial values -/

section Preparing

variable {image : Image} {settings : Settings} {before after : Registry}

namespace GlobalSlots

theorem declare_grounded {type : TypeIndex} {result : Unit} (hbefore : before.Grounded)
    (h : declare image (type, before.target.globals.length) before = .ok result after) :
    after.Grounded := by
  obtain ⟨slot, hid, hmapped, rfl⟩ := declare_ok h
  refine hbefore.grows rfl rfl rfl (List.append_nil _).symm (hbefore.closed.addGlobal hid ?_)
  exact before.within_of_mapType (fun _ _ => hbefore.decl_lt) hmapped

theorem constantValue_refers {module : TargetModule} {global index : Nat} {source : SourceType}
    {code : List Instr} (h : constantValue image global source index = .ok code) :
    ∀ instr ∈ code, instr.Refers module 0 0 := by
  rcases constantValue_ok h with ⟨_, rfl⟩ | ⟨_, rfl⟩ | ⟨_, rfl⟩ | ⟨text, rfl⟩
  case inr.inr.inr =>
    exact List.forall_mem_cons.mpr ⟨trivial, List.forall_mem_singleton.mpr nofun⟩
  all_goals exact List.forall_mem_singleton.mpr trivial

theorem constantField_refers {module : TargetModule} {global : Nat} {field : FlatField}
    {index : Nat} {code : List Instr} (hfield : (module.field? field.field).isSome)
    (h : constantField image global (field, index) = .ok code) :
    ∀ instr ∈ code, instr.Refers module 0 0 := by
  obtain ⟨source, value, -, hvalue, rfl⟩ := constantField_ok h
  refine List.forall_mem_cons.mpr ⟨trivial, List.forall_mem_append.mpr ⟨?_, ?_⟩⟩
  · exact constantValue_refers hvalue
  · exact List.forall_mem_singleton.mpr hfield

theorem constantCode_refers {constant : Constant} {code : List Instr} (hbefore : before.Anchored)
    (h : constantCode image before constant = .ok code) :
    ∀ instr ∈ code, instr.Refers before.target 0 0 := by
  obtain ⟨type, shape, fields, hshape, hslot, hfields, rfl⟩ := constantCode_ok h
  obtain ⟨decl, -, hlinks, hplaced⟩ := hbefore.object hshape
  refine List.forall_mem_cons.mpr ⟨⟨decl, hlinks⟩, List.forall_mem_append.mpr ⟨?_, ?_⟩⟩
  · intro instr hinstr
    obtain ⟨part, hpart, hinstr⟩ := List.mem_flatten.mp hinstr
    obtain ⟨⟨field, index⟩, hitem, hcode⟩ := mem_of_mapM hfields hpart
    have hfield := hplaced.1 field (List.of_mem_zip hitem).1
    exact constantField_refers hfield.isSome hcode instr hinstr
  · exact List.forall_mem_singleton.mpr hslot

theorem lowerConstants_grounded {result : Option MethodId} (hbefore : before.Grounded)
    (h : lowerConstants image before = .ok result after) : after.Grounded := by
  rcases lowerConstants_ok h with rfl | ⟨code, hcode, rfl⟩
  · exact hbefore
  · refine hbefore.grows rfl rfl rfl rfl ?_
    refine hbefore.closed.addInitializer rfl ?_ nofun ?_
    · exact ⟨nofun, ⟨nofun, TargetType.within_builtin _⟩, nofun⟩
    · refine List.forall_mem_append.mpr ⟨?_, List.forall_mem_singleton.mpr trivial⟩
      intro instr hinstr
      obtain ⟨part, hpart, hinstr⟩ := List.mem_flatten.mp hinstr
      obtain ⟨constant, -, hconstant⟩ := mem_of_mapM hcode hpart
      exact constantCode_refers hbefore.toAnchored hconstant instr hinstr

end GlobalSlots

/-! ## Functions -/

namespace Methods

theorem within_of_localTypes {registers : List TypeIndex} {locals : List TargetType}
    (hbefore : before.Linked) (h : localTypes image registers before = .ok locals) :
    ∀ type ∈ locals, type.Within before.target.types.length := by
  intro type htype
  obtain ⟨index, -, hmapped⟩ := mem_of_mapM h htype
  split at hmapped
  · cases hmapped
    exact TargetType.within_builtin _
  · exact before.within_of_mapType (fun _ _ => hbefore.decl_lt) hmapped

theorem enter_grounded {index : TypeIndex} {function : Nat} {entry : FunctionEntry}
    {f : MethodDecl → MethodDecl} (hbefore : before.Grounded) (hempty : before.Vacant)
    (hvacant : before.functions[function]? = some none)
    (hsignature : before.signatureOf image index = .ok entry.signature)
    (hid : ∀ method, (f method).id = method.id) (hkind : ∀ method, (f method).kind = method.kind)
    (howner : ∀ method, (f method).owner = method.owner)
    (hbody : ∀ method, (f method).body = method.body)
    (hf : ∀ method, (f method).signature = entry.signature)
    (hlocals : ∀ method, method.Framed before.target.types.length →
      ∀ type ∈ (f method).locals, type.Within before.target.types.length)
    (hentry : entry.method = function) :
    (before.enter function f entry).Grounded ∧ (before.enter function f entry).Vacant := by
  have hfunction := (List.getElem?_eq_some_iff.mp hvacant).1
  have hwithin := before.within_of_signatureOf (fun _ _ => hbefore.decl_lt) hsignature
  obtain ⟨method, hmethod, hnone⟩ := Option.map_eq_some_iff.mp (hempty function hfunction)
  refine ⟨hbefore.enters hkind howner hfunction hentry hwithin ?_ ?_, ?_⟩
  · rw [hmethod, Option.map_some, Option.map_some, hf]
  · refine hbefore.closed.modifyMethod function hid hkind howner ?_ ?_
    · intro found hfound
      exact ⟨by rw [howner]; exact hfound.owner, by rw [hf]; exact hwithin, hlocals found hfound⟩
    · intro found hfound
      rw [TargetModule.method?_modifyMethod, if_pos rfl, hmethod] at hfound
      cases hfound
      exact ⟨by rw [hbody, hnone]; nofun, by rw [hbody, hnone]; nofun⟩
  · intro other hother
    rw [Registry.enter, TargetModule.method?_modifyMethod]
    rw [Registry.enter, List.length_set] at hother
    split
    · rw [← hempty other hother, Option.map_map]
      exact congrFun (congrArg _ (funext hbody)) _
    · exact hempty other hother

theorem defineFunction_grounded {names : List (Nat × String)} {function : FunctionDef}
    {result : Unit} (hbefore : before.Grounded ∧ before.Vacant)
    (h : defineFunction image names function before = .ok result after) :
    after.Grounded ∧ after.Vacant := by
  obtain ⟨signature, locals, hvacant, hsignature, hlocals, rfl⟩ := defineFunction_ok h
  exact enter_grounded hbefore.1 hbefore.2 hvacant hsignature (fun _ => rfl) (fun _ => rfl)
    (fun _ => rfl) (fun _ => rfl) (fun _ => rfl)
    (fun _ _ => within_of_localTypes hbefore.1.toLinked hlocals) rfl

theorem defineNative_grounded {native : Native} {result : Unit}
    (hbefore : before.Grounded ∧ before.Vacant)
    (h : defineNative image native before = .ok result after) :
    after.Grounded ∧ after.Vacant := by
  obtain ⟨signature, hvacant, hsignature, rfl⟩ := defineNative_ok h
  exact enter_grounded hbefore.1 hbefore.2 hvacant hsignature (fun _ => rfl) (fun _ => rfl)
    (fun _ => rfl) (fun _ => rfl) (fun _ => rfl) (fun _ hmethod => hmethod.locals) rfl

theorem defineAll_grounded {result : Unit} (hbefore : before.Grounded ∧ before.Vacant)
    (h : defineAll image before = .ok result after) : after.Grounded ∧ after.Vacant := by
  obtain ⟨names, middle, hfunctions, hnatives⟩ := defineAll_ok h
  have hmiddle := Lowering.forM_keeps (fun registry => registry.Grounded ∧ registry.Vacant)
    (fun _ _ _ _ _ hold hstep => defineFunction_grounded hold hstep) hbefore hfunctions
  exact Lowering.forM_keeps (fun registry => registry.Grounded ∧ registry.Vacant)
    (fun _ _ _ _ _ hold hstep => defineNative_grounded hold hstep) hmiddle hnatives

theorem compileFunction_grounded {function : FunctionDef} {stats : BodyStats}
    (hbefore : before.Grounded)
    (h : compileFunction image settings function before = .ok stats after) : after.Grounded := by
  obtain ⟨entry, result, hentry, hlower, rfl⟩ := compileFunction_ok h
  obtain ⟨hmethod, hwithin, hsignature⟩ := hbefore.functions function.index entry hentry
  have hlength := (List.getElem?_eq_some_iff.mp (Option.join_eq_some_iff.mp hentry)).1
  obtain ⟨hbody, hlocals⟩ := FunctionDef.refers_of_lower hbefore hwithin hlower
  rw [hmethod]
  refine hbefore.enters (fun _ => rfl) (fun _ => rfl) hlength rfl hwithin ?_ ?_
  · rw [← hsignature, Option.map_map]
    rfl
  · refine hbefore.closed.modifyMethod _ (fun _ => rfl) (fun _ => rfl) (fun _ => rfl)
      (fun _ hframed => ⟨hframed.owner, hframed.signature, hlocals⟩) ?_
    intro method hfound
    rw [TargetModule.method?_modifyMethod, if_pos rfl] at hfound
    obtain ⟨earlier, hearlier, rfl⟩ := Option.map_eq_some_iff.mp hfound
    have hstatic := hbefore.reserved function.index hlength
    rw [hearlier, Option.map_some] at hstatic hsignature
    have hkind : earlier.kind = .static := Option.some.inj hstatic
    refine ⟨?_, fun hconstructor => absurd (hkind.symm.trans hconstructor) nofun⟩
    intro instr hinstr
    have hoffset : MethodDecl.argumentOffset
        { earlier with body := result.body, locals := result.locals } = 0 :=
      if_neg (by rw [hkind]; nofun)
    rw [hoffset, Option.some.inj hsignature]
    exact (hbody instr hinstr).grows (.modifyMethod _ (fun _ => rfl) fun _ => rfl)

theorem markCompiled_grounded {function : Nat} {result : Unit} (hbefore : before.Grounded)
    (h : Registry.markCompiled function before = .ok result after) : after.Grounded := by
  obtain ⟨entry, hentry, rfl⟩ := Registry.markCompiled_ok h
  have hlength := (List.getElem?_eq_some_iff.mp (Option.join_eq_some_iff.mp hentry)).1
  refine ⟨hbefore.toAnchored.keeps rfl List.length_set rfl (.refl _) (fun _ => False.elim)
    hbefore.closed, ?_⟩
  intro other found hfound
  simp only [Registry.function?, List.getElem?_set, if_pos hlength] at hfound
  split at hfound
  · rename_i hsame
    subst hsame
    cases hfound
    exact hbefore.functions function entry hentry
  · exact hbefore.functions other found hfound

theorem selectEntrypoint_closed {result : Unit} (hbefore : before.Grounded)
    (h : selectEntrypoint image before = .ok result after) : after.target.Closed := by
  rcases selectEntrypoint_ok h with rfl | rfl
  · exact hbefore.closed
  · have hclosed := hbefore.closed
    refine ⟨⟨hclosed.typeIds, hclosed.methodIds, hclosed.globalIds, hclosed.types,
      hclosed.methods, hclosed.globals, fun _ => hbefore.reserved_lt, hclosed.initializer⟩, ?_⟩
    intro method hmethod
    have hgrows : before.target.Grows
        { before.target with entrypoint := before.method? image.entrypoint } :=
      ⟨rfl, fun _ method hmethod => ⟨method, hmethod, rfl, fun _ howner => howner⟩, Nat.le_refl _⟩
    exact (hclosed.code method hmethod).grows hgrows

theorem compileAll_closed {stats : BodyStats} (hbefore : before.Grounded)
    (h : compileAll image settings before = .ok stats after) : after.target.Closed := by
  obtain ⟨found, coded, marked, hcoded, hmarked, hselect⟩ := compileAll_ok h
  have hfunctions := Lowering.mapM_keeps Registry.Grounded
    (fun _ _ _ _ _ hold hstep => compileFunction_grounded hold hstep) hbefore hcoded
  have hnatives := Lowering.forM_keeps Registry.Grounded
    (fun _ _ _ _ _ hold hstep => markCompiled_grounded hold hstep) hfunctions hmarked
  exact selectEntrypoint_closed hnatives hselect

end Methods

/-! ## Whole images -/

namespace Image

theorem method?_registry {function : Nat}
    (h : function < (image.registry settings).functions.length) :
    (image.registry settings).target.method? function
      = some { id := function, name := s!"fun{function}", kind := .static } := by
  simp only [registry, Registry.create, List.length_replicate] at h
  simp [registry, Registry.create, TargetModule.method?, h]

theorem declared_grounded {typed declared : Registry} {result : Unit}
    (htypes : TypePasses.run image (image.registry settings) = .ok () typed)
    (hglobals : GlobalSlots.declareAll image typed = .ok result declared) :
    declared.Grounded ∧ declared.Vacant := by
  have hanchored := TypePasses.run_anchored (Registry.create_defining _ _ _) htypes
  have hspares : (image.registry settings).Spares typed :=
    TypePasses.run_spares (Registry.create_linked _ _ _) htypes
  have htyped : typed.Grounded := by
    refine ⟨hanchored, ?_⟩
    intro function entry hentry
    rw [Registry.function?, hspares.functions] at hentry
    cases ((Registry.create_typesOnly _ _ _).functions function).symm.trans hentry
  have hvacant : typed.Vacant := by
    intro function hfunction
    rw [hspares.functions] at hfunction
    rw [hspares.methods function hfunction, Image.method?_registry hfunction, Option.map_some]
  refine (Lowering.forM_zipIdx (fun count registry => (registry.Grounded ∧ registry.Vacant) ∧
    registry.target.globals.length = count) ?_ ⟨⟨htyped, hvacant⟩, ?_⟩ hglobals).1
  · rintro i type - first _ second ⟨⟨hgrounded, hempty⟩, hcount⟩ hstep
    rw [← hcount] at hstep
    have hgrown := GlobalSlots.declare_grounded hgrounded hstep
    obtain ⟨slot, -, -, rfl⟩ := GlobalSlots.declare_ok hstep
    refine ⟨⟨hgrown, hempty.grows rfl (List.append_nil _).symm⟩, ?_⟩
    rw [← hcount]
    exact List.length_append
  · rw [hspares.globals]
    rfl

theorem initial_grounded {declared initial : Registry} {found : Option MethodId}
    (hdeclared : declared.Grounded ∧ declared.Vacant)
    (hconstants : GlobalSlots.lowerConstants image declared = .ok found initial) :
    initial.Grounded ∧ initial.Vacant := by
  refine ⟨GlobalSlots.lowerConstants_grounded hdeclared.1 hconstants, ?_⟩
  rcases GlobalSlots.lowerConstants_ok hconstants with rfl | ⟨code, -, rfl⟩
  · exact hdeclared.2
  · exact hdeclared.2.grows rfl rfl

theorem prepare_grounded {result : Unit}
    (h : image.prepare (image.registry settings) = .ok result after) :
    after.Grounded ∧ after.Vacant := by
  obtain ⟨typed, declared, found, initial, htypes, hglobals, hconstants, hmethods⟩ := prepare_ok h
  exact Methods.defineAll_grounded
    (initial_grounded (declared_grounded htypes hglobals) hconstants) hmethods

/-- A compiled module is closed: every declaration carries its position, and
every type, field, global, method, argument and local that a declaration or an
instruction names exists.  A new object comes from a constructor that is linked
to its class, and a constructor calls no method but that of its base. -/
theorem closed_of_compile {target : TargetModule} (h : image.compile settings = .ok target) :
    target.Closed := by
  obtain ⟨stats, registry, hlowering, rfl⟩ := compile_ok h
  obtain ⟨prepared, hprepare, hcompile⟩ := lowering_ok hlowering
  exact Methods.compileAll_closed (prepare_grounded hprepare).1 hcompile

end Image

end Preparing

def getterOf (index : Nat) : FunctionDef where
  index := index
  type := 4
  registers := [2, 1]
  operations := [⟨.field, [1, 0, 0]⟩, ⟨.ret, [1]⟩]
  lines := none
  names := []

def makesAll : FunctionDef where
  index := 3
  type := 7
  registers := [3, 1, 5, 6, 8]
  operations := [⟨.new, [0]⟩, ⟨.callMethod, [1, 0, 0]⟩, ⟨.makeEnum, [2, 0, 1]⟩,
    ⟨.toVirtual, [3, 0]⟩, ⟨.getGlobal, [0, 0]⟩, ⟨.call0, [1, 2]⟩, ⟨.instanceClosure, [4, 0, 0]⟩,
    ⟨.callClosure, [1, 4]⟩, ⟨.ret, [1]⟩]
  lines := none
  names := []

/-- A class and its base, an enum, a record, a global with an initial value,
three functions and a native between them. -/
def mixedImage : Image where
  version := 4
  ints := [5, 7]
  strings := ["Base", "Derived", "x", "y", "f", "Choice", "one", "none", "std", "answer"]
  types := [
    .void,
    .i32,
    .obj ⟨"Base", none, none, [⟨"x", 1⟩], [⟨"f", 0, 0⟩], []⟩,
    .obj ⟨"Derived", some 2, none, [⟨"y", 1⟩], [⟨"f", 1, 0⟩], []⟩,
    .func ⟨[2], 1⟩,
    .enum ⟨"Choice", none, [⟨"one", [1]⟩, ⟨"none", []⟩]⟩,
    .virtual [⟨"x", 1⟩],
    .func ⟨[], 1⟩,
    .func ⟨[], 1⟩]
  globals := [3]
  natives := [⟨2, "std", "answer", 7⟩]
  functions := [getterOf 0, getterOf 1, makesAll]
  constants := [⟨0, [0, 1]⟩]
  entrypoint := 3
  functionTable := FunctionTable.build [0, 1, 3] [2]

theorem closed_of_compile_mixed :
    ∃ target, mixedImage.compile {} = .ok target ∧ target.methods.length = 10 ∧
      target.Closed := by
  have hrun : ((mixedImage.compile {}).toOption.map (·.methods.length)) = some 10 := by
    decide +kernel
  obtain ⟨target, hcompile, hcount⟩ := ok_of_map_toOption hrun
  exact ⟨target, hcompile, hcount, Image.closed_of_compile hcompile⟩

end BytecodeLowering
