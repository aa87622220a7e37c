import BytecodeLowering.Proofs.Lower.MethodSteps
import BytecodeLowering.Proofs.Lower.Typing

/-!
# Prepared registries

Registries that are prepared for the lowering of bodies.  Types, globals and
signatures are declared one after the other, every body may then be lowered in
turn, and the registry is sound in front of each of them.
-/

namespace BytecodeLowering

/-! ## The passes over the type table -/

/-- The functions with their methods and the globals of a registry are as before. -/
structure Registry.Spares (before after : Registry) : Prop where
  functions : after.functions = before.functions
  globals : after.target.globals = before.target.globals
  methods : ∀ function < before.functions.length,
    after.target.method? function = before.target.method? function

theorem Registry.Spares.trans {first second third : Registry} (h : first.Spares second)
    (hnext : second.Spares third) : first.Spares third where
  functions := hnext.functions.trans h.functions
  globals := hnext.globals.trans h.globals
  methods function hfunction :=
    (hnext.methods function (by rwa [h.functions])).trans (h.methods function hfunction)

theorem Registry.Linked.function_not_mem {registry : Registry} (h : registry.Linked)
    {function : Nat} (hfunction : function < registry.functions.length) {index : TypeIndex}
    {declaration : Declaration} (hfound : registry.declaration? index = some declaration) :
    function ∉ declaration.shape.constructors := by
  intro hmem
  have hkind := TargetModule.kind_of_builds? (h.constructors index declaration hfound function hmem)
  rw [h.reserved function hfunction] at hkind
  cases hkind

theorem Registry.Linked.spares {before after : Registry} {free : MethodId → Prop}
    (h : before.Linked) (hfunctions : after.functions = before.functions)
    (hglobals : after.target.globals = before.target.globals)
    (htarget : before.target.Keeps free after.target)
    (hfree : ∀ function < before.functions.length, ¬ free function) : before.Spares after := by
  refine ⟨hfunctions, hglobals, ?_⟩
  intro function hfunction
  obtain ⟨method, hmethod, -⟩ := Option.map_eq_some_iff.mp (h.reserved function hfunction)
  rw [hmethod, htarget.method (hfree function hfunction) hmethod]

structure Registry.TypesOnly (registry : Registry) : Prop extends registry.Typed where
  functions : ∀ function, registry.function? function = none
  globals : registry.target.globals = []

namespace Registry

variable {before after : Registry}

theorem create_typesOnly (name : String) (typeCount functionCount : Nat) :
    (create name typeCount functionCount).TypesOnly := by
  refine ⟨⟨create_linked name typeCount functionCount, nofun, ?_⟩, ?_, rfl⟩
  · intro index declaration hfound
    simp at hfound
  · exact function?_create name typeCount functionCount

theorem TypesOnly.keeps (h : before.TypesOnly) (htyped : after.Typed)
    (hfunctions : after.functions = before.functions)
    (hglobals : after.target.globals = before.target.globals) : after.TypesOnly := by
  refine ⟨htyped, ?_, hglobals.trans h.globals⟩
  intro function
  rw [function?, hfunctions]
  exact h.functions function

theorem Typed.enter {stage : Option Stage} (h : before.Typed) :
    Typed { before with pass := stage } :=
  ⟨h.toLinked.enter, h.classes, h.shapes⟩

end Registry

namespace TypePasses

variable {image : Image} {before after : Registry}

theorem run_spares {result : Unit} (hbefore : before.Linked)
    (h : run image before = .ok result after) : before.Spares after := by
  obtain ⟨resolved, defined, hresolve, hdefine, hcompile⟩ := run_ok h
  let holds (registry : Registry) : Prop := registry.Linked ∧ before.Spares registry
  have henter (stage : Stage) (registry : Registry) (hold : holds registry) :
      holds { registry with pass := some stage } :=
    ⟨hold.1.enter, ⟨hold.2.functions, hold.2.globals, hold.2.methods⟩⟩
  have hchange {index : TypeIndex} {first second : Registry} {old new : Declaration}
      (hold : holds first) (hchanges : Registry.Changes index old new first second) :
      holds second :=
    ⟨hold.1.changes hchanges, hold.2.trans (hold.1.spares hchanges.functions hchanges.globals
      hchanges.target fun _ hfunction => hold.1.function_not_mem hfunction hchanges.found)⟩
  have hresolved : holds resolved := by
    refine pass_keeps holds hresolve (henter _) ?_ ⟨hbefore, ⟨rfl, rfl, fun _ _ => rfl⟩⟩
    intro index source _ first _ second hold hstep
    rcases resolveType_ok hstep with rfl | ⟨declaration, hresolves, -⟩
    · exact hold
    · exact ⟨hold.1.resolves hresolves, hold.2.trans (hold.1.spares hresolves.functions
        hresolves.globals hresolves.target fun _ _ => id)⟩
  have hdefined : holds defined := by
    refine pass_keeps holds hdefine (henter _) ?_ hresolved
    intro index source _ first _ second hold hstep
    rcases defineType_ok hstep with rfl | ⟨old, new, hchanges⟩
    · exact hold
    · exact hchange hold hchanges
  refine (pass_keeps holds hcompile (henter _) ?_ hdefined).2
  intro index source _ first _ second hold hstep
  rcases compileType_ok hstep with rfl | ⟨old, new, -, hchanges, -⟩
  · exact hold
  · exact hchange hold hchanges

theorem run_typed (himage : image.Voidless) {result : Unit} (hbefore : before.Typed)
    (h : run image before = .ok result after) : after.Typed := by
  obtain ⟨resolved, defined, hresolve, hdefine, hcompile⟩ := run_ok h
  have hresolved : resolved.Typed :=
    pass_keeps Registry.Typed hresolve (fun _ hold => hold.enter)
      (fun _ _ _ _ _ _ hold hstep => resolveType_typed hold hstep) hbefore
  have hdefined : defined.Typed :=
    pass_keeps Registry.Typed hdefine (fun _ hold => hold.enter)
      (fun _ _ hsource _ _ _ hold hstep => defineType_typed himage hsource hold hstep) hresolved
  exact pass_keeps Registry.Typed hcompile (fun _ hold => hold.enter)
    (fun _ _ _ _ _ _ hold hstep => compileType_typed himage hold hstep) hdefined

theorem run_typesOnly (himage : image.Voidless) {result : Unit} (hbefore : before.TypesOnly)
    (h : run image before = .ok result after) : after.TypesOnly := by
  have hspares := run_spares hbefore.toLinked h
  exact hbefore.keeps (run_typed himage hbefore.toTyped h) hspares.functions hspares.globals

end TypePasses

/-! ## Globals and functions -/

structure Registry.Ready (registry : Registry) : Prop extends registry.Typed where
  functions : ∀ function entry, registry.function? function = some entry →
    entry.method = function ∧ entry.signature.Proper ∧
      (registry.target.method? function).map (·.signature) = some entry.signature
  globals : ∀ slot ∈ registry.target.globals, slot.type.Held

namespace Registry

variable {before after : Registry}

theorem TypesOnly.ready (h : before.TypesOnly) : before.Ready := by
  refine ⟨h.toTyped, ?_, ?_⟩
  · intro function entry hentry
    rw [h.functions] at hentry
    cases hentry
  · rw [h.globals]
    nofun

theorem Ready.sound (h : before.Ready) : before.Sound := by
  have hshape {index : TypeIndex} {declaration : Declaration}
      (hfound : before.declaration? index = some declaration) :
      declaration.shape.Sound before.target := h.shapes index declaration hfound
  refine ⟨?_, ?_, ?_, ?_, h.globals⟩
  · intro function entry hentry
    obtain ⟨rfl, hproper, hsignature⟩ := h.functions function entry hentry
    have hlength : entry.method < before.functions.length :=
      (List.getElem?_eq_some_iff.mp (Option.join_eq_some_iff.mp hentry)).1
    obtain ⟨method, hmethod, hkind⟩ := Option.map_eq_some_iff.mp (h.reserved _ hlength)
    refine ⟨?_, ?_, hproper⟩
    · simp [CallTarget.receivers, hmethod, MethodDecl.argumentOffset, hkind]
    · simp [CallTarget.signature, hsignature]
  · intro index shape hobject
    unfold object? at hobject
    split at hobject
    · rename_i hfound
      cases hobject
      exact hshape hfound
    · cases hobject
  · intro index shape hvirtual
    unfold virtual? at hvirtual
    split at hvirtual
    · rename_i hfound
      cases hvirtual
      exact hshape hfound
    · cases hvirtual
  · intro index shape henum
    unfold enum? at henum
    split at henum
    · rename_i hfound
      cases henum
      exact hshape hfound
    · cases henum

theorem Typed.keeps {free : MethodId → Prop} (h : before.Typed)
    (htypes : after.types = before.types)
    (hfunctions : after.functions.length = before.functions.length)
    (hclasses : after.target.types = before.target.types)
    (htarget : before.target.Keeps free after.target)
    (hfree : ∀ id, free id → before.target.builds? id = none) : after.Typed := by
  refine ⟨h.toLinked.keeps htypes hfunctions htarget, by rw [hclasses]; exact h.classes, ?_⟩
  intro index declaration hfound
  rw [declaration?, htypes] at hfound
  refine (h.shapes index declaration hfound).keep ?_
  intro constructor hconstructor
  have hbuilds := h.constructors index declaration hfound constructor hconstructor
  refine htarget.callSignature hbuilds fun hid => ?_
  rw [hfree constructor hid] at hbuilds
  cases hbuilds

theorem Linked.builds?_eq_none (h : before.Linked) {function : Nat}
    (hfunction : function < before.functions.length) : before.target.builds? function = none := by
  cases hbuilds : before.target.builds? function with
  | none => rfl
  | some index =>
      have hkind := TargetModule.kind_of_builds? hbuilds
      rw [h.reserved function hfunction] at hkind
      cases hkind

theorem Ready.grows (h : before.Ready) {methods : List MethodDecl}
    (htypes : after.types = before.types) (hfunctions : after.functions = before.functions)
    (hclasses : after.target.types = before.target.types)
    (hmethods : after.target.methods = before.target.methods ++ methods)
    (hglobals : ∀ slot ∈ after.target.globals, slot.type.Held) : after.Ready := by
  have htarget : before.target.Keeps (fun _ => False) after.target :=
    .append (hclasses.trans (List.append_nil _).symm) hmethods
  refine ⟨h.toTyped.keeps htypes (by rw [hfunctions]) hclasses htarget nofun, ?_, hglobals⟩
  intro function entry hentry
  rw [function?, hfunctions] at hentry
  obtain ⟨hmethod, hproper, hsignature⟩ := h.functions function entry hentry
  exact ⟨hmethod, hproper, htarget.signature id hsignature⟩

theorem Ready.enters (h : before.Ready) {function : Nat} {entry : FunctionEntry}
    {f : MethodDecl → MethodDecl} (hkind : ∀ method, (f method).kind = method.kind)
    (howner : ∀ method, (f method).owner = method.owner)
    (hfunction : function < before.functions.length) (hmethod : entry.method = function)
    (hproper : entry.signature.Proper)
    (hsignature : ((before.target.method? function).map f).map (·.signature)
      = some entry.signature) : (before.enter function f entry).Ready := by
  have htarget : before.target.Keeps (· = function) (before.target.modifyMethod function f) :=
    .modifyMethod _ _ hkind howner rfl
  have hfree (id : MethodId) (hid : id = function) : before.target.builds? id = none := by
    rw [hid]
    exact h.toLinked.builds?_eq_none hfunction
  refine ⟨h.toTyped.keeps rfl List.length_set rfl htarget hfree, ?_, h.globals⟩
  intro other found hfound
  rw [function?_enter hfunction] at hfound
  split at hfound
  · rename_i hsame
    subst hsame
    cases hfound
    refine ⟨hmethod, hproper, ?_⟩
    rw [enter, TargetModule.method?_modifyMethod, if_pos rfl]
    exact hsignature
  · rename_i hother
    obtain ⟨hmethod, hproper, hsignature⟩ := h.functions other found hfound
    exact ⟨hmethod, hproper, htarget.signature (fun hsame => hother hsame.symm) hsignature⟩

end Registry

section Preparing

variable {image : Image} {settings : Settings} {before after : Registry}

theorem GlobalSlots.declare_ready (himage : image.Voidless) {type : TypeIndex}
    (htype : type ∈ image.globals) {number : Nat} {result : Unit} (hbefore : before.Ready)
    (h : declare image (type, number) before = .ok result after) : after.Ready := by
  obtain ⟨found, -, hmapped, rfl⟩ := declare_ok h
  refine hbefore.grows rfl rfl rfl (List.append_nil _).symm ?_
  intro slot hslot
  rcases List.mem_append.mp hslot with hslot | hslot
  · exact hbefore.globals slot hslot
  · rw [List.mem_singleton.mp hslot]
    exact before.held_of_mapType himage (himage.globals type htype) hmapped

theorem GlobalSlots.lowerConstants_ready {result : Option MethodId} (hbefore : before.Ready)
    (h : lowerConstants image before = .ok result after) : after.Ready := by
  rcases lowerConstants_ok h with rfl | ⟨code, -, rfl⟩
  · exact hbefore
  · exact hbefore.grows rfl rfl rfl rfl hbefore.globals

namespace Methods

theorem enter_ready (himage : image.Voidless) {index : TypeIndex} {function : Nat}
    {entry : FunctionEntry} {f : MethodDecl → MethodDecl} (hbefore : before.Ready)
    (hvacant : before.functions[function]? = some none)
    (hsignature : before.signatureOf image index = .ok entry.signature)
    (hkind : ∀ method, (f method).kind = method.kind)
    (howner : ∀ method, (f method).owner = method.owner)
    (hf : ∀ method, (f method).signature = entry.signature) (hentry : entry.method = function) :
    (before.enter function f entry).Ready := by
  have hfunction := (List.getElem?_eq_some_iff.mp hvacant).1
  obtain ⟨method, hmethod, -⟩ := Option.map_eq_some_iff.mp (hbefore.reserved function hfunction)
  refine hbefore.enters hkind howner hfunction hentry
    (before.proper_of_signatureOf himage hsignature) ?_
  rw [hmethod, Option.map_some, Option.map_some, hf]

theorem defineFunction_ready (himage : image.Voidless) {names : List (Nat × String)}
    {function : FunctionDef} {result : Unit} (hbefore : before.Ready)
    (h : defineFunction image names function before = .ok result after) : after.Ready := by
  obtain ⟨signature, locals, hvacant, hsignature, -, rfl⟩ := defineFunction_ok h
  exact enter_ready himage hbefore hvacant hsignature (fun _ => rfl) (fun _ => rfl) (fun _ => rfl)
    rfl

theorem defineNative_ready (himage : image.Voidless) {native : Native} {result : Unit}
    (hbefore : before.Ready) (h : defineNative image native before = .ok result after) :
    after.Ready := by
  obtain ⟨signature, hvacant, hsignature, rfl⟩ := defineNative_ok h
  exact enter_ready himage hbefore hvacant hsignature (fun _ => rfl) (fun _ => rfl) (fun _ => rfl)
    rfl

theorem defineAll_ready (himage : image.Voidless) {result : Unit} (hbefore : before.Ready)
    (h : defineAll image before = .ok result after) : after.Ready := by
  obtain ⟨names, middle, hfunctions, hnatives⟩ := defineAll_ok h
  have hmiddle : middle.Ready :=
    Lowering.forM_keeps Registry.Ready
      (fun _ _ _ _ _ hready hstep => defineFunction_ready himage hready hstep) hbefore hfunctions
  exact Lowering.forM_keeps Registry.Ready
    (fun _ _ _ _ _ hready hstep => defineNative_ready himage hready hstep) hmiddle hnatives

/-! ## Bodies -/

theorem compileFunction_ready {function : FunctionDef} {stats : BodyStats}
    (hbefore : before.Ready)
    (h : compileFunction image settings function before = .ok stats after) : after.Ready := by
  obtain ⟨entry, result, hentry, -, rfl⟩ := compileFunction_ok h
  obtain ⟨hmethod, hproper, hsignature⟩ := hbefore.functions function.index entry hentry
  have hlength := (List.getElem?_eq_some_iff.mp (Option.join_eq_some_iff.mp hentry)).1
  rw [hmethod]
  refine hbefore.enters (fun _ => rfl) (fun _ => rfl) hlength rfl hproper ?_
  rw [← hsignature, Option.map_map]
  rfl

end Methods

theorem Image.prepare_ready (himage : image.Voidless) {result : Unit}
    (h : image.prepare (image.registry settings) = .ok result after) : after.Ready := by
  obtain ⟨typed, declared, found, initial, htypes, hglobals, hconstants, h⟩ := prepare_ok h
  have htyped : typed.Ready :=
    (TypePasses.run_typesOnly himage (Registry.create_typesOnly _ _ _) htypes).ready
  have hdeclared : declared.Ready := by
    refine Lowering.forM_keeps Registry.Ready ?_ htyped hglobals
    intro ⟨type, number⟩ hitem before _ after hready hstep
    exact GlobalSlots.declare_ready himage (List.fst_mem_of_mem_zipIdx hitem) hready hstep
  exact Methods.defineAll_ready himage (GlobalSlots.lowerConstants_ready hdeclared hconstants) h

/-- The registries in which the bodies of an image are lowered. -/
inductive Image.Prepared (image : Image) (settings : Settings) : Registry → Prop
  | first {registry : Registry} (h : image.prepare (image.registry settings) = .ok () registry) :
      Prepared image settings registry
  | next {before after : Registry} {function : FunctionDef} {stats : BodyStats}
      (hbefore : Prepared image settings before)
      (h : Methods.compileFunction image settings function before = .ok stats after) :
      Prepared image settings after

theorem Image.Prepared.ready {registry : Registry} (himage : image.Voidless)
    (h : image.Prepared settings registry) : registry.Ready := by
  induction h with
  | first h => exact prepare_ready himage h
  | next _ h ih => exact Methods.compileFunction_ready ih h

end Preparing

end BytecodeLowering
