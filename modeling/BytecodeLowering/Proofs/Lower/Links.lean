import BytecodeLowering.Lower.TypePasses
import BytecodeLowering.Proofs.Lower.Steps
import BytecodeLowering.Proofs.Target.Closed

/-!
# Links between declarations and classes

How declarations hold on to their classes and constructors.  A class knows the
source type for which it was made, and a constructor knows its class; both are
told when the class is made and kept ever after, so different declarations have
different classes and constructors.
-/

namespace BytecodeLowering

/-! ## Modules that grow -/

namespace TargetModule

theorem method?_modifyMethod (module : TargetModule) (id other : MethodId)
    (f : MethodDecl → MethodDecl) :
    (module.modifyMethod id f).method? other
      = if id = other then (module.method? other).map f else module.method? other := by
  rw [method?, modifyMethod, List.getElem?_modify]
  split <;> simp [method?]

theorem type?_modifyType (module : TargetModule) (id other : TypeId) (f : TypeDecl → TypeDecl) :
    (module.modifyType id f).type? other
      = if id = other then (module.type? other).map f else module.type? other := by
  rw [type?, modifyType, List.getElem?_modify]
  split <;> simp [type?]

def sourceOf? (module : TargetModule) (decl : TypeId) : Option Nat :=
  (module.type? decl).bind (·.sourceType)

/-- The source type for whose class a method is a constructor. -/
def builds? (module : TargetModule) (id : MethodId) : Option Nat :=
  (module.method? id).bind fun method =>
    if method.kind = .constructor then method.owner.bind module.sourceOf? else none

/-- A module goes on to another: what is there stays there with its links, and
only the methods that are free change. -/
structure Keeps (free : MethodId → Prop) (before after : TargetModule) : Prop where
  types : ∀ id type, before.type? id = some type → ∃ type', after.type? id = some type' ∧
    (∀ index, type.sourceType = some index → type'.sourceType = some index) ∧
      ∀ constructor, type.constructor = some constructor → type'.constructor = some constructor
  methods : ∀ id method, before.method? id = some method → ∃ method',
    after.method? id = some method' ∧ method'.kind = method.kind ∧
      (∀ decl, method.owner = some decl → method'.owner = some decl) ∧
      (¬ free id → method' = method)

namespace Keeps

variable {free : MethodId → Prop} {first second third before after : TargetModule}

theorem refl (module : TargetModule) : Keeps free module module :=
  ⟨fun _ type h => ⟨type, h, fun _ h => h, fun _ h => h⟩,
    fun _ method h => ⟨method, h, rfl, fun _ h => h, fun _ => rfl⟩⟩

theorem trans (h : Keeps free first second) (hnext : Keeps free second third) :
    Keeps free first third := by
  refine ⟨?_, ?_⟩
  · intro id type htype
    obtain ⟨middle, hmiddle, hsource, hcode⟩ := h.types id type htype
    obtain ⟨last, hlast, hmore, hmoreCode⟩ := hnext.types id middle hmiddle
    exact ⟨last, hlast, fun index hindex => hmore index (hsource index hindex),
      fun constructor hconstructor => hmoreCode constructor (hcode constructor hconstructor)⟩
  · intro id method hmethod
    obtain ⟨middle, hmiddle, hkind, howner, hrest⟩ := h.methods id method hmethod
    obtain ⟨last, hlast, hkind', howner', hrest'⟩ := hnext.methods id middle hmiddle
    exact ⟨last, hlast, hkind'.trans hkind, fun decl hdecl => howner' decl (howner decl hdecl),
      fun hfree => (hrest' hfree).trans (hrest hfree)⟩

theorem mono {other : MethodId → Prop} (h : Keeps free before after)
    (hfree : ∀ id, free id → other id) : Keeps other before after := by
  refine ⟨h.types, ?_⟩
  intro id method hmethod
  obtain ⟨method', hmethod', hkind, howner, hrest⟩ := h.methods id method hmethod
  exact ⟨method', hmethod', hkind, howner, fun hother => hrest fun hid => hother (hfree id hid)⟩

theorem append {types : List TypeDecl} {methods : List MethodDecl}
    (htypes : after.types = before.types ++ types)
    (hmethods : after.methods = before.methods ++ methods) : Keeps free before after := by
  refine ⟨?_, ?_⟩
  · intro id type htype
    refine ⟨type, ?_, fun _ h => h, fun _ h => h⟩
    rw [type?, htypes, List.getElem?_append_left (List.getElem?_eq_some_iff.mp htype).1]
    exact htype
  · intro id method hmethod
    refine ⟨method, ?_, rfl, fun _ h => h, fun _ => rfl⟩
    rw [method?, hmethods, List.getElem?_append_left (List.getElem?_eq_some_iff.mp hmethod).1]
    exact hmethod

theorem modifyType (module : TargetModule) (decl : TypeId) {f : TypeDecl → TypeDecl}
    (h : ∀ type, (f type).sourceType = type.sourceType)
    (hcode : ∀ type, (f type).constructor = type.constructor) :
    Keeps free module (module.modifyType decl f) := by
  refine ⟨?_, (refl module).methods⟩
  intro id type htype
  have hfound := module.type?_modifyType decl id f
  rw [htype] at hfound
  split at hfound
  · exact ⟨f type, hfound, fun index hindex => by rw [h, hindex],
      fun constructor hconstructor => by rw [hcode, hconstructor]⟩
  · exact ⟨type, hfound, fun _ h => h, fun _ h => h⟩

theorem modifyMethod (module : TargetModule) (constructor : MethodId)
    {f : MethodDecl → MethodDecl} (hkind : ∀ method, (f method).kind = method.kind)
    (howner : ∀ method, (f method).owner = method.owner) (hfree : free constructor) :
    Keeps free module (module.modifyMethod constructor f) := by
  refine ⟨fun _ type htype => ⟨type, htype, fun _ h => h, fun _ h => h⟩, ?_⟩
  intro id method hmethod
  have hfound := module.method?_modifyMethod constructor id f
  rw [hmethod] at hfound
  split at hfound
  · rename_i hsame
    subst hsame
    exact ⟨f method, hfound, hkind method, fun decl hdecl => by rw [howner, hdecl],
      fun hnot => absurd hfree hnot⟩
  · exact ⟨method, hfound, rfl, fun _ h => h, fun _ => rfl⟩

theorem sourceOf? (h : Keeps free before after) {decl : TypeId} {index : Nat}
    (hsource : before.sourceOf? decl = some index) : after.sourceOf? decl = some index := by
  obtain ⟨type, htype, hindex⟩ := Option.bind_eq_some_iff.mp hsource
  obtain ⟨type', htype', hkept, -⟩ := h.types decl type htype
  exact Option.bind_eq_some_iff.mpr ⟨type', htype', hkept index hindex⟩

theorem links (h : Keeps free before after) {decl : TypeId} {id : MethodId}
    (hlinks : before.Links decl id) : after.Links decl id := by
  obtain ⟨hkind, howner, hcode⟩ := hlinks
  obtain ⟨method, hmethod, hkind⟩ := Option.map_eq_some_iff.mp hkind
  obtain ⟨method', hmethod', hsame, hkept, -⟩ := h.methods id method hmethod
  obtain ⟨type, htype, hcode⟩ := Option.bind_eq_some_iff.mp hcode
  obtain ⟨type', htype', -, hkeptCode⟩ := h.types decl type htype
  rw [hmethod, Option.bind_some] at howner
  refine ⟨?_, ?_, Option.bind_eq_some_iff.mpr ⟨type', htype', hkeptCode id hcode⟩⟩
  · rw [hmethod', Option.map_some, hsame, hkind]
  · rw [hmethod', Option.bind_some, hkept decl howner]

theorem grows (h : Keeps free before after) (htypes : after.types = before.types)
    (hglobals : before.globals.length ≤ after.globals.length) : before.Grows after := by
  refine ⟨htypes, ?_, hglobals⟩
  intro id method hmethod
  obtain ⟨method', hmethod', hkind, howner, -⟩ := h.methods id method hmethod
  exact ⟨method', hmethod', hkind, howner⟩

theorem builds? (h : Keeps free before after) {id : MethodId} {index : Nat}
    (hbuilds : before.builds? id = some index) : after.builds? id = some index := by
  obtain ⟨method, hmethod, hindex⟩ := Option.bind_eq_some_iff.mp hbuilds
  obtain ⟨method', hmethod', hkind, howner, -⟩ := h.methods id method hmethod
  refine Option.bind_eq_some_iff.mpr ⟨method', hmethod', ?_⟩
  split at hindex
  · rename_i hconstructor
    obtain ⟨decl, hdecl, hsource⟩ := Option.bind_eq_some_iff.mp hindex
    rw [hkind, if_pos hconstructor]
    exact Option.bind_eq_some_iff.mpr ⟨decl, howner decl hdecl, h.sourceOf? hsource⟩
  · cases hindex

theorem kind (h : Keeps free before after) {id : MethodId} {kind : MethodKind}
    (hkind : (before.method? id).map (·.kind) = some kind) :
    (after.method? id).map (·.kind) = some kind := by
  obtain ⟨method, hmethod, rfl⟩ := Option.map_eq_some_iff.mp hkind
  obtain ⟨method', hmethod', hsame, -⟩ := h.methods id method hmethod
  exact Option.map_eq_some_iff.mpr ⟨method', hmethod', hsame⟩

theorem method (h : Keeps free before after) {id : MethodId} (hfree : ¬ free id)
    {method : MethodDecl} (hmethod : before.method? id = some method) :
    after.method? id = some method := by
  obtain ⟨method', hmethod', -, -, hsame⟩ := h.methods id method hmethod
  rw [hmethod', hsame hfree]

theorem signature (h : Keeps free before after) {id : MethodId} (hfree : ¬ free id)
    {signature : Signature} (hsignature : (before.method? id).map (·.signature) = some signature) :
    (after.method? id).map (·.signature) = some signature := by
  obtain ⟨method, hmethod, rfl⟩ := Option.map_eq_some_iff.mp hsignature
  exact Option.map_eq_some_iff.mpr ⟨method, h.method hfree hmethod, rfl⟩

theorem body (h : Keeps free before after) {id : MethodId} (hfree : ¬ free id)
    {body : List Instr} (hbody : (before.method? id).map (·.body) = some body) :
    (after.method? id).map (·.body) = some body := by
  obtain ⟨method, hmethod, rfl⟩ := Option.map_eq_some_iff.mp hbody
  exact Option.map_eq_some_iff.mpr ⟨method, h.method hfree hmethod, rfl⟩

end Keeps

/-- A module goes on to another that differs only in the bodies of free
methods. -/
structure Recodes (free : MethodId → Prop) (before after : TargetModule) : Prop
    extends before.Keeps free after where
  classes : after.types = before.types
  globals : after.globals = before.globals
  signatures : after.methods.map (·.signature) = before.methods.map (·.signature)

namespace Recodes

variable {free : MethodId → Prop} {first second third : TargetModule}

theorem refl (module : TargetModule) : Recodes free module module :=
  ⟨.refl module, rfl, rfl, rfl⟩

theorem trans (h : Recodes free first second) (hnext : Recodes free second third) :
    Recodes free first third :=
  ⟨h.toKeeps.trans hnext.toKeeps, hnext.classes.trans h.classes, hnext.globals.trans h.globals,
    hnext.signatures.trans h.signatures⟩

theorem setBody (module : TargetModule) {id : MethodId} (body : List Instr) (h : free id) :
    Recodes free module (module.modifyMethod id fun method => { method with body }) := by
  refine ⟨.modifyMethod _ _ (fun _ => rfl) (fun _ => rfl) h, rfl, rfl, ?_⟩
  exact map_modify_same MethodDecl.signature (by exact fun _ => rfl) _ _

theorem type? (h : Recodes free first second) (id : TypeId) :
    second.type? id = first.type? id := by
  simp only [TargetModule.type?, h.classes]

theorem signature? (h : Recodes free first second) (id : MethodId) :
    (second.method? id).map (·.signature) = (first.method? id).map (·.signature) := by
  simp only [TargetModule.method?, ← List.getElem?_map, h.signatures]

end Recodes

theorem kind_of_builds? {module : TargetModule} {id : MethodId} {index : Nat}
    (h : module.builds? id = some index) : (module.method? id).map (·.kind) = some .constructor := by
  obtain ⟨method, hmethod, hindex⟩ := Option.bind_eq_some_iff.mp h
  split at hindex
  · exact Option.map_eq_some_iff.mpr ⟨method, hmethod, ‹_›⟩
  · cases hindex

end TargetModule

end BytecodeLowering
