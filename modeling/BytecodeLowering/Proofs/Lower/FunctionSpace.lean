import BytecodeLowering.Image.Encode
import BytecodeLowering.Proofs.Image.FunctionTable
import BytecodeLowering.Proofs.Image.InRange
import BytecodeLowering.Proofs.Lower.ClosedModule
import Mathlib.Data.List.Perm.Subperm

/-!
# The index space of functions and natives

Reading refuses an index that is not below their number, and no two of them can
be entered under one index, so that the indices are all the numbers below it.
The method of each index is that of its function or native, and no method is
left that was only reserved.
-/

namespace BytecodeLowering

/-! ## Functions and natives alike -/

structure FunctionHead where
  index : Nat
  type : TypeIndex
  native : Option NativeImport
  deriving DecidableEq, Repr

def FunctionDef.head (function : FunctionDef) : FunctionHead :=
  ⟨function.index, function.type, none⟩

def Native.head (native : Native) : FunctionHead :=
  ⟨native.index, native.type, some { library := native.library, symbol := native.symbol }⟩

def Image.heads (image : Image) : List FunctionHead :=
  image.functions.map FunctionDef.head ++ image.natives.map Native.head

/-- The method of an index, under the signature of its type. -/
def Registry.Implements (registry : Registry) (image : Image) (head : FunctionHead)
    (method : MethodDecl) : Prop :=
  registry.target.method? head.index = some method ∧ method.sourceFunction = some head.index ∧
    method.native = head.native ∧ registry.signatureOf image head.type = .ok method.signature

/-! ## Entering -/

/-- The functions and natives of a list have been entered, each under an index
of its own, and no method but theirs is imported. -/
structure Registry.Entered (image : Image) (heads : List FunctionHead) (registry : Registry) :
    Prop where
  reserved : registry.functions.length = image.functionTable.size
  distinct : (heads.map (·.index)).Nodup
  entered : ∀ index, (registry.function? index).isSome ↔ index ∈ heads.map (·.index)
  methods : ∀ head ∈ heads, ∃ method, registry.Implements image head method
  others : ∀ index < registry.functions.length, registry.function? index = none →
    ∃ method, registry.target.method? index = some method ∧ method.native = none

section Entering

variable {image : Image} {settings : Settings} {before after : Registry}

theorem Registry.Entered.functions_nodup (h : before.Entered image image.heads) :
    (image.functions.map (·.index)).Nodup := by
  have hall := h.distinct
  rw [Image.heads, List.map_append, List.map_map] at hall
  exact (List.nodup_append.mp hall).1

theorem Registry.signatureOf_enter (registry : Registry) (function : Nat)
    (f : MethodDecl → MethodDecl) (entry : FunctionEntry) :
    (registry.enter function f entry).signatureOf image = registry.signatureOf image :=
  signatureOf_same rfl

theorem Registry.Implements.enter {head : FunctionHead} {method : MethodDecl}
    (h : before.Implements image head method) {function : Nat} (hother : function ≠ head.index)
    (f : MethodDecl → MethodDecl) (entry : FunctionEntry) :
    (before.enter function f entry).Implements image head method := by
  obtain ⟨hmethod, hsource, hnative, hsignature⟩ := h
  refine ⟨?_, hsource, hnative, ?_⟩
  · rw [Registry.enter, TargetModule.method?_modifyMethod, if_neg hother]
    exact hmethod
  · rw [signatureOf_enter]
    exact hsignature

theorem Registry.Entered.enter {heads : List FunctionHead} (h : before.Entered image heads)
    {head : FunctionHead} {signature : Signature} {f : MethodDecl → MethodDecl}
    (entry : FunctionEntry) (hvacant : before.functions[head.index]? = some none)
    (hsignature : before.signatureOf image head.type = .ok signature)
    (hsource : ∀ method, (f method).sourceFunction = some head.index)
    (hnative : ∀ method, method.native = none → (f method).native = head.native)
    (hf : ∀ method, (f method).signature = signature) :
    (before.enter head.index f entry).Entered image (heads ++ [head]) := by
  have hlength := (List.getElem?_eq_some_iff.mp hvacant).1
  have hnone : before.function? head.index = none := by
    rw [function?, hvacant]
    rfl
  have hnew : head.index ∉ heads.map (·.index) := by
    rw [← h.entered, hnone]
    exact Bool.false_ne_true
  refine ⟨List.length_set.trans h.reserved, ?_, ?_, ?_, ?_⟩
  · rw [List.map_append, List.nodup_append]
    refine ⟨h.distinct, List.pairwise_singleton _ _, ?_⟩
    rintro index hindex other hother rfl
    rw [List.map_singleton, List.mem_singleton] at hother
    exact hnew (hother ▸ hindex)
  · intro index
    rw [function?_enter hlength, List.map_append, List.map_singleton, List.mem_append,
      List.mem_singleton, ← h.entered]
    by_cases hsame : head.index = index
    · simp [hsame]
    · simp [hsame, Ne.symm hsame]
  · intro other hother
    rcases List.mem_append.mp hother with hearlier | hlast
    · obtain ⟨method, hmethod⟩ := h.methods other hearlier
      have hne : head.index ≠ other.index := fun hsame =>
        hnew (hsame ▸ List.mem_map_of_mem hearlier)
      exact ⟨method, hmethod.enter hne f entry⟩
    · rw [List.mem_singleton.mp hlast]
      obtain ⟨method, hmethod, hplain⟩ := h.others head.index hlength hnone
      refine ⟨f method, ?_, hsource method, hnative method hplain, ?_⟩
      · rw [Registry.enter, TargetModule.method?_modifyMethod, if_pos rfl, hmethod,
          Option.map_some]
      · rw [signatureOf_enter, hf]
        exact hsignature
  · intro index hindex hfound
    rw [function?_enter hlength] at hfound
    split at hfound
    · cases hfound
    · rename_i hother
      rw [Registry.enter, TargetModule.method?_modifyMethod, if_neg hother]
      exact h.others index (by simpa [Registry.enter] using hindex) hfound

theorem Methods.defineFunction_entered {names : List (Nat × String)} {first : List FunctionDef}
    {function : FunctionDef} {result : Unit}
    (hbefore : before.Entered image (first.map FunctionDef.head))
    (h : defineFunction image names function before = .ok result after) :
    after.Entered image ((first ++ [function]).map FunctionDef.head) := by
  obtain ⟨signature, locals, hvacant, hsignature, -, rfl⟩ := defineFunction_ok h
  rw [List.map_append, List.map_singleton]
  exact hbefore.enter _ hvacant hsignature (fun _ => rfl) (fun _ hnone => hnone) fun _ => rfl

theorem Methods.defineNative_entered {heads : List FunctionHead} {first : List Native}
    {native : Native} {result : Unit}
    (hbefore : before.Entered image (heads ++ first.map Native.head))
    (h : defineNative image native before = .ok result after) :
    after.Entered image (heads ++ (first ++ [native]).map Native.head) := by
  obtain ⟨signature, hvacant, hsignature, rfl⟩ := defineNative_ok h
  rw [List.map_append, List.map_singleton, ← List.append_assoc]
  exact hbefore.enter _ hvacant hsignature (fun _ => rfl) (fun _ _ => rfl) fun _ => rfl

theorem Methods.defineFunctions_entered {names : List (Nat × String)} {result : PUnit}
    (hbefore : before.Entered image [])
    (h : image.functions.forM (defineFunction image names) before = .ok result after) :
    after.Entered image (image.functions.map FunctionDef.head) :=
  Lowering.forM_done (fun first registry => registry.Entered image (first.map FunctionDef.head))
    (fun _ _ _ _ _ _ _ hold hstep => defineFunction_entered hold hstep) hbefore h

theorem Methods.defineAll_entered {result : Unit} (hbefore : before.Entered image [])
    (h : defineAll image before = .ok result after) : after.Entered image image.heads := by
  obtain ⟨names, middle, hfunctions, hnatives⟩ := defineAll_ok h
  have hmiddle := defineFunctions_entered hbefore hfunctions
  exact Lowering.forM_done (fun first registry =>
    registry.Entered image (image.functions.map FunctionDef.head ++ first.map Native.head))
    (fun _ _ _ _ _ _ _ hold hstep => defineNative_entered hold hstep)
    (by rwa [List.map_nil, List.append_nil]) hnatives

theorem Image.initial_entered {typed declared initial : Registry} {result : Unit}
    {globals : PUnit} {found : Option MethodId}
    (htypes : TypePasses.run image (image.registry settings) = .ok result typed)
    (hglobals : image.globals.zipIdx.forM (GlobalSlots.declare image) typed = .ok globals declared)
    (hconstants : GlobalSlots.lowerConstants image declared = .ok found initial) :
    initial.Entered image [] := by
  have hspares : (image.registry settings).Spares typed :=
    TypePasses.run_spares (Registry.create_linked _ _ _) htypes
  have hdeclared : declared.functions = typed.functions ∧
      declared.target.methods = typed.target.methods := by
    refine Lowering.forM_keeps (fun registry => registry.functions = typed.functions ∧
      registry.target.methods = typed.target.methods) ?_ ⟨rfl, rfl⟩ hglobals
    rintro ⟨type, number⟩ - before _ after hold hstep
    obtain ⟨slot, -, -, rfl⟩ := GlobalSlots.declare_ok hstep
    exact hold
  have hinitial : initial.functions = declared.functions ∧
      declared.target.methods <+: initial.target.methods := by
    rcases GlobalSlots.lowerConstants_ok hconstants with rfl | ⟨code, -, rfl⟩
    · exact ⟨rfl, List.prefix_rfl⟩
    · exact ⟨rfl, List.prefix_append _ _⟩
  have hfunctions : initial.functions = (image.registry settings).functions :=
    (hinitial.1.trans hdeclared.1).trans hspares.functions
  have hnone (index : Nat) : initial.function? index = none := by
    rw [Registry.function?, hfunctions]
    exact (Registry.create_typesOnly _ _ _).functions index
  refine ⟨hfunctions ▸ List.length_replicate, List.nodup_nil, by simp [hnone],
    List.forall_mem_nil _, ?_⟩
  intro index hindex _
  rw [hfunctions] at hindex
  have hmethod := (hspares.methods index hindex).trans (method?_registry hindex)
  rw [TargetModule.method?, ← hdeclared.2] at hmethod
  exact ⟨_, getElem?_of_begins hinitial.2 hmethod, rfl⟩

theorem Image.prepare_entered {result : Unit}
    (h : image.prepare (image.registry settings) = .ok result after) :
    after.Entered image image.heads := by
  obtain ⟨typed, declared, found, initial, htypes, hglobals, hconstants, hmethods⟩ := prepare_ok h
  exact Methods.defineAll_entered (initial_entered htypes hglobals hconstants) hmethods

end Entering

/-! ## Lowering the bodies -/

/-- The bodies of some functions have been lowered, and the others have none. -/
structure Registry.Compiling (image : Image) (settings : Settings) (done : List FunctionDef)
    (registry : Registry) : Prop where
  prepared : image.Prepared settings registry
  methods : ∀ head ∈ image.heads, ∃ method, registry.Implements image head method
  bodies : ∀ function ∈ done, ∃ method later stats,
    registry.Implements image function.head method ∧ image.Prepared settings later ∧
      function.lower image later settings method.signature
        = .ok (⟨method.body, method.locals⟩, stats)
  vacant : ∀ head ∈ image.heads, head.index ∉ done.map (·.index) →
    (registry.target.method? head.index).map (·.body) = some []

section Compiling

variable {image : Image} {settings : Settings} {before after : Registry}

theorem Image.Prepared.grounded {registry : Registry} (h : image.Prepared settings registry) :
    registry.Grounded := by
  induction h with
  | first h => exact (prepare_grounded h).1
  | next _ h ih => exact Methods.compileFunction_grounded ih h

theorem Registry.Implements.recode {head : FunctionHead} {method : MethodDecl}
    (h : before.Implements image head method) (entry : FunctionEntry) (code : MethodBody) :
    (before.enter head.index (fun decl => { decl with body := code.body, locals := code.locals })
      entry).Implements image head { method with body := code.body, locals := code.locals } := by
  obtain ⟨hmethod, hsource, hnative, hsignature⟩ := h
  refine ⟨?_, hsource, hnative, ?_⟩
  · rw [Registry.enter, TargetModule.method?_modifyMethod, if_pos rfl, hmethod, Option.map_some]
  · rw [signatureOf_enter]
    exact hsignature

theorem FunctionDef.head_mem {function : FunctionDef} (h : function ∈ image.functions) :
    function.head ∈ image.heads :=
  List.mem_append_left _ (List.mem_map_of_mem h)

theorem Methods.compileFunction_compiling {done : List FunctionDef} {function : FunctionDef}
    {stats : BodyStats} (hbefore : before.Compiling image settings done)
    (hfunction : function ∈ image.functions) (hnew : function.index ∉ done.map (·.index))
    (h : compileFunction image settings function before = .ok stats after) :
    after.Compiling image settings (done ++ [function]) := by
  have hprepared : image.Prepared settings after := .next hbefore.prepared h
  obtain ⟨entry, code, hentry, hlower, rfl⟩ := compileFunction_ok h
  obtain ⟨hmethod, -, hsignature⟩ :=
    hbefore.prepared.grounded.functions function.index entry hentry
  rw [hmethod] at hprepared ⊢
  refine ⟨hprepared, ?_, ?_, ?_⟩
  · intro head hhead
    obtain ⟨method, himplements⟩ := hbefore.methods head hhead
    by_cases hsame : function.index = head.index
    · rw [hsame]
      exact ⟨_, himplements.recode _ code⟩
    · exact ⟨method, himplements.enter hsame _ _⟩
  · intro other hother
    rcases List.mem_append.mp hother with hearlier | hlast
    · obtain ⟨method, later, stats, himplements, hlater⟩ := hbefore.bodies other hearlier
      have hne : function.index ≠ other.head.index := fun hsame =>
        hnew (hsame ▸ List.mem_map_of_mem hearlier)
      exact ⟨method, later, stats, himplements.enter hne _ _, hlater⟩
    · rw [List.mem_singleton.mp hlast]
      obtain ⟨method, himplements⟩ := hbefore.methods _ (FunctionDef.head_mem hfunction)
      rw [show before.target.method? function.index = some method from himplements.1,
        Option.map_some, Option.some.injEq] at hsignature
      refine ⟨_, before, stats, himplements.recode _ code, hbefore.prepared, ?_⟩
      rw [← hsignature] at hlower
      exact hlower
  · intro head hhead hother
    rw [List.map_append, List.map_singleton, List.mem_append, List.mem_singleton, not_or] at hother
    rw [TargetModule.method?_modifyMethod, if_neg (Ne.symm hother.2)]
    exact hbefore.vacant head hhead hother.1

theorem Registry.Implements.keep {head : FunctionHead} {method : MethodDecl}
    (h : before.Implements image head method) (htypes : after.types = before.types)
    (hmethods : after.target.methods = before.target.methods) :
    after.Implements image head method := by
  obtain ⟨hmethod, hsource, hnative, hsignature⟩ := h
  have hdecls : after.decl? = before.decl? := by
    funext index
    simp only [decl?, declaration?, htypes]
  refine ⟨?_, hsource, hnative, by rw [signatureOf_same hdecls, hsignature]⟩
  rw [TargetModule.method?, hmethods]
  exact hmethod

theorem Methods.compileAll_compiling {stats : BodyStats}
    (hprepare : image.prepare (image.registry settings) = .ok () before)
    (h : compileAll image settings before = .ok stats after) :
    ∃ coded : Registry, coded.Compiling image settings image.functions ∧ after.types = coded.types ∧
      after.target.methods = coded.target.methods := by
  obtain ⟨found, coded, marked, hcoded, hmarked, hselect⟩ := compileAll_ok h
  have hentered := Image.prepare_entered hprepare
  have hvacant := (Image.prepare_grounded hprepare).2
  have hdistinct := hentered.functions_nodup
  have hstart : before.Compiling image settings [] := by
    refine ⟨.first hprepare, hentered.methods, nofun, ?_⟩
    intro head hhead _
    have hsome := (hentered.entered head.index).mpr (List.mem_map_of_mem hhead)
    obtain ⟨entry, hentry⟩ := Option.isSome_iff_exists.mp hsome
    exact hvacant head.index
      (List.getElem?_eq_some_iff.mp (Option.join_eq_some_iff.mp hentry)).1
  refine ⟨coded, ?_, ?_⟩
  · refine Lowering.mapM_done (Registry.Compiling image settings) ?_ hstart hcoded
    intro first function rest hitems _ _ _ hold hstep
    refine compileFunction_compiling hold (by rw [hitems]; simp) ?_ hstep
    rw [hitems, List.map_append, List.nodup_append] at hdistinct
    exact fun hmem => hdistinct.2.2 _ hmem _ List.mem_cons_self rfl
  · have hsame : marked.types = coded.types ∧ marked.target = coded.target := by
      refine Lowering.forM_keeps (fun registry => registry.types = coded.types ∧
        registry.target = coded.target) ?_ ⟨rfl, rfl⟩ hmarked
      intro native _ before _ after hold hstep
      obtain ⟨entry, -, rfl⟩ := Registry.markCompiled_ok hstep
      exact hold
    rcases selectEntrypoint_ok hselect with rfl | rfl
    · exact ⟨hsame.1, by rw [hsame.2]⟩
    · exact ⟨hsame.1, show marked.target.methods = _ by rw [hsame.2]⟩

end Compiling

/-! ## Reading -/

namespace Image

theorem map_index_heads (image : Image) :
    image.heads.map (·.index)
      = image.functions.map (·.index) ++ image.natives.map (·.index) := by
  rw [heads, List.map_append, List.map_map, List.map_map]
  rfl

theorem indices_of_decode {bytes : Bytes} {image : Image} (h : decode bytes = .ok image) :
    (∀ head ∈ image.heads, head.index < image.functions.length + image.natives.length) ∧
      image.functionTable.size ≤ image.functions.length + image.natives.length := by
  obtain ⟨read, himage, hrecorded⟩ := recorded_lenient h
  rw [himage]
  have hindices : ∀ head ∈ read.heads,
      head.index < read.functions.length + read.natives.length := by
    intro head hhead
    rcases List.mem_append.mp hhead with hhead | hhead
    · obtain ⟨function, hfunction, rfl⟩ := List.mem_map.mp hhead
      exact (hrecorded.functions function hfunction).index
    · obtain ⟨native, hnative, rfl⟩ := List.mem_map.mp hhead
      exact (hrecorded.natives native hnative).index
  refine ⟨hindices, ?_⟩
  change read.functionTable.size ≤ _
  rw [hrecorded.functionTable]
  refine FunctionTable.size_build_le ?_
  rw [← map_index_heads]
  intro index hindex
  obtain ⟨head, hhead, rfl⟩ := List.mem_map.mp hindex
  exact hindices head hhead

end Image

theorem compileBytes_ok {settings : Settings} {bytes : Bytes} {target : TargetModule}
    (h : compileBytes settings bytes = .ok target) :
    ∃ image, Image.decode bytes = .ok image ∧ image.compile settings = .ok target := by
  obtain ⟨image, himage, h⟩ := ok_of_bind h
  cases hdecode : Image.decode bytes with
  | error error =>
      rw [hdecode] at himage
      cases himage
  | ok found =>
      rw [hdecode] at himage
      cases himage
      cases hcompile : image.compile settings with
      | error error =>
          rw [hcompile] at h
          cases h
      | ok found =>
          rw [hcompile] at h
          cases h
          exact ⟨image, rfl, hcompile⟩

/-! ## The index space -/

/-- A function number that the code of a method or the entry point designates. -/
def TargetModule.Designates (module : TargetModule) (id : MethodId) : Prop :=
  module.entrypoint = some id ∨ ∃ method ∈ module.methods,
    .call (.method id) ∈ method.body ∨ ∃ bound, .newDelegate id bound ∈ method.body

/-- The functions and natives of an image have the first numbers, without a hole
and without a clash, and each has the method of its number. -/
structure Image.FunctionSpace (image : Image) (settings : Settings) (registry : Registry) :
    Prop where
  indices : (image.functions.map (·.index) ++ image.natives.map (·.index)).Perm
    (List.range (image.functions.length + image.natives.length))
  functions : ∀ function ∈ image.functions, ∃ method later stats,
    registry.Implements image function.head method ∧ image.Prepared settings later ∧
      function.lower image later settings method.signature
        = .ok (⟨method.body, method.locals⟩, stats)
  natives : ∀ native ∈ image.natives, ∃ method,
    registry.Implements image native.head method ∧ method.body = []
  /-- As many methods are reserved at the start. -/
  reserved : image.functionTable.size = image.functions.length + image.natives.length
  designated : ∀ id, registry.target.Designates id → ∃ method,
    registry.target.method? id = some method ∧
      (id < image.functionTable.size → method.sourceFunction = some id)

theorem TargetModule.Closed.designated {module : TargetModule} (h : module.Closed) {id : MethodId}
    (hid : module.Designates id) : id < module.methods.length := by
  rcases hid with hentry | ⟨method, hmethod, hcall | ⟨bound, hdelegate⟩⟩
  · exact h.entrypoint id hentry
  · exact (h.code method hmethod).body _ hcall
  · exact (h.code method hmethod).body _ hdelegate

theorem Image.functionSpace_of_decode {bytes : Bytes} {image : Image} {settings : Settings}
    {stats : BodyStats} {registry : Registry} (hdecode : decode bytes = .ok image)
    (h : image.lowering settings (image.registry settings) = .ok stats registry) :
    image.FunctionSpace settings registry := by
  obtain ⟨prepared, hprepare, hcompile⟩ := lowering_ok h
  obtain ⟨hindices, hsize⟩ := indices_of_decode hdecode
  have hentered := prepare_entered hprepare
  obtain ⟨coded, hcoded, htypes, hmethods⟩ := Methods.compileAll_compiling hprepare hcompile
  have hclosed := Methods.compileAll_closed (prepare_grounded hprepare).1 hcompile
  have hcount : image.heads.length = image.functions.length + image.natives.length := by
    simp [heads]
  -- distinct numbers below their own count are all of them
  have hperm : (image.heads.map (·.index)).Perm
      (List.range (image.functions.length + image.natives.length)) := by
    refine (List.subperm_of_subset hentered.distinct ?_).perm_of_length_le ?_
    · intro index hindex
      obtain ⟨head, hhead, rfl⟩ := List.mem_map.mp hindex
      exact List.mem_range.mpr (hindices head hhead)
    · exact Nat.le_of_eq (by rw [List.length_range, List.length_map, hcount])
  have hall (index : Nat) (hindex : index < image.functions.length + image.natives.length) :
      ∃ head ∈ image.heads, head.index = index :=
    List.mem_map.mp (hperm.mem_iff.mpr (List.mem_range.mpr hindex))
  refine ⟨map_index_heads image ▸ hperm, ?_, ?_, ?_, ?_⟩
  · intro function hfunction
    obtain ⟨method, later, stats, himplements, hlater⟩ := hcoded.bodies function hfunction
    exact ⟨method, later, stats, himplements.keep htypes hmethods, hlater⟩
  · intro native hnative
    have hhead : native.head ∈ image.heads := List.mem_append_right _ (List.mem_map_of_mem hnative)
    obtain ⟨method, himplements⟩ := hcoded.methods native.head hhead
    have hnew : native.head.index ∉ image.functions.map (·.index) := by
      have hdistinct := hentered.distinct
      rw [map_index_heads, List.nodup_append] at hdistinct
      exact fun hmem => hdistinct.2.2 _ hmem _ (List.mem_map_of_mem hnative) rfl
    have hbody := hcoded.vacant native.head hhead hnew
    rw [himplements.1, Option.map_some] at hbody
    exact ⟨method, himplements.keep htypes hmethods, Option.some.inj hbody⟩
  · refine Nat.le_antisymm hsize (Nat.le_of_not_lt fun hlt => ?_)
    obtain ⟨head, hhead, hsame⟩ := hall image.functionTable.size hlt
    have hsome := (hentered.entered head.index).mpr (List.mem_map_of_mem hhead)
    obtain ⟨entry, hentry⟩ := Option.isSome_iff_exists.mp hsome
    have hlength := (List.getElem?_eq_some_iff.mp (Option.join_eq_some_iff.mp hentry)).1
    rw [hentered.reserved, hsame] at hlength
    exact Nat.lt_irrefl _ hlength
  · intro id hid
    have hlt := hclosed.designated hid
    refine ⟨_, List.getElem?_eq_getElem hlt, ?_⟩
    intro hreserved
    obtain ⟨head, hhead, rfl⟩ := hall id (Nat.lt_of_lt_of_le hreserved hsize)
    obtain ⟨method, himplements⟩ := hcoded.methods head hhead
    obtain ⟨hmethod, hsource, -⟩ := himplements.keep htypes hmethods
    rw [← Option.some.inj ((List.getElem?_eq_getElem hlt).symm.trans hmethod)] at hsource
    exact hsource

/-- Bytes that compile are those of an image whose functions and natives share
one index space without holes and without clashes, and the module has the
method of each of them at its index. -/
theorem functionSpace_of_compileBytes {settings : Settings} {bytes : Bytes}
    {target : TargetModule} (h : compileBytes settings bytes = .ok target) :
    ∃ image stats registry, Image.decode bytes = .ok image ∧
      image.lowering settings (image.registry settings) = .ok stats registry ∧
      registry.target = target ∧ image.FunctionSpace settings registry := by
  obtain ⟨image, hdecode, hcompile⟩ := compileBytes_ok h
  obtain ⟨stats, registry, hlowering, htarget⟩ := Image.compile_ok hcompile
  exact ⟨image, stats, registry, hdecode, hlowering, htarget,
    Image.functionSpace_of_decode hdecode hlowering⟩

theorem functionSpace_of_compileBytes_mixed :
    ∃ bytes target image stats registry, mixedImage.encode = .ok bytes ∧
      compileBytes {} bytes = .ok target ∧ Image.decode bytes = .ok image ∧
      image.lowering {} (image.registry {}) = .ok stats registry ∧ registry.target = target ∧
      image.FunctionSpace {} registry := by
  have hrun : (mixedImage.encode.toOption.any fun bytes => (compileBytes {} bytes).isOk) = true := by
    decide +kernel
  obtain ⟨bytes, hencode, hok⟩ := ok_of_any hrun
  obtain ⟨target, hcompile⟩ := ok_of_isOk hok
  obtain ⟨image, stats, registry, hspace⟩ := functionSpace_of_compileBytes hcompile
  exact ⟨bytes, target, image, stats, registry, hencode, hcompile, hspace⟩

end BytecodeLowering
