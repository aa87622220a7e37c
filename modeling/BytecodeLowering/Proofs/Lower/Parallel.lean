import BytecodeLowering.Proofs.Body.Comparison
import BytecodeLowering.Proofs.Lower.FunctionSpace

/-!
# Two compilations side by side

When the bodies are lowered to code that is related in some way, and everything
else of them is the same, then the modules differ in the code of their methods
alone; and when one compilation fails so does the other, with the same error.
-/

namespace BytecodeLowering

/-! ## Modules and registries -/

/-- Modules that differ only in the code of their methods.  Some functions have
been lowered in both, and the code of their methods is related; the code of the
other methods is related in a way of its own. -/
structure TargetModule.Parallel (code : FunctionDef → List Instr → List Instr → Prop)
    (others : List Instr → List Instr → Prop) (done : List FunctionDef)
    (module other : TargetModule) : Prop where
  same : { module with methods := other.methods } = other
  length : other.methods.length = module.methods.length
  methods : ∀ id method, module.method? id = some method →
    ∃ body, other.method? id = some { method with body } ∧
      (∀ function ∈ done, function.index = id → code function method.body body) ∧
      ((∀ function ∈ done, function.index ≠ id) → others method.body body)

structure Registry.Parallel (code : FunctionDef → List Instr → List Instr → Prop)
    (others : List Instr → List Instr → Prop) (done : List FunctionDef)
    (registry other : Registry) : Prop where
  same : { registry with target := other.target } = other
  target : registry.target.Parallel code others done other.target

section Parallel

variable {code : FunctionDef → List Instr → List Instr → Prop}
  {others : List Instr → List Instr → Prop} {done : List FunctionDef}

theorem TargetModule.Parallel.refl {module : TargetModule}
    (h : ∀ method ∈ module.methods, others method.body method.body) :
    module.Parallel code others [] module :=
  ⟨rfl, rfl, fun _ method hmethod =>
    ⟨method.body, hmethod, nofun, fun _ => h method (List.mem_of_getElem? hmethod)⟩⟩

theorem TargetModule.Parallel.setCode {module other : TargetModule}
    (h : module.Parallel code others done other) {function : FunctionDef}
    (hnew : function.index ∉ done.map (·.index)) {body body' : List Instr}
    (hcode : code function body body') (locals : List TargetType) :
    Parallel code others (done ++ [function])
      (module.modifyMethod function.index fun method => { method with body, locals })
      (other.modifyMethod function.index fun method => { method with body := body', locals }) := by
  refine ⟨?_, ?_, ?_⟩
  · rw [← h.same]
    rfl
  · simp only [TargetModule.modifyMethod, List.length_modify, h.length]
  · intro id method hmethod
    rw [method?_modifyMethod] at hmethod ⊢
    split at hmethod
    · rename_i hplace
      subst hplace
      obtain ⟨earlier, hearlier, rfl⟩ := Option.map_eq_some_iff.mp hmethod
      obtain ⟨found, hfound, -⟩ := h.methods function.index earlier hearlier
      refine ⟨body', by rw [if_pos rfl, hfound]; rfl, ?_, ?_⟩
      · intro item hitem hindex
        rcases List.mem_append.mp hitem with hdone | hlast
        · exact absurd (List.mem_map.mpr ⟨item, hdone, hindex⟩) hnew
        · rw [List.mem_singleton.mp hlast]
          exact hcode
      · intro hnone
        exact absurd rfl (hnone function (List.mem_append_right _ (List.mem_singleton_self _)))
    · rename_i hplace
      obtain ⟨found, hfound, hdone, hothers⟩ := h.methods id method hmethod
      refine ⟨found, by rw [if_neg hplace, hfound], ?_, ?_⟩
      · intro item hitem hindex
        rcases List.mem_append.mp hitem with hearlier | hlast
        · exact hdone item hearlier hindex
        · rw [List.mem_singleton.mp hlast] at hindex
          exact absurd hindex hplace
      · exact fun hnone => hothers fun item hitem => hnone item (List.mem_append_left _ hitem)

theorem TargetModule.Parallel.setEntrypoint {module other : TargetModule}
    (h : module.Parallel code others done other) (entrypoint : Option MethodId) :
    Parallel code others done { module with entrypoint } { other with entrypoint } := by
  refine ⟨?_, h.length, h.methods⟩
  rw [← h.same]

theorem TargetModule.Parallel.map_methods {module other : TargetModule}
    (h : module.Parallel code others done other) {f : List Instr → List Instr}
    (hcode : ∀ function body body', code function body body' → body' = f body)
    (hothers : ∀ body body', others body body' → body' = f body) :
    other.methods = module.methods.map fun method => { method with body := f method.body } := by
  refine List.ext_getElem? fun id => ?_
  rw [List.getElem?_map]
  cases hmethod : module.methods[id]? with
  | none =>
      rw [Option.map_none, List.getElem?_eq_none_iff, h.length]
      exact List.getElem?_eq_none_iff.mp hmethod
  | some method =>
      obtain ⟨body, hother, hdone, hrest⟩ := h.methods id method hmethod
      have hbody : body = f method.body := by
        by_cases hfunction : ∃ function ∈ done, function.index = id
        · obtain ⟨function, hmem, hindex⟩ := hfunction
          exact hcode function _ _ (hdone function hmem hindex)
        · exact hothers _ _ (hrest fun function hmem hindex => hfunction ⟨function, hmem, hindex⟩)
      rw [Option.map_some, ← hbody]
      exact hother

namespace Registry

variable {registry other : Registry}

theorem Parallel.functions (h : registry.Parallel code others done other) :
    other.functions = registry.functions := by
  rw [← h.same]

theorem Parallel.function? (h : registry.Parallel code others done other) :
    other.function? = registry.function? := by
  funext function
  rw [Registry.function?, h.functions, Registry.function?]

theorem Parallel.within (h : registry.Parallel code others done other) {surroundings : Surroundings}
    (hmethods : surroundings.methods = other.target.methods) :
    registry.within surroundings = other := by
  rw [Registry.within, hmethods, h.target.same, h.same]

theorem Parallel.setFunctions (h : registry.Parallel code others done other)
    (functions : List (Option FunctionEntry)) :
    Parallel code others done { registry with functions } { other with functions } := by
  refine ⟨?_, h.target⟩
  rw [← h.same]

theorem Parallel.setTarget (h : registry.Parallel code others done other)
    {more : List FunctionDef} {module module' : TargetModule}
    (htarget : module.Parallel code others more module') :
    Parallel code others more { registry with target := module }
      { other with target := module' } := by
  refine ⟨?_, htarget⟩
  rw [← h.same]

end Registry

end Parallel

/-! ## Steps -/

namespace Lowering

/-- The outcomes of two runs.  Both succeed, with values and registries that are
related, or both fail with one error. -/
inductive Abreast (values : α → α → Prop) (registries : Registry → Registry → Prop) :
    EStateM.Result LoweringError Registry α → EStateM.Result LoweringError Registry α → Prop
  | ok {value value' : α} {after after' : Registry} (hvalue : values value value')
      (hafter : registries after after') :
      Abreast values registries (.ok value after) (.ok value' after')
  | error {error : LoweringError} {after after' : Registry} :
      Abreast values registries (.error error after) (.error error after')

namespace Abreast

variable {values : α → α → Prop} {results : β → β → Prop}
  {registries : Registry → Registry → Prop} {before before' : Registry}

theorem bind {step step' : Lowering α} {next next' : α → Lowering β}
    {middles : Registry → Registry → Prop}
    (hstep : Abreast values middles (step before) (step' before'))
    (hnext : ∀ value value' middle middle', values value value' → middles middle middle' →
      Abreast results registries (next value middle) (next' value' middle')) :
    Abreast results registries ((step >>= next) before) ((step' >>= next') before') := by
  change Abreast _ _ (EStateM.bind step next before) (EStateM.bind step' next' before')
  unfold EStateM.bind
  generalize step before = run at hstep ⊢
  generalize step' before' = run' at hstep ⊢
  cases hstep with
  | ok hvalue hmiddle => exact hnext _ _ _ _ hvalue hmiddle
  | error => exact .error

theorem get {next next' : Registry → Lowering α}
    (h : Abreast values registries (next before before) (next' before' before')) :
    Abreast values registries ((MonadState.get >>= next) before)
      ((MonadState.get >>= next') before') := h

theorem ensures {run run' : EStateM.Result LoweringError Registry α} {holds : Registry → Prop}
    (h : Abreast values registries run run')
    (hholds : ∀ value after, run = .ok value after → holds after) :
    Abreast values (fun after after' => holds after ∧ registries after after') run run' := by
  cases h with
  | ok hvalue hafter => exact .ok hvalue ⟨hholds _ _ rfl, hafter⟩
  | error => exact .error

theorem forM {items : List α} {step step' : α → Lowering PUnit}
    (hstep : ∀ item ∈ items, ∀ before before', registries before before' →
      Abreast Eq registries (step item before) (step' item before'))
    (hbefore : registries before before') :
    Abreast Eq registries (items.forM step before) (items.forM step' before') := by
  induction items generalizing before before' with
  | nil => exact .ok rfl hbefore
  | cons item items ih =>
      refine (hstep item List.mem_cons_self before before' hbefore).bind ?_
      intro _ _ middle middle' _ hmiddle
      exact ih (fun other hother => hstep other (List.mem_cons_of_mem item hother)) hmiddle

theorem mapM_done (registries : List α → Registry → Registry → Prop) {items : List α}
    {step step' : α → Lowering β}
    (hstep : ∀ first item rest, items = first ++ item :: rest → ∀ before before',
      registries first before before' →
        Abreast results (registries (first ++ [item])) (step item before) (step' item before'))
    (hbefore : registries [] before before') :
    Abreast (List.Forall₂ results) (registries items) (items.mapM step before)
      (items.mapM step' before') := by
  -- the items behind those that are done
  suffices hloop : ∀ rest first before before', items = first ++ rest →
      registries first before before' → Abreast (List.Forall₂ results) (registries items)
        (rest.mapM step before) (rest.mapM step' before') from
    hloop items [] before before' rfl hbefore
  intro rest
  induction rest with
  | nil =>
      intro first before before' hitems hfirst
      rw [List.append_nil] at hitems
      subst hitems
      exact .ok .nil hfirst
  | cons item rest ih =>
      intro first before before' hitems hfirst
      rw [List.mapM_cons, List.mapM_cons]
      refine (hstep first item rest hitems before before' hfirst).bind ?_
      intro value value' middle middle' hvalue hmiddle
      have hrest := ih (first ++ [item]) middle middle' (by rw [hitems, List.append_assoc]; rfl)
        hmiddle
      refine hrest.bind ?_
      intro values values' after after' hvalues hafter
      exact .ok (.cons hvalue hvalues) hafter

end Abreast

end Lowering

/-! ## Compiling -/

section Compiling

variable {image : Image} {settings settings' : Settings} {before other : Registry}
  {code : FunctionDef → List Instr → List Instr → Prop}
  {others : List Instr → List Instr → Prop} {done : List FunctionDef}

namespace Methods

theorem requireDefined_abreast (h : before.Parallel code others done other) (function : Nat) :
    Lowering.Abreast (fun entry entry' => entry = entry' ∧ before.function? function = some entry)
      (fun middle middle' => before = middle ∧ other = middle')
      (requireDefined function before) (requireDefined function other) := by
  refine .get ?_
  rw [h.function?]
  cases before.function? function with
  | none => exact .error
  | some entry =>
      dsimp only
      split
      · exact .ok ⟨rfl, rfl⟩ ⟨rfl, rfl⟩
      · exact .error

theorem markCompiled_abreast (h : before.Parallel code others done other) (function : Nat) :
    Lowering.Abreast Eq (Registry.Parallel code others done)
      (Registry.markCompiled function before) (Registry.markCompiled function other) := by
  refine .get ?_
  rw [h.function?]
  cases before.function? function with
  | none => exact .error
  | some entry =>
      dsimp only
      rw [h.functions]
      split
      · exact .ok rfl (h.setFunctions _)
      · exact .error

theorem compileFunction_abreast {function : FunctionDef}
    (hlower : ∀ signature, FunctionDef.Abreast (code function)
      (function.lower image before settings signature)
      (function.lower image other settings' signature))
    (hbefore : before.Grounded) (hnew : function.index ∉ done.map (·.index))
    (h : before.Parallel code others done other) :
    Lowering.Abreast BodyStats.Agree (Registry.Parallel code others (done ++ [function]))
      (compileFunction image settings function before)
      (compileFunction image settings' function other) := by
  refine (requireDefined_abreast h function.index).bind ?_
  rintro entry _ _ _ ⟨rfl, hentry⟩ ⟨rfl, rfl⟩
  obtain ⟨hmethod, -, -⟩ := hbefore.functions function.index entry hentry
  have hbodies := hlower entry.signature
  generalize hrun : function.lower image before settings entry.signature = run at hbodies
  generalize hrun' : function.lower image other settings' entry.signature = run' at hbodies
  cases hbodies with
  | error =>
      rw [Lowering.bind_of_error (Lowering.query_of_error hrun),
        Lowering.bind_of_error (Lowering.query_of_error hrun')]
      exact .error
  | @ok result result' hlocals hstats hcode =>
      rw [Lowering.bind_of_ok (Lowering.query_of_ok hrun),
        Lowering.bind_of_ok (Lowering.query_of_ok hrun')]
      dsimp only
      rw [hmethod, hlocals]
      have hcoded := h.setTarget (h.target.setCode hnew hcode result.1.locals)
      refine (markCompiled_abreast hcoded function.index).bind ?_
      intro _ _ _ _ _ hmarked
      exact .ok hstats hmarked

theorem selectEntrypoint_abreast (h : before.Parallel code others done other) :
    Lowering.Abreast Eq (Registry.Parallel code others done) (selectEntrypoint image before)
      (selectEntrypoint image other) := by
  unfold selectEntrypoint
  split
  · refine .get (.ok rfl ?_)
    have hmethod : other.method? image.entrypoint = before.method? image.entrypoint := by
      rw [Registry.method?, h.functions, Registry.method?]
    rw [hmethod]
    exact h.setTarget (h.target.setEntrypoint _)
  · exact .ok rfl h

theorem foldl_agree {stats other : List BodyStats} (h : List.Forall₂ BodyStats.Agree stats other)
    {start start' : BodyStats} (hstart : start.Agree start') :
    (stats.foldl BodyStats.merge start).Agree (other.foldl BodyStats.merge start') := by
  induction h generalizing start start' with
  | nil => exact hstart
  | cons hfirst _ ih =>
      refine ih ⟨?_, ?_⟩
      · simp only [BodyStats.merge, hstart.1, hfirst.1]
      · simp only [BodyStats.merge, hstart.2, hfirst.2]

theorem compileAll_abreast
    (hlower : ∀ function ∈ image.functions, ∀ done registry registry' signature,
      image.Prepared settings registry → registry.Parallel code others done registry' →
        FunctionDef.Abreast (code function) (function.lower image registry settings signature)
          (function.lower image registry' settings' signature))
    (hdistinct : (image.functions.map (·.index)).Nodup)
    (hbefore : image.Prepared settings before) (h : before.Parallel code others [] other) :
    Lowering.Abreast BodyStats.Agree (Registry.Parallel code others image.functions)
      (compileAll image settings before) (compileAll image settings' other) := by
  have hfunctions : Lowering.Abreast (List.Forall₂ BodyStats.Agree)
      (fun after after' => image.Prepared settings after ∧
        after.Parallel code others image.functions after')
      (image.functions.mapM (compileFunction image settings) before)
      (image.functions.mapM (compileFunction image settings') other) := by
    refine .mapM_done (fun done after after' => image.Prepared settings after ∧
      after.Parallel code others done after') ?_ ⟨hbefore, h⟩
    rintro first function rest hitems registry registry' ⟨hprepared, hparallel⟩
    have hmem : function ∈ image.functions := by simp [hitems]
    have hnew : function.index ∉ first.map (·.index) := by
      rw [hitems, List.map_append, List.nodup_append] at hdistinct
      exact fun hindex => hdistinct.2.2 _ hindex _ List.mem_cons_self rfl
    have hstep := compileFunction_abreast
      (fun signature => hlower function hmem first registry registry' signature hprepared hparallel)
      hprepared.grounded hnew hparallel
    exact hstep.ensures fun _ _ hrun => hprepared.next hrun
  refine hfunctions.bind ?_
  rintro stats stats' coded coded' hstats ⟨-, hcoded⟩
  have hnatives : Lowering.Abreast Eq (Registry.Parallel code others image.functions)
      (image.natives.forM (fun native => Registry.markCompiled native.index) coded)
      (image.natives.forM (fun native => Registry.markCompiled native.index) coded') :=
    .forM (fun native _ _ _ hregistry => markCompiled_abreast hregistry native.index) hcoded
  refine hnatives.bind ?_
  intro _ _ marked marked' _ hmarked
  refine (selectEntrypoint_abreast hmarked).bind ?_
  intro _ _ last last' _ hlast
  exact .ok (foldl_agree hstats ⟨rfl, rfl⟩) hlast

end Methods

namespace Image

/-- Two compilations of an image whose bodies are lowered alike. -/
theorem compileWithStats_parallel (hname : settings'.moduleName = settings.moduleName)
    (hprepared : ∀ registry, image.prepare (image.registry settings) = .ok () registry →
      ∀ method ∈ registry.target.methods, others method.body method.body)
    (hlower : ∀ function ∈ image.functions, ∀ done registry registry' signature,
      image.Prepared settings registry → registry.Parallel code others done registry' →
        FunctionDef.Abreast (code function) (function.lower image registry settings signature)
          (function.lower image registry' settings' signature)) :
    (∃ error, image.compileWithStats settings = .error error ∧
      image.compileWithStats settings' = .error error) ∨
    ∃ target target' stats, image.compileWithStats settings = .ok (target, stats) ∧
      image.compileWithStats settings'
        = .ok (target', { stats with instructions := target'.instructionCount }) ∧
      target.Parallel code others image.functions target' := by
  have hregistry : image.registry settings' = image.registry settings := by
    rw [registry, registry, hname]
  cases hprepare : image.prepare (image.registry settings) with
  | error error after =>
      have hfail (settings : Settings) (h : image.prepare (image.registry settings)
          = .error error after) : image.compileWithStats settings = .error error :=
        compileWithStats_of_error (Lowering.bind_of_error h)
      exact Or.inl ⟨error, hfail settings hprepare, hfail settings' (hregistry ▸ hprepare)⟩
  | ok result before =>
      have hdistinct := (prepare_entered hprepare).functions_nodup
      have hparallel : before.Parallel code others [] before :=
        ⟨rfl, .refl (hprepared before hprepare)⟩
      have hcompile := Methods.compileAll_abreast hlower hdistinct (.first hprepare) hparallel
      generalize hrun : Methods.compileAll image settings before = run at hcompile
      generalize hrun' : Methods.compileAll image settings' before = run' at hcompile
      have hlowering : image.lowering settings (image.registry settings) = run :=
        (Lowering.bind_of_ok hprepare).trans hrun
      have hlowering' : image.lowering settings' (image.registry settings') = run' := by
        rw [hregistry]
        exact (Lowering.bind_of_ok hprepare).trans hrun'
      cases hcompile with
      | error =>
          exact Or.inl ⟨_, compileWithStats_of_error hlowering,
            compileWithStats_of_error hlowering'⟩
      | @ok stats stats' after after' hstats hafter =>
          refine Or.inr ⟨_, _, _, compileWithStats_of_ok hlowering, ?_, hafter.target⟩
          have htypes : after'.target.types = after.target.types := by
            rw [← hafter.target.same]
          rw [compileWithStats_of_ok hlowering', htypes, hafter.target.length, hstats.1, hstats.2]

end Image

end Compiling

end BytecodeLowering
