import BytecodeLowering.Proofs.Body.Comparison

/-!
# Lowering with and without checked casts

The code of a function under the unchecked policy is that under the checked one
without the casts of its safe casts, and it is also the code of the function
that never asks for a check.
-/

namespace BytecodeLowering

def Settings.withSafeCast (settings : Settings) (policy : SafeCastPolicy) : Settings :=
  { settings with safeCast := policy }

/-! ## Without the casts of safe casts -/

/-- Whether the code of an instruction keeps its casts; that of a safe cast
does not. -/
def FunctionDef.keepsCasts (function : FunctionDef) (position : Nat) : Bool :=
  function.operations[position]?.all (·.opcode != .safeCast)

/-- A body, instruction by instruction, and the same body without the casts in
the code of safe casts. -/
structure Scope.Uncasts (scope : Scope) (codes : List (List Instr)) (exit body body' : List Instr) :
    Prop where
  length : codes.length = scope.function.operations.length
  lowers : ∀ position code, codes[position]? = some code → scope.Lowers position code
  checked : body = codes.flatten ++ exit
  unchecked : body' = (Scope.withCastsAt scope.function.keepsCasts codes).flatten ++ exit

def FunctionDef.Uncasts (function : FunctionDef) (image : Image) (registry : Registry)
    (settings : Settings) (signature : Signature) (body body' : List Instr) : Prop :=
  ∃ scope codes exit locals stats,
    function.scope image registry (settings.withSafeCast .checked) signature = .ok scope ∧
    function.lower image registry (settings.withSafeCast .checked) signature
      = .ok (⟨body, locals⟩, stats) ∧
    scope.Uncasts codes exit body body'

namespace Scope

theorem withCasts_head (scope : Scope) (position : Nat) (casts : Bool) :
    withCasts casts (scope.head position) = scope.head position := by
  refine List.filter_eq_self.mpr fun instr hinstr => ?_
  have hplain : instr.isCast = false := by
    unfold head headAfter Emit.pointCode at hinstr
    rcases List.mem_append.mp hinstr with hlabel | hpoint
    · split at hlabel
      · rw [List.mem_singleton.mp hlabel]
        rfl
      · cases hlabel
    · split at hpoint
      · split at hpoint
        · rw [List.mem_singleton.mp hpoint]
          rfl
        · cases hpoint
      · cases hpoint
  rw [hplain, Bool.not_false, Bool.or_true]

theorem laid_withCastsAt (scope : Scope) (casts : Nat → Bool) (codes : List (List Instr)) :
    scope.laid (withCastsAt casts codes) = (withCastsAt casts
      (codes.mapIdx fun position code => scope.head position ++ code)).flatten := by
  unfold laid withCastsAt
  simp only [List.mapIdx_mapIdx, Function.comp_def, withCasts_append, withCasts_head]

theorem Twins.uncasts {scope : Scope} {other : Surroundings} {codes : List (List Instr)}
    {exit : List Instr} {result result' : MethodBody × BodyStats}
    (h : scope.Twins other scope.function.keepsCasts codes exit result result')
    (hpoints : other.settings.emitSequencePoints = scope.settings.emitSequencePoints) :
    scope.Uncasts (codes.mapIdx fun position code => scope.head position ++ code) exit
      result.1.body result'.1.body := by
  refine ⟨List.length_mapIdx.trans h.length, ?_, h.body, ?_⟩
  · intro position code hcode
    rw [List.getElem?_mapIdx] at hcode
    obtain ⟨plain, hplain, rfl⟩ := Option.map_eq_some_iff.mp hcode
    exact (h.lowers position plain hplain).1
  · rw [h.body', ← laid_withCastsAt, laid, laid, head_within hpoints]

end Scope

namespace FunctionDef

variable {function : FunctionDef} {image : Image} {registry registry' : Registry}
  {settings : Settings} {signature : Signature}

theorem pairs_safeCast {scope : Scope}
    (hsettings : scope.settings = settings.withSafeCast .checked) (position : Nat) :
    scope.Pairs
      (scope.function.surroundings image registry (settings.withSafeCast .unchecked))
      scope.function.keepsCasts position := by
  refine .of_same rfl fun op hop => ?_
  rw [keepsCasts, hop]
  by_cases hcast : op.opcode = .safeCast
  · have hrun : Emit.operation op = Emit.safeCast (op.param 0) (op.param 1) := by
      simp only [Emit.operation, hcast]
    rw [hrun, Option.all_some, hcast]
    exact Emit.tandem_safeCast _ _ (by rw [hsettings]; rfl) rfl
  · have hkeeps : (op.opcode != .safeCast) = true := bne_iff_ne.mpr hcast
    rw [Option.all_some, hkeeps]
    refine Emit.tandem_operation rfl (Or.inl ?_) fun hsafe => absurd hsafe hcast
    rw [hsettings]
    rfl

theorem lower_safeCast
    (hregistry : registry.within
      (function.surroundings image registry' (settings.withSafeCast .unchecked)) = registry') :
    Abreast (function.Uncasts image registry settings signature)
      (function.lower image registry (settings.withSafeCast .checked) signature)
      (function.lower image registry' (settings.withSafeCast .unchecked) signature) := by
  refine abreast_of_pairs function.keepsCasts hregistry ?_ ?_
  · intro scope hscope position _
    have hsettings := settings_of_scope hscope
    obtain ⟨-, -, -, -, rfl, -⟩ := scope_ok hscope
    exact pairs_safeCast hsettings position
  · intro scope codes exit result result' hscope hlower htwins
    have hfunction := hscope
    obtain ⟨-, -, -, -, rfl, -⟩ := scope_ok hfunction
    refine ⟨scope, _, exit, _, _, hscope, hlower, htwins.uncasts ?_⟩
    rw [settings_of_scope hscope]
    rfl

end FunctionDef

/-! ## Asking for no check -/

/-- A safe cast becomes a cast that is never checked. -/
def Operation.uncheck (op : Operation) : Operation :=
  if op.opcode = .safeCast then { op with opcode := .uncheckedCast } else op

def FunctionDef.uncheck (function : FunctionDef) : FunctionDef :=
  { function with operations := function.operations.map Operation.uncheck }

def Image.uncheck (image : Image) : Image :=
  { image with functions := image.functions.map FunctionDef.uncheck }

theorem Operation.branchOffsets_uncheck (op : Operation) :
    op.uncheck.branchOffsets = op.branchOffsets := by
  unfold uncheck
  split
  · rename_i hcast
    simp only [branchOffsets, hcast]
  · rfl

namespace Flow

theorem targetsOf_uncheck (function : FunctionDef) (op : Operation) (position : Nat) :
    targetsOf function.uncheck (op.uncheck, position) = targetsOf function (op, position) := by
  have hcheck : checkTarget function.uncheck = checkTarget function := by
    funext position offset
    simp only [checkTarget, FunctionDef.uncheck, List.length_map]
  rw [targetsOf, targetsOf, hcheck, Operation.branchOffsets_uncheck]

theorem step_uncheck (length : Nat) (scan : TrapScan) (op : Operation) (position : Nat) :
    TrapScan.step length scan (op.uncheck, position)
      = TrapScan.step length scan (op, position) := by
  unfold Operation.uncheck
  split
  · rename_i hcast
    simp only [TrapScan.step, hcast]
  · rfl

theorem analyze_uncheck (function : FunctionDef) : analyze function.uncheck = analyze function := by
  have hitems : function.uncheck.operations.zipIdx
      = function.operations.zipIdx.map fun item => (item.1.uncheck, item.2) :=
    List.zipIdx_map
  have hlength : function.uncheck.operations.length = function.operations.length :=
    List.length_map _
  have htargets : jumpTargets function.uncheck = jumpTargets function := by
    have hstep : targetsOf function.uncheck ∘ (fun item => (item.1.uncheck, item.2))
        = targetsOf function := funext fun item => targetsOf_uncheck function item.1 item.2
    rw [jumpTargets, jumpTargets, hitems, List.mapM_map, hstep]
  have hscan : scanTraps function.uncheck.operations = scanTraps function.operations := by
    simp only [scanTraps, hitems, hlength, List.foldl_map, step_uncheck]
  simp only [analyze, htargets, hscan, hlength]

end Flow

namespace FunctionDef

variable {function : FunctionDef} {image : Image} {registry : Registry} {settings : Settings}
  {signature : Signature}

theorem pairs_uncheck {scope : Scope} {other : Surroundings}
    (hunchecked : scope.settings.safeCast = .unchecked)
    (hsettings : other.settings = scope.settings)
    (hoperations : other.operations = scope.function.uncheck.operations) (position : Nat) :
    scope.Pairs other (fun _ => true) position := by
  have hlength : other.operations.length = scope.function.operations.length := by
    rw [hoperations]
    exact List.length_map _
  intro op op' hop hop'
  rw [hoperations, uncheck, List.getElem?_map, hop] at hop'
  obtain rfl : op.uncheck = op' := Option.some.inj hop'
  unfold Operation.uncheck
  split
  · rename_i hcast
    have hrun : Emit.operation op = Emit.safeCast (op.param 0) (op.param 1) := by
      simp only [Emit.operation, hcast]
    rw [hrun, hcast]
    exact Emit.tandem_uncheckedCast _ _ hunchecked
  · exact Emit.tandem_operation hlength (Or.inl (by rw [hsettings])) fun _ => by rw [hsettings]

/-- Without checks a function is lowered like the one that asks for none. -/
theorem lower_uncheck {result : MethodBody × BodyStats}
    (h : function.lower image registry (settings.withSafeCast .unchecked) signature
      = .ok result) :
    function.uncheck.lower image.uncheck registry (settings.withSafeCast .unchecked) signature
      = .ok result := by
  generalize hother : function.uncheck.surroundings image.uncheck registry
    (settings.withSafeCast .unchecked) = other
  have hsettings : other.settings = settings.withSafeCast .unchecked := by
    rw [← hother]
    rfl
  have hoperations : other.operations = function.uncheck.operations := by
    rw [← hother]
    rfl
  have hfunction : function.within other = function.uncheck := by
    rw [← hother]
    rfl
  have hpairs (scope : Scope)
      (hscope : function.scope image registry (settings.withSafeCast .unchecked) signature
        = .ok scope)
      (position : Nat) (_ : position < scope.function.operations.length) :
      scope.Pairs other (fun _ => true) position := by
    have hscope' := settings_of_scope hscope
    obtain ⟨-, -, -, -, rfl, -⟩ := scope_ok hscope
    exact pairs_uncheck (by rw [hscope']; rfl) (hsettings.trans hscope'.symm) hoperations position
  have hflow : Flow.analyze (function.within other) = Flow.analyze function := by
    rw [hfunction, Flow.analyze_uncheck]
  have hlength : other.operations.length = function.operations.length := by
    rw [hoperations]
    exact List.length_map _
  rcases lower_twins hpairs hflow hlength with
    ⟨scope, codes, exit, found, found', hscope, hlower, hlower', htwins⟩ |
    ⟨error, _, hfail, -, -⟩
  · have hpoints : other.settings.emitSequencePoints = scope.settings.emitSequencePoints := by
      rw [hsettings, settings_of_scope hscope]
    obtain rfl := htwins.same hpoints
    rw [h] at hlower
    cases hlower
    rw [← hother] at hlower'
    exact hlower'
  · rw [h] at hfail
    cases hfail

end FunctionDef

end BytecodeLowering
