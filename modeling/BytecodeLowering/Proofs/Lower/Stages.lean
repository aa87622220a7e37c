import Mathlib.Data.List.Basic
import Mathlib.Tactic.IntervalCases
import BytecodeLowering.Lower.Registry

/-!
# The stage machine of the registry

Whatever calls a registry receives, in whatever order, only those are accepted
that move the module, a type or a function on by one stage: a refused call
leaves no trace, an accepted one changes the pass or the one entry that it
names.
-/

namespace BytecodeLowering

/-- A call that asks the registry to move something on. -/
inductive StageCall where
  | enterPass (stage : Stage)
  | register (index : TypeIndex) (declaration : Declaration)
  | advance (index : TypeIndex) (stage : Stage)
  | defineFunction (entry : FunctionEntry)
  | markCompiled (function : Nat)

namespace StageCall

def run : StageCall → Lowering Unit
  | enterPass stage => Registry.enterPass stage
  | register index declaration => Registry.register index declaration
  | advance index stage => Registry.advance index stage
  | defineFunction entry => Registry.defineFunction entry
  | markCompiled function => Registry.markCompiled function

/-- What each call requires of the registry, and the registry that it makes. -/
inductive Effect : StageCall → Registry → Registry → Prop
  | enterPass {registry : Registry} {stage : Stage} (hpass : registry.pass = stage.previous) :
      Effect (.enterPass stage) registry { registry with pass := some stage }
  | register {registry : Registry} {index : TypeIndex} {declaration : Declaration}
      (hvacant : registry.types[index]? = some none) :
      Effect (.register index declaration) registry
        { registry with types := registry.types.set index (some declaration) }
  | advance {registry : Registry} {index : TypeIndex} {stage : Stage} {declaration : Declaration}
      (hfound : registry.types[index]? = some (some declaration))
      (hstage : stage.previous = some declaration.stage) :
      Effect (.advance index stage) registry
        { registry with types := registry.types.set index (some { declaration with stage }) }
  | defineFunction {registry : Registry} {entry : FunctionEntry}
      (hvacant : registry.functions[entry.function]? = some none) :
      Effect (.defineFunction entry) registry
        { registry with functions := registry.functions.set entry.function (some entry) }
  | markCompiled {registry : Registry} {function : Nat} {entry : FunctionEntry}
      (hfound : registry.functions[function]? = some (some entry))
      (hstage : entry.stage = .defined) :
      Effect (.markCompiled function) registry
        { registry with
          functions := registry.functions.set function (some { entry with stage := .compiled }) }

/-- A call either has its effect, or it is refused and has none. -/
def Answered (call : StageCall) (registry : Registry) : Prop :=
  (∃ after, call.run registry = .ok () after ∧ call.Effect registry after) ∨
    ∃ error, call.run registry = .error error registry ∧ ∀ after, ¬ call.Effect registry after

section Answers

variable {call : StageCall} {registry after : Registry}

theorem answered_ok (hrun : call.run registry = .ok () after)
    (heffect : call.Effect registry after) : call.Answered registry :=
  Or.inl ⟨after, hrun, heffect⟩

theorem answered_error (error : LoweringError) (hrun : call.run registry = .error error registry)
    (hnone : ∀ after, ¬ call.Effect registry after) : call.Answered registry :=
  Or.inr ⟨error, hrun, hnone⟩

theorem vacant_of_register {index : TypeIndex} {declaration : Declaration}
    (h : (register index declaration).Effect registry after) :
    registry.types[index]? = some none := by
  cases h with
  | register hvacant => exact hvacant

theorem vacant_of_defineFunction {entry : FunctionEntry}
    (h : (defineFunction entry).Effect registry after) :
    registry.functions[entry.function]? = some none := by
  cases h with
  | defineFunction hvacant => exact hvacant

theorem get_run (next : Registry → Lowering Unit) :
    (get >>= next) registry = next registry registry := rfl

theorem answered_enterPass (registry : Registry) (stage : Stage) :
    (enterPass stage).Answered registry := by
  by_cases hpass : registry.pass = stage.previous
  · refine answered_ok ?_ (.enterPass hpass)
    rw [run, Registry.enterPass, get_run, if_pos hpass]
    rfl
  · refine answered_error (.stageOrder "module" stage registry.pass) ?_ ?_
    · rw [run, Registry.enterPass, get_run, if_neg hpass]
      rfl
    · intro after heffect
      cases heffect with
      | enterPass hpass' => exact hpass hpass'

theorem answered_register (registry : Registry) (index : TypeIndex) (declaration : Declaration) :
    (register index declaration).Answered registry := by
  cases hplace : registry.types[index]? with
  | none =>
      refine answered_error (.unresolvedType index "index outside the type table") ?_ ?_
      · simp only [run, Registry.register, get_run, hplace]
        rfl
      · intro after heffect
        cases hplace.symm.trans (vacant_of_register heffect)
  | some place =>
      cases place with
      | none =>
          refine answered_ok ?_ (.register hplace)
          simp only [run, Registry.register, get_run, hplace]
          rfl
      | some existing =>
          refine answered_error
            (.stageOrder (TypeIndex.text index) .resolved (some existing.stage)) ?_ ?_
          · simp only [run, Registry.register, get_run, hplace]
            rfl
          · intro after heffect
            cases hplace.symm.trans (vacant_of_register heffect)

theorem answered_advance (registry : Registry) (index : TypeIndex) (stage : Stage) :
    (advance index stage).Answered registry := by
  by_cases hmove : ∃ declaration, registry.types[index]? = some (some declaration) ∧
      stage.previous = some declaration.stage
  · obtain ⟨declaration, hfound, hstage⟩ := hmove
    refine answered_ok ?_ (.advance hfound hstage)
    have hdeclaration : registry.declaration? index = some declaration := by
      rw [Registry.declaration?, hfound, Option.join_some]
    rw [run, Registry.advance, get_run, hdeclaration, if_pos ⟨rfl, hstage.symm⟩]
    change EStateM.Result.ok () ({ registry with
      types := registry.types.modify index (·.map fun found => { found with stage }) } :
        Registry) = _
    rw [List.modify_eq_set_getElem?, hfound]
    rfl
  · refine answered_error (.stageOrder (TypeIndex.text index) stage
      ((registry.declaration? index).map (·.stage))) ?_ ?_
    · rw [run, Registry.advance, get_run, if_neg ?_]
      · rfl
      · rintro ⟨hsome, hstage⟩
        obtain ⟨declaration, hdeclaration, hfound⟩ := Option.map_eq_some_iff.mp
          (Option.some_get hsome).symm
        exact hmove ⟨declaration, Option.join_eq_some_iff.mp hdeclaration, by
          rw [← hstage, hdeclaration, Option.map_some]⟩
    · intro after heffect
      cases heffect with
      | advance hfound hstage => exact hmove ⟨_, hfound, hstage⟩

theorem answered_defineFunction (registry : Registry) (entry : FunctionEntry) :
    (defineFunction entry).Answered registry := by
  cases hplace : registry.functions[entry.function]? with
  | none =>
      refine answered_error
        (.invalidFunctionIndex entry.function (Word.signed32 entry.function)) ?_ ?_
      · simp only [run, Registry.defineFunction, get_run, hplace]
        rfl
      · intro after heffect
        cases hplace.symm.trans (vacant_of_defineFunction heffect)
  | some place =>
      cases place with
      | none =>
          refine answered_ok ?_ (.defineFunction hplace)
          simp only [run, Registry.defineFunction, get_run, hplace]
          rfl
      | some existing =>
          refine answered_error
            (.stageOrder s!"fun{entry.function}" .defined (some existing.stage)) ?_ ?_
          · simp only [run, Registry.defineFunction, get_run, hplace]
            rfl
          · intro after heffect
            cases hplace.symm.trans (vacant_of_defineFunction heffect)

theorem answered_markCompiled (registry : Registry) (function : Nat) :
    (markCompiled function).Answered registry := by
  cases hentry : registry.function? function with
  | none =>
      refine answered_error (.stageOrder s!"fun{function}" .compiled none) ?_ ?_
      · simp only [run, Registry.markCompiled, get_run, hentry]
        rfl
      · intro after heffect
        cases heffect with
        | markCompiled hfound hstage =>
            rw [Registry.function?, hfound] at hentry
            cases hentry
  | some entry =>
      have hfound : registry.functions[function]? = some (some entry) :=
        Option.join_eq_some_iff.mp hentry
      by_cases hstage : entry.stage = .defined
      · refine answered_ok ?_ (.markCompiled hfound hstage)
        simp only [run, Registry.markCompiled, get_run, hentry, if_pos hstage]
        rfl
      · refine answered_error (.stageOrder s!"fun{function}" .compiled (some entry.stage)) ?_ ?_
        · simp only [run, Registry.markCompiled, get_run, hentry, if_neg hstage]
          rfl
        · intro after heffect
          cases heffect with
          | markCompiled hfound' hstage' =>
              cases hfound.symm.trans hfound'
              exact hstage hstage'

theorem answered (call : StageCall) (registry : Registry) : call.Answered registry := by
  cases call with
  | enterPass stage => exact answered_enterPass registry stage
  | register index declaration => exact answered_register registry index declaration
  | advance index stage => exact answered_advance registry index stage
  | defineFunction entry => exact answered_defineFunction registry entry
  | markCompiled function => exact answered_markCompiled registry function

end Answers

/-! ## What a call is about -/

def pass? : StageCall → Option Stage
  | enterPass stage => some stage
  | _ => none

def concernsType (index : TypeIndex) : StageCall → Bool
  | register other _ | advance other _ => other = index
  | _ => false

def concernsFunction (function : Nat) : StageCall → Bool
  | defineFunction entry => entry.function = function
  | markCompiled other => other = function
  | _ => false

end StageCall

/-! ## Histories -/

/-- The calls that moved one type, in their order: it is registered first and
then goes on from stage to stage, none left out. -/
inductive TypeHistory (index : TypeIndex) : List StageCall → Option Declaration → Prop
  | undeclared : TypeHistory index [] none
  | registered (declaration : Declaration) :
      TypeHistory index [.register index declaration] (some declaration)
  | advanced {calls : List StageCall} {declaration : Declaration} {stage : Stage}
      (hcalls : TypeHistory index calls (some declaration))
      (hstage : stage.previous = some declaration.stage) :
      TypeHistory index (calls ++ [.advance index stage]) (some { declaration with stage })

/-- The calls that moved one function: it is defined, and once it is defined it
can be compiled. -/
inductive FunctionHistory (function : Nat) : List StageCall → Option FunctionEntry → Prop
  | undefined : FunctionHistory function [] none
  | defined (entry : FunctionEntry) (hfunction : entry.function = function) :
      FunctionHistory function [.defineFunction entry] (some entry)
  | compiled (entry : FunctionEntry) (hfunction : entry.function = function)
      (hstage : entry.stage = .defined) :
      FunctionHistory function [.defineFunction entry, .markCompiled function]
        (some { entry with stage := .compiled })

def Lowering.outcome (step : Lowering α) (registry : Registry) : Registry × Bool :=
  match step registry with
  | .ok _ after => (after, true)
  | .error _ after => (after, false)

/-- A registry together with the calls that it has accepted. -/
structure StageSession where
  registry : Registry
  accepted : List StageCall

namespace StageSession

def submit (session : StageSession) (call : StageCall) : StageSession :=
  let outcome := call.run.outcome session.registry
  ⟨outcome.1, if outcome.2 then session.accepted ++ [call] else session.accepted⟩

/-- The accepted calls tell where the registry stands. -/
structure Orderly (session : StageSession) : Prop where
  passes : session.accepted.filterMap StageCall.pass? <+: [.resolved, .defined, .compiled]
  pass : session.registry.pass = (session.accepted.filterMap StageCall.pass?).getLast?
  types : ∀ index, TypeHistory index (session.accepted.filter (·.concernsType index))
    (session.registry.declaration? index)
  functions : ∀ function,
    FunctionHistory function (session.accepted.filter (·.concernsFunction function))
      (session.registry.function? function)

/-! ### One more call -/

section Submit

variable {session : StageSession} {call : StageCall} {after : Registry}

theorem submit_ok (hrun : call.run session.registry = .ok () after) :
    session.submit call = ⟨after, session.accepted ++ [call]⟩ := by
  rw [submit, Lowering.outcome, hrun]
  rfl

theorem submit_error {error : LoweringError}
    (hrun : call.run session.registry = .error error session.registry) :
    session.submit call = session := by
  rw [submit, Lowering.outcome, hrun]
  rfl

end Submit

theorem passes_next {passes : List Stage} {stage : Stage}
    (hpasses : passes <+: [.resolved, .defined, .compiled])
    (hlast : passes.getLast? = stage.previous) :
    passes ++ [stage] <+: [.resolved, .defined, .compiled] := by
  obtain ⟨count, hcount, rfl⟩ : ∃ count, count < 4 ∧
      passes = [Stage.resolved, .defined, .compiled].take count :=
    ⟨passes.length, Nat.lt_succ_of_le hpasses.length_le, List.prefix_iff_eq_take.mp hpasses⟩
  interval_cases count <;> cases stage <;> first | decide | cases hlast

section Accepted

variable {call : StageCall} {before after : Registry} {calls : List StageCall}

theorem filter_outside {concerns : StageCall → Bool} (h : concerns call = false) :
    (calls ++ [call]).filter concerns = calls.filter concerns := by
  rw [List.filter_append, List.filter_cons_of_neg (by simp [h]), List.filter_nil, List.append_nil]

theorem filter_inside {concerns : StageCall → Bool} (h : concerns call = true) :
    (calls ++ [call]).filter concerns = calls.filter concerns ++ [call] := by
  rw [List.filter_append, List.filter_cons_of_pos h, List.filter_nil]

theorem passes_accepted (heffect : call.Effect before after)
    (hpasses : calls.filterMap StageCall.pass? <+: [.resolved, .defined, .compiled])
    (hpass : before.pass = (calls.filterMap StageCall.pass?).getLast?) :
    (calls ++ [call]).filterMap StageCall.pass? <+: [.resolved, .defined, .compiled] ∧
      after.pass = ((calls ++ [call]).filterMap StageCall.pass?).getLast? := by
  rw [List.filterMap_append]
  cases heffect with
  | @enterPass _ stage hprevious =>
      refine ⟨passes_next hpasses (hpass.symm.trans hprevious), ?_⟩
      exact List.getLast?_concat.symm
  | register | advance | defineFunction | markCompiled =>
      rw [List.filterMap_cons_none rfl, List.filterMap_nil, List.append_nil]
      exact ⟨hpasses, hpass⟩

theorem declaration?_set {index : TypeIndex} {place : Option Declaration}
    (hplace : before.types[index]? = some place) (declaration : Declaration) (other : TypeIndex) :
    ({ before with types := before.types.set index (some declaration) } :
        Registry).declaration? other
      = if index = other then some declaration else before.declaration? other := by
  obtain ⟨hindex, -⟩ := List.getElem?_eq_some_iff.mp hplace
  simp only [Registry.declaration?, List.getElem?_set, if_pos hindex]
  split <;> rfl

theorem function?_set {function : Nat} {place : Option FunctionEntry}
    (hplace : before.functions[function]? = some place) (entry : FunctionEntry) (other : Nat) :
    ({ before with functions := before.functions.set function (some entry) } :
        Registry).function? other
      = if function = other then some entry else before.function? other := by
  obtain ⟨hfunction, -⟩ := List.getElem?_eq_some_iff.mp hplace
  simp only [Registry.function?, List.getElem?_set, if_pos hfunction]
  split <;> rfl

theorem types_accepted {index : TypeIndex} (heffect : call.Effect before after)
    (h : TypeHistory index (calls.filter (·.concernsType index)) (before.declaration? index)) :
    TypeHistory index ((calls ++ [call]).filter (·.concernsType index))
      (after.declaration? index) := by
  cases heffect with
  | @register _ other declaration hvacant =>
      rw [declaration?_set hvacant]
      by_cases hother : other = index
      · subst hother
        rw [filter_inside (decide_eq_true rfl), if_pos rfl]
        rw [Registry.declaration?, hvacant, Option.join_some] at h
        generalize calls.filter _ = moves at h ⊢
        cases h
        exact .registered declaration
      · rw [filter_outside (decide_eq_false hother), if_neg hother]
        exact h
  | @advance _ other stage declaration hfound hstage =>
      rw [declaration?_set hfound]
      by_cases hother : other = index
      · subst hother
        rw [filter_inside (decide_eq_true rfl), if_pos rfl]
        rw [Registry.declaration?, hfound, Option.join_some] at h
        exact .advanced h hstage
      · rw [filter_outside (decide_eq_false hother), if_neg hother]
        exact h
  | enterPass | defineFunction | markCompiled =>
      rw [filter_outside rfl]
      exact h

theorem functions_accepted {function : Nat} (heffect : call.Effect before after)
    (h : FunctionHistory function (calls.filter (·.concernsFunction function))
      (before.function? function)) :
    FunctionHistory function ((calls ++ [call]).filter (·.concernsFunction function))
      (after.function? function) := by
  cases heffect with
  | @defineFunction _ entry hvacant =>
      rw [function?_set hvacant]
      by_cases hentry : entry.function = function
      · rw [filter_inside (decide_eq_true hentry), if_pos hentry]
        rw [hentry] at hvacant
        rw [Registry.function?, hvacant, Option.join_some] at h
        generalize calls.filter _ = moves at h ⊢
        cases h
        exact .defined entry hentry
      · rw [filter_outside (decide_eq_false hentry), if_neg hentry]
        exact h
  | @markCompiled _ other entry hfound hstage =>
      rw [function?_set hfound]
      by_cases hother : other = function
      · subst hother
        rw [filter_inside (decide_eq_true rfl), if_pos rfl]
        rw [Registry.function?, hfound, Option.join_some] at h
        generalize calls.filter _ = moves at h ⊢
        cases h with
        | defined entry hfunction => exact .compiled entry hfunction hstage
        | compiled => cases hstage
      · rw [filter_outside (decide_eq_false hother), if_neg hother]
        exact h
  | enterPass | register | advance =>
      rw [filter_outside rfl]
      exact h

end Accepted

theorem Orderly.submit {session : StageSession} (h : session.Orderly) (call : StageCall) :
    (session.submit call).Orderly := by
  rcases call.answered session.registry with ⟨after, hrun, heffect⟩ | ⟨error, hrun, -⟩
  · rw [submit_ok hrun]
    obtain ⟨hpasses, hpass⟩ := passes_accepted heffect h.passes h.pass
    exact ⟨hpasses, hpass, fun index => types_accepted heffect (h.types index),
      fun function => functions_accepted heffect (h.functions function)⟩
  · rw [submit_error hrun]
    exact h

end StageSession

namespace Registry

def session (registry : Registry) (calls : List StageCall) : StageSession :=
  calls.foldl StageSession.submit ⟨registry, []⟩

theorem orderly_create (name : String) (typeCount functionCount : Nat) :
    StageSession.Orderly ⟨create name typeCount functionCount, []⟩ where
  passes := List.nil_prefix
  pass := rfl
  types index := by
    rw [declaration?_create]
    exact .undeclared
  functions function := by
    rw [function?_create]
    exact .undefined

theorem orderly_foldl {session : StageSession} (h : session.Orderly) (calls : List StageCall) :
    (calls.foldl StageSession.submit session).Orderly := by
  induction calls generalizing session with
  | nil => exact h
  | cons call calls ih => exact ih (h.submit call)

/-- After any calls in any order the registry stands where the accepted ones
have brought it, and it answers every further call by exactly its effect or,
unchanged, by an error. -/
theorem stages_of_session (name : String) (typeCount functionCount : Nat)
    (calls : List StageCall) :
    ((create name typeCount functionCount).session calls).Orderly ∧
      ∀ call : StageCall,
        call.Answered ((create name typeCount functionCount).session calls).registry :=
  ⟨orderly_foldl (orderly_create name typeCount functionCount) calls,
    fun call => call.answered _⟩

/-- Out of order, twice, and beyond the table: three of six calls are refused. -/
example :
    let calls : List StageCall := [.enterPass .defined, .enterPass .resolved, .advance 0 .defined,
      .register 0 ⟨.resolved, 0, 0, .abstract "handle"⟩, .advance 0 .compiled, .advance 0 .defined]
    ((create "m" 1 0).session calls).accepted.length = 3 := by decide

end Registry

end BytecodeLowering
