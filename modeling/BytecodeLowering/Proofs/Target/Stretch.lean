import BytecodeLowering.Proofs.Target.Execution

/-!
# Stretches of code

A stretch of a body runs from its first to behind its last instruction,
whatever stands around it, as long as nothing there has its labels.  Stretches
are put together one after the other, and a call is a stretch of the caller
when the body of the callee runs to its return.
-/

namespace BytecodeLowering

variable {α : Type}

theorem place_of_mark {before behind : List Instr} {label : Label}
    (h : .markLabel label ∉ before) :
    (before ++ .markLabel label :: behind).idxOf? (.markLabel label) = some before.length := by
  rw [List.idxOf?_eq_some_iff]
  refine ⟨by simp, by simp, fun place hplace hfound => h ?_⟩
  rw [List.getElem_append_left hplace] at hfound
  exact hfound ▸ List.getElem_mem hplace

def Config.at (code : List Instr) (results : Nat) (callers : List (CallFrame α)) (place : Nat)
    (state : MachineState α) : Config α :=
  ⟨⟨code, place, state.2, results⟩, callers, state.1⟩

namespace Host

variable {host : Host α} {module : TargetModule} {code : List Instr} {results place there : Nat}
  {callers : List (CallFrame α)} {world : World α} {activation : Activation (Content α)}
  {label : Label} {comparison : Comparison} {a b : Value α}

theorem step_at_mark (label : Label) (hinstr : code[place]? = some (.markLabel label)) :
    host.step module (.at code results callers place (world, activation)) =
      some (.at code results callers (place + 1) (world, activation)) :=
  step_of_effect hinstr rfl

theorem step_at_br (hinstr : code[place]? = some (.br label))
    (hmark : code.idxOf? (.markLabel label) = some there) :
    host.step module (.at code results callers place (world, activation)) =
      some (.at code results callers there (world, activation)) := by
  refine (step_br hinstr).trans ?_
  simp only [Config.jump, Config.at, hmark, Option.map_some]
  rfl

theorem step_at_leave (hinstr : code[place]? = some (.leave label))
    (hmark : code.idxOf? (.markLabel label) = some there) :
    host.step module (.at code results callers place (world, activation)) =
      some (.at code results callers there (world, { activation with stack := [] })) := by
  refine (step_leave hinstr).trans ?_
  simp only [Config.jump, Config.at, hmark, Option.map_some]
  rfl

theorem step_at_branch_taken (hinstr : code[place]? = some (.branch comparison label))
    (htaken : Slot.compare comparison a b = some true)
    (hmark : code.idxOf? (.markLabel label) = some there) :
    host.step module (.at code results callers place (world, (activation.push a).push b)) =
      some (.at code results callers there (world, activation)) := by
  refine (step_branch hinstr rfl htaken).trans ?_
  simp only [Config.choose, if_true, Config.jump, Config.at, hmark, Option.map_some]
  rfl

theorem step_at_branch_passed (label : Label)
    (hinstr : code[place]? = some (.branch comparison label))
    (htaken : Slot.compare comparison a b = some false) :
    host.step module (.at code results callers place (world, (activation.push a).push b)) =
      some (.at code results callers (place + 1) (world, activation)) :=
  step_branch hinstr rfl htaken

end Host

def Apart (first next : Nat) (before behind : List Instr) : Prop :=
  ∀ label : Nat, first ≤ label → label < next →
    .markLabel label ∉ before ∧ .markLabel label ∉ behind

/-- The code, with the own labels from `first` to before `next`, takes the
machine from one state to another. -/
structure Executes (host : Host α) (module : TargetModule) (first : Nat) (code : List Instr)
    (next : Nat) (state after : MachineState α) : Prop where
  le : first ≤ next
  own : ∀ label : Nat, .markLabel label ∈ code → first ≤ label ∧ label < next
  reaches : ∀ (before behind : List Instr) (results : Nat) (callers : List (CallFrame α)),
    Apart first next before behind → host.Reaches module
      (.at (before ++ (code ++ behind)) results callers before.length state)
      (.at (before ++ (code ++ behind)) results callers (before.length + code.length) after)

namespace Apart

variable {first middle next : Nat} {before behind code : List Instr}

theorem append_behind (h : Apart first next before behind) (hle : middle ≤ next)
    (hcode : ∀ label : Nat, .markLabel label ∈ code → middle ≤ label ∧ label < next) :
    Apart first middle before (code ++ behind) := by
  intro label hlow hhigh
  obtain ⟨hbefore, hbehind⟩ := h label hlow (Nat.lt_of_lt_of_le hhigh hle)
  refine ⟨hbefore, fun hmem => ?_⟩
  rcases List.mem_append.mp hmem with hmem | hmem
  · exact absurd hhigh (Nat.not_lt_of_le (hcode label hmem).1)
  · exact hbehind hmem

theorem append_before (h : Apart first next before behind) (hle : first ≤ middle)
    (hcode : ∀ label : Nat, .markLabel label ∈ code → first ≤ label ∧ label < middle) :
    Apart middle next (before ++ code) behind := by
  intro label hlow hhigh
  obtain ⟨hbefore, hbehind⟩ := h label (Nat.le_trans hle hlow) hhigh
  refine ⟨fun hmem => ?_, hbehind⟩
  rcases List.mem_append.mp hmem with hmem | hmem
  · exact hbefore hmem
  · exact absurd (hcode label hmem).2 (Nat.not_lt_of_le hlow)

end Apart

namespace Executes

variable {host : Host α} {module : TargetModule} {first middle next : Nat}
  {code more : List Instr} {state between after : MachineState α}

theorem nil (first : Nat) (state : MachineState α) :
    Executes host module first [] first state state :=
  ⟨Nat.le_refl _, nofun, fun _ _ _ _ _ => .refl⟩

theorem append (h : Executes host module first code middle state between)
    (hmore : Executes host module middle more next between after) :
    Executes host module first (code ++ more) next state after := by
  refine ⟨Nat.le_trans h.le hmore.le, ?_, ?_⟩
  · intro label hlabel
    rcases List.mem_append.mp hlabel with hlabel | hlabel
    · exact ⟨(h.own label hlabel).1, Nat.lt_of_lt_of_le (h.own label hlabel).2 hmore.le⟩
    · exact ⟨Nat.le_trans h.le (hmore.own label hlabel).1, (hmore.own label hlabel).2⟩
  · intro before behind results callers hlabels
    have hfirst := h.reaches before (more ++ behind) results callers
      (hlabels.append_behind hmore.le hmore.own)
    have hsecond := hmore.reaches (before ++ code) behind results callers
      (hlabels.append_before h.le h.own)
    simp only [List.append_assoc, List.length_append, ← Nat.add_assoc] at hfirst hsecond ⊢
    exact hfirst.trans hsecond

theorem of_effect {instr : Instr} (hmark : ∀ label, instr ≠ .markLabel label)
    (h : host.effect module state instr = some after) (first : Nat) :
    Executes host module first [instr] first state after := by
  refine ⟨Nat.le_refl _, fun label hlabel => absurd (List.mem_singleton.mp hlabel).symm
    (hmark label), fun before behind results callers _ => .single ?_⟩
  refine Host.step_of_effect ?_ h
  simp [Config.at]

theorem of_run {world : World α} {activation last : Activation (Content α)}
    (h : Activation.run host.strict code activation = some last) (first : Nat) :
    Executes host module first code first (world, activation) (world, last) := by
  induction code generalizing activation with
  | nil =>
      cases h
      exact .nil first _
  | cons instr code ih =>
      obtain ⟨between, hinstr, hrest⟩ := Option.bind_eq_some_iff.mp h
      have hmark (label : Label) : instr ≠ .markLabel label := by
        rintro rfl
        cases hinstr
      exact (of_effect hmark (Host.effect_of_integers hinstr) first).append (ih hrest)

end Executes

/-! ## Calls -/

/-- The body that a frame runs comes to its return with some values, whoever
has called it. -/
def Host.Returns (host : Host α) (module : TargetModule) (frame : CallFrame α) (world : World α)
    (values : List (Value α)) (after : World α) : Prop :=
  ∀ callers, ∃ last : CallFrame α, host.Reaches module ⟨frame, callers, world⟩ ⟨last, callers, after⟩ ∧
    last.code[last.place]? = some .ret ∧ last.results = values.length ∧
      last.activation.stack = values

namespace Executes

variable {host : Host α} {module : TargetModule} {method : MethodDecl} {world after : World α}
  {activation : Activation (Content α)} {id : MethodId} {arguments stack : List (Value α)}

theorem returns {code : List Instr} {next : Nat} {last : Activation (Content α)}
    (hbody : method.body = code ++ [.ret])
    (h : Executes host module 0 code next (world, (method.enter arguments).activation)
      (after, last))
    (hresults : last.stack.length = method.signature.ret.slots) :
    host.Returns module (method.enter arguments) world last.stack after := by
  intro callers
  have hreaches := h.reaches [] [.ret] method.signature.ret.slots callers (by simp [Apart])
  rw [List.nil_append, ← hbody, List.length_nil, Nat.zero_add] at hreaches
  exact ⟨_, hreaches, by simp [hbody], hresults.symm, rfl⟩

theorem take_arguments {count : Nat} (hcount : arguments.length = count) :
    (arguments.reverse ++ stack).take count = arguments.reverse ∧
      (arguments.reverse ++ stack).drop count = stack := by
  rw [← hcount, ← List.length_reverse]
  exact ⟨List.take_left, List.drop_left⟩

theorem construct {owner : TypeId} (hmethod : module.method? id = some method)
    (howner : method.owner = some owner)
    (hcount : arguments.length = method.signature.params.length)
    (hreturns : host.Returns module (method.enter (.object world.heap.length :: arguments))
      (world.add (module.blank owner)) [] after) (first : Nat) :
    Executes host module first [.newObj (.method id)] first
      (world, { activation with stack := arguments.reverse ++ stack })
      (after, { activation with stack := Value.object world.heap.length :: stack }) := by
  refine ⟨Nat.le_refl _, nofun, fun before behind results callers _ => ?_⟩
  obtain ⟨htake, hdrop⟩ := @take_arguments α arguments stack _ hcount
  obtain ⟨last, hlast, hret, hresults, hvalues⟩ := hreturns
    (⟨before ++ ([.newObj (.method id)] ++ behind), before.length + 1,
      { activation with stack := Value.object world.heap.length :: stack }, results⟩ :: callers)
  refine (Relation.ReflTransGen.head ?_ hlast).tail ?_
  · refine (Host.step_construct id (by simp [Config.at])).trans ?_
    have henough : method.signature.params.length ≤ (arguments.reverse ++ stack).length := by
      simp [hcount]
    simp only [Config.construct, Config.at, Config.goTo, hmethod, howner, Option.bind_some,
      if_pos henough, htake, hdrop, List.reverse_reverse]
  · refine (Host.step_ret hret).trans ?_
    simp [Config.leave, Config.at, hresults]

theorem call (hmethod : module.method? id = some method)
    (hcount : arguments.length = method.argumentOffset + method.signature.params.length)
    (hreturns : host.Returns module (method.enter arguments) world [] after) (first : Nat) :
    Executes host module first [.call (.method id)] first
      (world, { activation with stack := arguments.reverse ++ stack })
      (after, { activation with stack }) := by
  refine ⟨Nat.le_refl _, nofun, fun before behind results callers _ => ?_⟩
  obtain ⟨htake, hdrop⟩ := @take_arguments α arguments stack _ hcount
  obtain ⟨last, hlast, hret, hresults, hvalues⟩ := hreturns
    (⟨before ++ ([.call (.method id)] ++ behind), before.length + 1,
      { activation with stack }, results⟩ :: callers)
  refine (Relation.ReflTransGen.head ?_ hlast).tail ?_
  · refine (Host.step_call id (by simp [Config.at])).trans ?_
    have henough : method.argumentOffset + method.signature.params.length
        ≤ (arguments.reverse ++ stack).length := by
      simp [hcount]
    simp only [Config.call, Config.at, Config.goTo, hmethod, Option.bind_some, if_pos henough, htake,
      hdrop, List.reverse_reverse]
  · refine (Host.step_ret hret).trans ?_
    simp [Config.leave, Config.at, hresults]

end Executes

end BytecodeLowering
