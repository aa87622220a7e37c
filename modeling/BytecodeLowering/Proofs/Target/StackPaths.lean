import BytecodeLowering.Proofs.Target.StackEffect

/-!
# Ways through code

What code may do to the evaluation stack when nothing is known of the values on
it.  An instruction takes its operands off the top and leaves results of any
content, and control goes on to the next instruction or to a label that the
instruction names.  Code consumes a value when every way through it ends behind
it with that value removed and with nothing taken from what lies below.
-/

namespace BytecodeLowering

section Ways

variable {α : Type} (module : TargetModule) (code : List Instr)

inductive StackStep : Nat × List α → Nat × List α → Prop
  | next {place : Nat} {instr : Instr} {taken left below : List α}
      (hinstr : code[place]? = some instr) (hgoes : instr.isTerminator = false)
      (htaken : taken.length = instr.pops module) (hleft : left.length = instr.pushes module) :
      StackStep (place, taken ++ below) (place + 1, left ++ below)
  | jump {place there : Nat} {instr : Instr} {label : Label} {taken below : List α}
      (hinstr : code[place]? = some instr) (htarget : label ∈ instr.targets)
      (htaken : taken.length = instr.pops module)
      (hthere : code[there]? = some (.markLabel label)) :
      StackStep (place, taken ++ below) (there, below)

/-- Every way on from a configuration comes to the end of the code with the
stack `rest`, and no instruction on it takes anything from `rest`. -/
inductive Settles (rest : List α) : Nat × List α → Prop
  | done : Settles rest (code.length, rest)
  | go {place : Nat} {top : List α} {instr : Instr} (hinstr : code[place]? = some instr)
      (htakes : instr.pops module ≤ top.length)
      (hplaced : ∀ label ∈ instr.targets, .markLabel label ∈ code)
      (hgoes : ∃ next, StackStep module code (place, top ++ rest) next)
      (hall : ∀ next, StackStep module code (place, top ++ rest) next → Settles rest next) :
      Settles rest (place, top ++ rest)

end Ways

/-- The code takes one value off any stack, whatever way control takes. -/
def Consumes (module : TargetModule) (code : List Instr) : Prop :=
  ∀ (α : Type) (value : α) (rest : List α), Settles module code rest (0, value :: rest)

section Steps

variable {α : Type} {module : TargetModule} {code : List Instr} {place : Nat} {instr : Instr}
  {rest : List α}

theorem StackStep.cases_at {stack : List α} {config : Nat × List α}
    (h : StackStep module code (place, stack) config) (hinstr : code[place]? = some instr) :
    (instr.isTerminator = false ∧ ∃ left : List α, left.length = instr.pushes module ∧
        config = (place + 1, left ++ stack.drop (instr.pops module))) ∨
      ∃ label ∈ instr.targets, ∃ there, code[there]? = some (.markLabel label) ∧
        config = (there, stack.drop (instr.pops module)) := by
  cases h with
  | @next _ found taken left below hfound hgoes htaken hleft =>
      obtain rfl : instr = found := Option.some.inj (hinstr.symm.trans hfound)
      rw [List.drop_left' htaken]
      exact .inl ⟨hgoes, left, hleft, rfl⟩
  | @jump _ there found label taken below hfound htarget htaken hthere =>
      obtain rfl : instr = found := Option.some.inj (hinstr.symm.trans hfound)
      rw [List.drop_left' htaken]
      exact .inr ⟨label, htarget, there, hthere, rfl⟩

theorem StackStep.next_of_le {stack left : List α} (hinstr : code[place]? = some instr)
    (hgoes : instr.isTerminator = false) (htakes : instr.pops module ≤ stack.length)
    (hleft : left.length = instr.pushes module) :
    StackStep module code (place, stack) (place + 1, left ++ stack.drop (instr.pops module)) := by
  have hstep := @StackStep.next α module code place instr (stack.take (instr.pops module)) left
    (stack.drop (instr.pops module)) hinstr hgoes (List.length_take_of_le htakes) hleft
  rwa [List.take_append_drop] at hstep

theorem StackStep.jump_of_le {stack : List α} {label : Label} {there : Nat}
    (hinstr : code[place]? = some instr) (htarget : label ∈ instr.targets)
    (htakes : instr.pops module ≤ stack.length)
    (hthere : code[there]? = some (.markLabel label)) :
    StackStep module code (place, stack) (there, stack.drop (instr.pops module)) := by
  have hstep := @StackStep.jump α module code place there instr label
    (stack.take (instr.pops module)) (stack.drop (instr.pops module)) hinstr htarget
    (List.length_take_of_le htakes) hthere
  rwa [List.take_append_drop] at hstep

theorem Settles.of_ways [Inhabited α] {top : List α} (hinstr : code[place]? = some instr)
    (htakes : instr.pops module ≤ top.length)
    (hends : instr.isTerminator = false ∨ instr.targets ≠ [])
    (hplaced : ∀ label ∈ instr.targets, .markLabel label ∈ code)
    (hnext : instr.isTerminator = false → ∀ left : List α, left.length = instr.pushes module →
      Settles module code rest (place + 1, left ++ top.drop (instr.pops module) ++ rest))
    (hjump : ∀ label ∈ instr.targets, ∀ there, code[there]? = some (.markLabel label) →
      Settles module code rest (there, top.drop (instr.pops module) ++ rest)) :
    Settles module code rest (place, top ++ rest) := by
  have hlong : instr.pops module ≤ (top ++ rest).length := by
    rw [List.length_append]
    omega
  refine .go hinstr htakes hplaced ?_ ?_
  · rcases hends with hgoes | htargets
    · exact ⟨_, StackStep.next_of_le hinstr hgoes hlong
        (List.length_replicate (a := (default : α)))⟩
    · obtain ⟨label, hlabel⟩ := List.exists_mem_of_ne_nil _ htargets
      obtain ⟨there, hthere⟩ := List.mem_iff_getElem?.mp (hplaced label hlabel)
      exact ⟨_, StackStep.jump_of_le hinstr hlabel hlong hthere⟩
  · intro config hstep
    have hdrop : (top ++ rest).drop (instr.pops module) = top.drop (instr.pops module) ++ rest :=
      List.drop_append_of_le_length htakes
    rcases hstep.cases_at hinstr with ⟨hgoes, left, hleft, rfl⟩ | ⟨label, hlabel, there, hthere, rfl⟩
    · rw [hdrop, ← List.append_assoc]
      exact hnext hgoes left hleft
    · rw [hdrop]
      exact hjump label hlabel there hthere

end Steps

/-! ## Code that lacks an operand -/

/-- Control falls through the code, entered with some values, to an instruction
that lacks an operand. -/
inductive Lacks (module : TargetModule) : (height : Nat) → (code : List Instr) → Prop
  | here {height : Nat} {instr : Instr} {code : List Instr} (h : height < instr.pops module) :
      Lacks module height (instr :: code)
  | later {height : Nat} {instr : Instr} {code : List Instr} (hgoes : instr.isTerminator = false)
      (h : Lacks module (height - instr.pops module + instr.pushes module) code) :
      Lacks module height (instr :: code)

theorem Lacks.not_settles {module : TargetModule} {height : Nat} {code : List Instr}
    (h : Lacks module height code) (before : List Instr) {stack : List Unit}
    (hstack : stack.length = height) :
    ¬ Settles module (before ++ code) [] (before.length, stack) := by
  induction h generalizing before stack with
  | @here height instr code hshort =>
      intro hsettles
      have hinstr : (before ++ instr :: code)[before.length]? = some instr := by simp
      generalize hconfig : (before.length, stack) = config at hsettles
      cases hsettles with
      | done => simp at hconfig
      | @go place top found hfound htakes =>
          obtain ⟨rfl, rfl⟩ := Prod.mk.inj hconfig
          obtain rfl : instr = found := Option.some.inj (hinstr.symm.trans hfound)
          rw [List.append_nil] at hstack
          omega
  | @later height instr code hgoes _ ih =>
      intro hsettles
      have hinstr : (before ++ instr :: code)[before.length]? = some instr := by simp
      generalize hconfig : (before.length, stack) = config at hsettles
      cases hsettles with
      | done => simp at hconfig
      | @go place top found hfound htakes _ _ hall =>
          obtain ⟨rfl, rfl⟩ := Prod.mk.inj hconfig
          obtain rfl : instr = found := Option.some.inj (hinstr.symm.trans hfound)
          rw [List.append_nil] at hstack hall
          have hnext := hall _ (StackStep.next_of_le hinstr hgoes htakes
            (List.length_replicate (a := ())))
          have hlater := @ih (before ++ [instr])
            (List.replicate (instr.pushes module) () ++ top.drop (instr.pops module)) (by
              simp
              omega)
          rw [List.append_assoc, List.singleton_append, List.length_append,
            List.length_singleton] at hlater
          exact hlater hnext

theorem Lacks.not_consumes {module : TargetModule} {code : List Instr}
    (h : Lacks module 1 code) : ¬ Consumes module code :=
  fun hconsumes => h.not_settles [] rfl (hconsumes Unit () [])

end BytecodeLowering
