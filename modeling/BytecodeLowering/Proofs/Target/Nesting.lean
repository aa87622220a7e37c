import BytecodeLowering.Target.Instr

/-!
# Protected blocks of a body

A block has a protected part and one part that catches; reading a body from its
start tells in which parts each instruction lies.
-/

namespace BytecodeLowering

/-- One of the two parts of a block.  Blocks are numbered as they begin. -/
structure Part where
  block : Nat
  catching : Bool
  deriving DecidableEq, Repr

/-- The parts around a place, innermost first, and the number of blocks that
have begun. -/
structure Nesting where
  parts : List Part := []
  begun : Nat := 0
  deriving DecidableEq, Repr

namespace Instr

def isLeave : Instr → Bool
  | .leave _ => true
  | _ => false

def endsPart : Instr → Bool
  | .beginCatch _ | .endTry => true
  | _ => false

def boundsPart : Instr → Bool
  | .beginTry | .beginCatch _ | .endTry => true
  | _ => false

end Instr

namespace Nesting

/-- The nesting behind an instruction.  A catching part follows the protected
part of its block, and only a catching part can end a block. -/
def step? (nesting : Nesting) : Instr → Option Nesting
  | .beginTry => some ⟨⟨nesting.begun, false⟩ :: nesting.parts, nesting.begun + 1⟩
  | .beginCatch _ =>
      match nesting.parts with
      | ⟨block, false⟩ :: outer => some { nesting with parts := ⟨block, true⟩ :: outer }
      | _ => none
  | .endTry =>
      match nesting.parts with
      | ⟨_, true⟩ :: outer => some { nesting with parts := outer }
      | _ => none
  | _ => some nesting

def run? (nesting : Nesting) : List Instr → Option Nesting
  | [] => some nesting
  | instr :: code =>
      match nesting.step? instr with
      | some next => next.run? code
      | none => none

/-- The instructions of some code, each with the parts in which it lies.  An
instruction that bounds a part still lies in the part that it ends. -/
def places (nesting : Nesting) : List Instr → List (Instr × List Part)
  | [] => []
  | instr :: code =>
      (instr, nesting.parts) ::
        match nesting.step? instr with
        | some next => next.places code
        | none => []

variable {nesting middle : Nesting} {code more : List Instr} {instr : Instr}

theorem run?_append (h : nesting.run? code = some middle) :
    nesting.run? (code ++ more) = middle.run? more := by
  induction code generalizing nesting with
  | nil =>
      cases h
      rfl
  | cons instr code ih =>
      simp only [List.cons_append, run?] at h ⊢
      cases hstep : nesting.step? instr with
      | none => simp [hstep] at h
      | some next =>
          simp only [hstep] at h
          exact ih h

theorem places_append (h : nesting.run? code = some middle) :
    nesting.places (code ++ more) = nesting.places code ++ middle.places more := by
  induction code generalizing nesting with
  | nil =>
      cases h
      rfl
  | cons instr code ih =>
      simp only [run?] at h
      simp only [List.cons_append, places]
      cases hstep : nesting.step? instr with
      | none => simp [hstep] at h
      | some next =>
          simp only [hstep] at h
          simp only [ih h]

theorem step?_of_flat (h : instr.boundsPart = false) : nesting.step? instr = some nesting := by
  cases instr <;> first | rfl | cases h

theorem run?_of_flat (h : ∀ instr ∈ code, instr.boundsPart = false) :
    nesting.run? code = some nesting := by
  induction code with
  | nil => rfl
  | cons instr code ih =>
      simp only [run?, step?_of_flat (h instr List.mem_cons_self)]
      exact ih fun other hother => h other (List.mem_cons_of_mem instr hother)

theorem places_of_flat (h : ∀ instr ∈ code, instr.boundsPart = false) :
    nesting.places code = code.map (·, nesting.parts) := by
  induction code with
  | nil => rfl
  | cons instr code ih =>
      simp only [places, step?_of_flat (h instr List.mem_cons_self), List.map_cons]
      rw [ih fun other hother => h other (List.mem_cons_of_mem instr hother)]

theorem mem_of_mem_places {parts : List Part} (h : (instr, parts) ∈ nesting.places code) :
    instr ∈ code := by
  induction code generalizing nesting with
  | nil => cases h
  | cons first code ih =>
      simp only [places, List.mem_cons, Prod.mk.injEq] at h
      rcases h with ⟨rfl, -⟩ | h
      · exact List.mem_cons_self
      · cases hstep : nesting.step? first with
        | none => simp [hstep] at h
        | some next =>
            simp only [hstep] at h
            exact List.mem_cons_of_mem _ (ih h)

theorem exists_place (h : nesting.run? code = some middle) (hmem : instr ∈ code) :
    ∃ parts, (instr, parts) ∈ nesting.places code := by
  induction code generalizing nesting with
  | nil => cases hmem
  | cons first code ih =>
      simp only [run?] at h
      cases hstep : nesting.step? first with
      | none => simp [hstep] at h
      | some next =>
          simp only [hstep] at h
          simp only [places, hstep]
          rcases List.mem_cons.mp hmem with rfl | hmem
          · exact ⟨nesting.parts, List.mem_cons_self⟩
          · obtain ⟨parts, hparts⟩ := ih h hmem
            exact ⟨parts, List.mem_cons_of_mem _ hparts⟩

end Nesting

end BytecodeLowering
