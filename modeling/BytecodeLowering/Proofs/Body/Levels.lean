import BytecodeLowering.Proofs.Body.Operation
import BytecodeLowering.Proofs.Lower.Steps
import BytecodeLowering.Proofs.Target.Nesting

/-!
# Heights along code

Heights of the evaluation stack along some code.  Every label has one height,
entered in a list when the label is handed out; a height for each place agrees
with the code when every instruction finds what it takes, goes on with what it
leaves, and finds the heights of its labels.  Agreement composes along the code
and is kept when labels are added.
-/

namespace BytecodeLowering

/-! ## One instruction -/

/-- The height behind an instruction from which control goes on.  A catching
part begins with the caught value. -/
def Instr.heightAfter (module : TargetModule) (depth : Nat) : Instr → Nat
  | .beginCatch _ => 1
  | instr => depth - instr.pops module + instr.pushes module

/-- The heights in front of and behind an instruction of a method with the
result `ret`. -/
structure Instr.Agrees (module : TargetModule) (ret : TargetType) (labels : List Nat)
    (instr : Instr) (depth depth' : Nat) : Prop where
  pops : instr.pops module ≤ depth
  next : instr.isTerminator = false → depth' = instr.heightAfter module depth
  targets : ∀ label ∈ instr.targets, labels[label]? = some (depth - instr.pops module)
  mark : ∀ label, instr = .markLabel label → labels[label]? = some depth
  bare : instr = .beginTry ∨ instr.isLeave = true → depth = 0
  ret : instr = .ret → depth = ret.slots

theorem exists_grown (height : Nat) {labels : List Nat} {next : Nat} (h : labels.length ≤ next) :
    ∃ grown, labels <+: grown ∧ grown.length = next ∧
      ∀ label, labels.length ≤ label → label < next → grown[label]? = some height := by
  refine ⟨labels ++ List.replicate (next - labels.length) height, List.prefix_append _ _, ?_, ?_⟩
  · simp
    omega
  · intro label hlow hhigh
    rw [List.getElem?_append_right hlow, List.getElem?_replicate, if_pos (by omega)]

section Agrees

variable {module : TargetModule} {ret : TargetType} {labels grown : List Nat} {instr : Instr}
  {depth depth' label : Nat}

theorem Instr.Agrees.mono (h : instr.Agrees module ret labels depth depth')
    (hgrown : labels <+: grown) : instr.Agrees module ret grown depth depth' :=
  ⟨h.pops, h.next, fun label hlabel => getElem?_of_begins hgrown (h.targets label hlabel),
    fun label hlabel => getElem?_of_begins hgrown (h.mark label hlabel), h.bare, h.ret⟩

theorem agrees_plain (hplain : instr.isPlain = true)
    (heffect : instr.pops module ≤ depth ∧
      depth' + instr.pops module = depth + instr.pushes module) :
    instr.Agrees module ret labels depth depth' := by
  refine ⟨heffect.1, ?_, ?_, ?_, ?_, ?_⟩
  · intro _
    have hafter : instr.heightAfter module depth
        = depth - instr.pops module + instr.pushes module := by
      cases instr <;> first | rfl | cases hplain
    omega
  all_goals cases instr <;> simp [Instr.isPlain] at hplain <;> simp [Instr.targets, Instr.isLeave]

theorem agrees_mark (h : labels[label]? = some depth) :
    Instr.Agrees module ret labels (.markLabel label) depth depth := by
  constructor <;>
    simp [Instr.pops, Instr.heightAfter, Instr.pushes, Instr.targets, Instr.isLeave, h]

theorem agrees_br (h : labels[label]? = some depth) :
    Instr.Agrees module ret labels (.br label) depth depth' := by
  constructor <;> simp [Instr.pops, Instr.targets, Instr.isTerminator, Instr.isLeave, h]

theorem agrees_test {make : Label → Instr} {operands : Nat} (hmake : Test make operands)
    (h : labels[label]? = some depth) (hdepth : depth + operands = depth') :
    (make label).Agrees module ret labels depth' depth := by
  subst hdepth
  cases hmake <;> constructor <;>
    simp [Instr.pops, Instr.heightAfter, Instr.pushes, Instr.targets, Instr.isLeave, h]

theorem agrees_switch {table : List Label} (h : ∀ label ∈ table, labels[label]? = some depth) :
    Instr.Agrees module ret labels (.switch table) (depth + 1) depth := by
  constructor <;>
    simp [Instr.pops, Instr.heightAfter, Instr.pushes, Instr.targets, Instr.isLeave]
  exact h

theorem agrees_leave (h : labels[label]? = some 0) :
    Instr.Agrees module ret labels (.leave label) 0 depth' := by
  constructor <;> simp [Instr.pops, Instr.targets, Instr.isTerminator, h]

theorem agrees_throw : Instr.Agrees module ret labels .throw (depth + 1) depth' := by
  constructor <;> simp [Instr.pops, Instr.targets, Instr.isTerminator, Instr.isLeave]

theorem agrees_ret : Instr.Agrees module ret labels .ret ret.slots depth' := by
  constructor <;> simp [Instr.pops, Instr.targets, Instr.isTerminator, Instr.isLeave]

theorem agrees_beginTry : Instr.Agrees module ret labels .beginTry 0 0 := by
  constructor <;>
    simp [Instr.pops, Instr.heightAfter, Instr.pushes, Instr.targets]

theorem agrees_beginCatch {type : TargetType} :
    Instr.Agrees module ret labels (.beginCatch type) 0 1 := by
  constructor <;> simp [Instr.pops, Instr.heightAfter, Instr.targets, Instr.isLeave]

theorem agrees_endTry : Instr.Agrees module ret labels .endTry 0 0 := by
  constructor <;>
    simp [Instr.pops, Instr.heightAfter, Instr.pushes, Instr.targets, Instr.isLeave]

end Agrees

/-! ## Code -/

def Levels (module : TargetModule) (ret : TargetType) (labels : List Nat) (height : Nat → Nat)
    (code : List Instr) : Prop :=
  ∀ (i : Nat) (instr : Instr), code[i]? = some instr →
    instr.Agrees module ret labels (height i) (height (i + 1))

def joined (place : Nat) (first second : Nat → Nat) (i : Nat) : Nat :=
  if i < place then first i else second (i - place)

theorem joined_of_le {place i level : Nat} {first second : Nat → Nat} (h : i ≤ place)
    (hfirst : first i = level) (hsecond : second 0 = level) : joined place first second i = level := by
  unfold joined
  split
  · exact hfirst
  · rwa [show i - place = 0 by omega]

section Levels

variable {module : TargetModule} {ret : TargetType} {labels grown : List Nat}
  {first second : Nat → Nat} {code more : List Instr}

theorem Levels.mono (h : Levels module ret labels first code) (hgrown : labels <+: grown) :
    Levels module ret grown first code :=
  fun i instr hinstr => (h i instr hinstr).mono hgrown

theorem Levels.append (h : Levels module ret labels first code)
    (hmore : Levels module ret labels second more) (hmeet : first code.length = second 0) :
    Levels module ret labels (joined code.length first second) (code ++ more) := by
  intro i instr hinstr
  rw [List.getElem?_append] at hinstr
  split at hinstr
  · rename_i hi
    have hagrees := h i instr hinstr
    by_cases hlast : i + 1 < code.length
    · simpa [joined, hi, hlast] using hagrees
    · obtain heq : i + 1 = code.length := by omega
      simpa [joined, hi, heq, ← hmeet] using hagrees
  · rename_i hi
    have hagrees := hmore (i - code.length) instr hinstr
    have hnext : i - code.length + 1 = i + 1 - code.length := by omega
    rw [hnext] at hagrees
    simpa [joined, hi, show ¬ i + 1 < code.length by omega] using hagrees

end Levels

def Balanced (module : TargetModule) (ret : TargetType) (labels : List Nat) (depth : Nat)
    (code : List Instr) (depth' : Nat) : Prop :=
  ∃ height, height 0 = depth ∧ height code.length = depth' ∧ Levels module ret labels height code

namespace Balanced

variable {module : TargetModule} {ret : TargetType} {labels grown : List Nat}
  {depth between depth' : Nat} {instr : Instr} {code more : List Instr}

theorem nil : Balanced module ret labels depth [] depth :=
  ⟨fun _ => depth, rfl, rfl, nofun⟩

theorem single (h : instr.Agrees module ret labels depth depth') :
    Balanced module ret labels depth [instr] depth' := by
  refine ⟨fun i => if i = 0 then depth else depth', rfl, rfl, ?_⟩
  intro i other hother
  cases i with
  | zero =>
      cases hother
      exact h
  | succ i => simp at hother

theorem append (h : Balanced module ret labels depth code between)
    (hmore : Balanced module ret labels between more depth') :
    Balanced module ret labels depth (code ++ more) depth' := by
  obtain ⟨first, hstart, hmiddle, hcode⟩ := h
  obtain ⟨second, hmeet, hend, hrest⟩ := hmore
  refine ⟨joined code.length first second, ?_, ?_, hcode.append hrest (by rw [hmiddle, hmeet])⟩
  · cases code with
    | nil =>
        simp only [List.length_nil] at hmiddle
        simp [joined, hmeet, ← hmiddle, hstart]
    | cons instr code => simpa [joined] using hstart
  · have hover : ¬ code.length + more.length < code.length := by omega
    simpa [joined, hover] using hend

theorem cons (h : instr.Agrees module ret labels depth between)
    (hcode : Balanced module ret labels between code depth') :
    Balanced module ret labels depth (instr :: code) depth' :=
  (single h).append hcode

theorem mono (h : Balanced module ret labels depth code depth') (hgrown : labels <+: grown) :
    Balanced module ret grown depth code depth' := by
  obtain ⟨height, hstart, hend, hlevels⟩ := h
  exact ⟨height, hstart, hend, hlevels.mono hgrown⟩

end Balanced

/-! ## Fragments -/

theorem Fragment.balanced {module : TargetModule} (ret : TargetType)
    {first depth depth' next : Nat} {code : List Instr}
    (h : Fragment True module first depth code depth' next) {labels : List Nat}
    (hlabels : labels.length = first) :
    ∃ grown, labels <+: grown ∧ grown.length = next ∧
      Balanced module ret grown depth code depth' := by
  induction h generalizing labels with
  | nil => exact ⟨labels, List.prefix_rfl, hlabels, .nil⟩
  | plain hplain heffect =>
      exact ⟨labels, List.prefix_rfl, hlabels, .single (agrees_plain hplain (heffect trivial))⟩
  | append _ _ ihcode ihmore =>
      obtain ⟨middle, hmiddle, hlength, hcode⟩ := ihcode hlabels
      obtain ⟨grown, hgrown, hnext, hmore⟩ := ihmore hlength
      exact ⟨grown, hmiddle.trans hgrown, hnext, (hcode.mono hgrown).append hmore⟩
  | @nullTest first last depth inner hdepth _ ih =>
      -- both own labels have the height at which the code starts
      have hpositive := hdepth trivial
      obtain ⟨middle, hmiddle, hlength, hown⟩ :=
        exists_grown depth (show labels.length ≤ first + 2 by omega)
      obtain ⟨grown, hgrown, hnext, hinner⟩ := ih hlength
      refine ⟨grown, hmiddle.trans hgrown, hnext, ?_⟩
      have hnull := getElem?_of_begins hgrown (hown first (by omega) (by omega))
      have hother := getElem?_of_begins hgrown (hown (first + 1) (by omega) (by omega))
      have htest : Balanced module ret grown depth [.dup, .brFalse first] depth :=
        .cons (agrees_plain rfl ⟨hpositive, rfl⟩) (.single (agrees_test .brFalse hnull rfl))
      have hpop : Instr.Agrees module ret grown .pop depth (depth - 1) := by
        refine agrees_plain rfl ⟨hpositive, ?_⟩
        simp only [Instr.pops, Instr.pushes]
        omega
      have hpush : Instr.Agrees module ret grown .ldNull (depth - 1) depth := by
        refine agrees_plain rfl ⟨Nat.zero_le _, ?_⟩
        simp only [Instr.pops, Instr.pushes]
        omega
      have hskip : Balanced module ret grown depth
          [.br (first + 1), .markLabel first, .pop, .ldNull, .markLabel (first + 1)] depth :=
        .cons (agrees_br hother) (.cons (agrees_mark hnull)
          (.cons hpop (.cons hpush (.single (agrees_mark hother)))))
      exact (htest.append hinner).append hskip

section Labels

variable {module : TargetModule} {first depth depth' middle next : Nat} {code : List Instr}
  {labels : List Nat}

theorem Fragment.balanced_before (ret : TargetType)
    (h : Fragment True module first depth code depth' middle) (hlabels : labels.length = first)
    (hnext : middle ≤ next) :
    ∃ grown, labels <+: grown ∧ grown.length = next ∧
      (∀ label, middle ≤ label → label < next → grown[label]? = some 0) ∧
      Balanced module ret grown depth code depth' := by
  obtain ⟨own, hown, hlength, hcode⟩ := h.balanced ret hlabels
  rw [← hlength] at hnext
  obtain ⟨grown, hgrown, hend, hzero⟩ := exists_grown 0 hnext
  rw [hlength] at hzero
  exact ⟨grown, hown.trans hgrown, hend, hzero, hcode.mono hgrown⟩

theorem Fragment.balanced_above (ret : TargetType)
    (h : Fragment True module (first + 1) depth code depth' next)
    (hlabels : labels.length = first) :
    ∃ grown, labels <+: grown ∧ grown.length = next ∧ grown[first]? = some 0 ∧
      Balanced module ret grown depth code depth' := by
  subst hlabels
  obtain ⟨own, hown, hlength, hzero⟩ := exists_grown 0 (Nat.le_succ labels.length)
  obtain ⟨grown, hgrown, hnext, hcode⟩ := h.balanced ret hlength
  have hfirst := hzero labels.length (Nat.le_refl _) (Nat.lt_succ_self _)
  exact ⟨grown, hown.trans hgrown, hnext, getElem?_of_begins hgrown hfirst, hcode⟩

end Labels

end BytecodeLowering
