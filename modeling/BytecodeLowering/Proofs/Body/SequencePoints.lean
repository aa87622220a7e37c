import BytecodeLowering.Proofs.Body.Comparison
import Mathlib.Data.List.Destutter

/-!
# Source positions in the code of functions

Source positions stand at the starts of instructions, wherever the line table
tells another line than for the instruction before, and without them the code is
what it is when none are asked for.
-/

namespace BytecodeLowering

/-! ## Collapsed lists -/

theorem destutter'_concat [DecidableEq α] (first last : α) (items : List α) :
    (items ++ [last]).destutter' (· ≠ ·) first = items.destutter' (· ≠ ·) first
      ++ if (first :: items).getLast? = some last then [] else [last] := by
  induction items generalizing first with
  | nil =>
      rw [List.nil_append, List.destutter'_singleton, List.destutter'_nil, List.getLast?_singleton,
        ite_not]
      by_cases hsame : first = last
      · rw [if_pos hsame, if_pos (congrArg some hsame), List.append_nil]
      · rw [if_neg hsame, if_neg fun h => hsame (Option.some.inj h)]
        rfl
  | cons item items ih =>
      rw [List.cons_append, List.getLast?_cons_cons]
      by_cases hsame : first = item
      · rw [List.destutter'_cons_neg _ (not_not.mpr hsame),
          List.destutter'_cons_neg _ (not_not.mpr hsame), hsame, ih]
      · rw [List.destutter'_cons_pos _ hsame, List.destutter'_cons_pos _ hsame, ih]
        rfl

theorem destutter_concat [DecidableEq α] (items : List α) (last : α) :
    (items ++ [last]).destutter (· ≠ ·) = items.destutter (· ≠ ·)
      ++ if items.getLast? = some last then [] else [last] := by
  cases items with
  | nil => rfl
  | cons first items => exact destutter'_concat first last items

theorem mem_destutter [DecidableEq α] {items : List α} {item : α} :
    item ∈ items.destutter (· ≠ ·) ↔ item ∈ items := by
  refine ⟨fun h => (List.destutter_sublist _ items).subset h, ?_⟩
  induction items using List.reverseRecOn with
  | nil => exact id
  | append_singleton items last ih =>
      intro h
      rw [destutter_concat, List.mem_append]
      rcases List.mem_append.mp h with hearlier | hlast
      · exact Or.inl (ih hearlier)
      obtain rfl := List.mem_singleton.mp hlast
      by_cases hsame : items.getLast? = some item
      · exact Or.inl (ih (List.mem_of_getLast? hsame))
      · rw [if_neg hsame]
        exact Or.inr (List.mem_singleton_self _)

/-! ## Code -/

def Instr.point? : Instr → Option SourceLine
  | .sequencePoint file line => some ⟨file, line⟩
  | _ => none

def SourceLine.point (line : SourceLine) : Instr := .sequencePoint line.file line.line

def points (code : List Instr) : List SourceLine := code.filterMap Instr.point?

def withoutPoints (code : List Instr) : List Instr := code.filter fun instr => !instr.isPoint

theorem points_append (code more : List Instr) :
    points (code ++ more) = points code ++ points more :=
  List.filterMap_append

theorem withoutPoints_append (code more : List Instr) :
    withoutPoints (code ++ more) = withoutPoints code ++ withoutPoints more :=
  List.filter_append code more

theorem mem_points {code : List Instr} {line : SourceLine} :
    line ∈ points code ↔ line.point ∈ code := by
  rw [points, List.mem_filterMap]
  constructor
  · rintro ⟨instr, hinstr, hline⟩
    cases instr <;> cases hline
    exact hinstr
  · exact fun h => ⟨_, h, rfl⟩

theorem points_of_plain {code : List Instr} (h : ∀ instr ∈ code, instr.isPoint = false) :
    points code = [] := by
  refine List.filterMap_eq_nil_iff.mpr fun instr hinstr => ?_
  have hplain := h instr hinstr
  cases instr <;> first | rfl | cases hplain

theorem withoutPoints_of_plain {code : List Instr} (h : ∀ instr ∈ code, instr.isPoint = false) :
    withoutPoints code = code :=
  List.filter_eq_self.mpr fun instr hinstr => by rw [h instr hinstr, Bool.not_false]

theorem points_withoutPoints (code : List Instr) : points (withoutPoints code) = [] :=
  points_of_plain fun instr hinstr => by simpa using (List.mem_filter.mp hinstr).2

/-! ## Line tables -/

def Image.lineTable (image : Image) (function : FunctionDef) : List SourceLine :=
  if image.hasDebug then function.lines.getD [] else []

def freshLine? (lines : List SourceLine) : Nat → Option SourceLine
  | 0 => lines[0]?
  | position + 1 => if lines[position + 1]? = lines[position]? then none else lines[position + 1]?

theorem destutter_take_succ (lines : List SourceLine) (position : Nat) :
    (lines.take (position + 1)).destutter (· ≠ ·)
      = (lines.take position).destutter (· ≠ ·) ++ (freshLine? lines position).toList := by
  rw [List.take_add_one]
  cases hline : lines[position]? with
  | none =>
      have hnone : freshLine? lines position = none := by
        cases position with
        | zero => exact hline
        | succ position =>
            rw [freshLine?, hline]
            split <;> rfl
      rw [hnone, Option.toList_none, List.append_nil, List.append_nil]
  | some line =>
      rw [Option.toList_some, destutter_concat]
      congr 1
      cases position with
      | zero =>
          rw [freshLine?, hline]
          rfl
      | succ position =>
          have hlength := (List.getElem?_eq_some_iff.mp hline).1
          have hbefore := List.getElem?_eq_getElem (Nat.lt_of_succ_lt hlength)
          rw [List.take_add_one, freshLine?, hline, hbefore, Option.toList_some,
            List.getLast?_concat]
          by_cases hsame : some lines[position] = some line
          · rw [if_pos hsame, if_pos hsame.symm]
            rfl
          · rw [if_neg hsame, if_neg (Ne.symm hsame)]
            rfl

namespace Scope

def start (scope : Scope) (lines : List SourceLine) (position : Nat) : List Instr :=
  (if scope.flow.isTarget position then [.markLabel position] else [])
    ++ (freshLine? lines position).toList.map SourceLine.point

def lines (scope : Scope) : List SourceLine :=
  if scope.settings.emitSequencePoints then scope.image.lineTable scope.function else []

theorem sourceLine?_eq (scope : Scope) (position : Nat) :
    Emit.sourceLine? scope position = scope.lines[position]? := by
  unfold Emit.sourceLine? lines Image.lineTable
  cases scope.settings.emitSequencePoints with
  | false => rfl
  | true =>
      cases scope.image.hasDebug with
      | false => rfl
      | true => cases scope.function.lines <;> rfl

theorem head_eq_start (scope : Scope) : scope.head = scope.start scope.lines := by
  funext position
  rw [head, headAfter, start, sourceLine?_eq]
  congr 1
  cases hline : scope.lines[position]? with
  | none =>
      cases position with
      | zero =>
          rw [freshLine?, hline]
          rfl
      | succ position =>
          rw [freshLine?, hline, ite_self]
          rfl
  | some line =>
      cases position with
      | zero =>
          rw [freshLine?, hline]
          rfl
      | succ position =>
          have hlength := (List.getElem?_eq_some_iff.mp hline).1
          have hbefore := List.getElem?_eq_getElem (Nat.lt_of_succ_lt hlength)
          rw [freshLine?, hline, lineBefore, sourceLine?_eq, hbefore, Emit.pointCode,
            Option.some_or]
          by_cases hsame : some scope.lines[position] = some line
          · rw [if_neg (not_not.mpr hsame), if_pos hsame.symm]
            rfl
          · rw [if_pos hsame, if_neg (Ne.symm hsame)]
            rfl

theorem points_start (scope : Scope) (lines : List SourceLine) (position : Nat) :
    points (scope.start lines position) = (freshLine? lines position).toList := by
  have hlabel :
      points (if scope.flow.isTarget position then [.markLabel position] else []) = [] := by
    split <;> rfl
  rw [start, points_append, hlabel]
  cases freshLine? lines position <;> rfl

theorem points_laid (scope : Scope) {codes : List (List Instr)}
    (hplain : ∀ code ∈ codes, ∀ instr ∈ code, instr.isPoint = false) :
    points (scope.laid codes) = (scope.lines.take codes.length).destutter (· ≠ ·) := by
  induction codes using List.reverseRecOn with
  | nil => rfl
  | append_singleton codes code ih =>
      obtain ⟨hcodes, hcode⟩ := List.forall_mem_append.mp hplain
      have hlast : points code = [] := points_of_plain (List.forall_mem_singleton.mp hcode)
      have hhead : points (scope.head codes.length)
          = (freshLine? scope.lines codes.length).toList := by
        rw [head_eq_start, points_start]
      rw [laid_concat, points_append, points_append, ih hcodes, hhead, hlast, List.append_nil,
        List.length_append, List.length_singleton, destutter_take_succ]

theorem withoutPoints_head (scope : Scope) {other : Surroundings}
    (hother : other.settings.emitSequencePoints = false) (position : Nat) :
    withoutPoints (scope.head position) = (scope.within other).head position := by
  have hoff : ¬ (scope.within other).settings.emitSequencePoints = true := by
    rw [show (scope.within other).settings = other.settings from rfl, hother]
    exact Bool.false_ne_true
  have hlines : (scope.within other).lines = [] := if_neg hoff
  have hnone : freshLine? [] position = none := by cases position <;> rfl
  have hlabel : withoutPoints (if scope.flow.isTarget position then [.markLabel position] else [])
      = if scope.flow.isTarget position then [.markLabel position] else [] := by
    split <;> rfl
  have hline : withoutPoints ((freshLine? scope.lines position).toList.map SourceLine.point)
      = [] := by
    cases freshLine? scope.lines position <;> rfl
  rw [head_eq_start, head_eq_start, hlines, start, start, withoutPoints_append, hlabel, hline,
    hnone]
  rfl

/-- Without its source lines a body is the one for which none are asked. -/
theorem withoutPoints_laid (scope : Scope) {other : Surroundings}
    (hother : other.settings.emitSequencePoints = false) {codes : List (List Instr)}
    (hplain : ∀ code ∈ codes, ∀ instr ∈ code, instr.isPoint = false) :
    withoutPoints (scope.laid codes) = (scope.within other).laid codes := by
  induction codes using List.reverseRecOn with
  | nil => rfl
  | append_singleton codes code ih =>
      obtain ⟨hcodes, hcode⟩ := List.forall_mem_append.mp hplain
      rw [laid_concat, laid_concat, withoutPoints_append, withoutPoints_append, ih hcodes,
        withoutPoints_head scope hother,
        withoutPoints_of_plain (List.forall_mem_singleton.mp hcode)]

end Scope

/-! ## Functions -/

def Settings.withPoints (settings : Settings) (emitSequencePoints : Bool) : Settings :=
  { settings with emitSequencePoints }

/-- A body that tells the lines of a table.  Each stands behind the label of the
instruction with which it begins, and nowhere else is a line told. -/
structure Scope.Annotated (scope : Scope) (lines : List SourceLine) (codes : List (List Instr))
    (exit body : List Instr) : Prop where
  length : codes.length = scope.function.operations.length
  lowers : ∀ position code, codes[position]? = some code →
    scope.Lowers position (scope.start lines position ++ code)
  plain : ∀ code ∈ exit :: codes, ∀ instr ∈ code, instr.isPoint = false
  laid : body
    = (codes.mapIdx fun position code => scope.start lines position ++ code).flatten ++ exit
  told : points body = (lines.take scope.function.operations.length).destutter (· ≠ ·)

def FunctionDef.Annotated (function : FunctionDef) (image : Image) (registry : Registry)
    (settings : Settings) (signature : Signature) (body : List Instr) : Prop :=
  ∃ scope codes exit locals stats,
    function.scope image registry (settings.withPoints true) signature = .ok scope ∧
    function.lower image registry (settings.withPoints true) signature
      = .ok (⟨body, locals⟩, stats) ∧
    scope.Annotated (image.lineTable function) codes exit body

theorem Scope.annotated_of_twins {scope : Scope} {other : Surroundings} {casts : Nat → Bool}
    {codes : List (List Instr)} {exit : List Instr} {result result' : MethodBody × BodyStats}
    (h : scope.Twins other casts codes exit result result') :
    scope.Annotated scope.lines codes exit result.1.body := by
  refine ⟨h.length, ?_, List.forall_mem_cons.mpr ⟨h.exitPoints, h.points⟩, ?_, ?_⟩
  · intro position code hcode
    rw [← scope.head_eq_start]
    exact (h.lowers position code hcode).1
  · rw [h.body, Scope.laid, scope.head_eq_start]
  · rw [h.body, points_append, points_of_plain h.exitPoints, List.append_nil,
      scope.points_laid h.points, h.length]

theorem Scope.body_of_twins {scope : Scope} {other : Surroundings}
    {codes : List (List Instr)} {exit : List Instr} {result result' : MethodBody × BodyStats}
    (h : scope.Twins other (fun _ => true) codes exit result result')
    (hother : other.settings.emitSequencePoints = false) :
    result'.1.body = withoutPoints result.1.body := by
  rw [h.body', withCastsAt_true, h.body, withoutPoints_append,
    scope.withoutPoints_laid hother h.points, withoutPoints_of_plain h.exitPoints]

namespace FunctionDef

variable {function : FunctionDef} {image : Image} {registry registry' : Registry}
  {settings : Settings} {signature : Signature}

theorem pairs_withPoints {scope : Scope} (hsettings : scope.settings = settings.withPoints true)
    (position : Nat) :
    scope.Pairs (scope.function.surroundings image registry (settings.withPoints false))
      (fun _ => true) position := by
  refine .of_same rfl fun op _ => Emit.tandem_operation rfl (Or.inl ?_) fun _ => ?_
  · rw [hsettings]
    rfl
  · rw [hsettings]
    rfl

theorem lower_withPoints
    (hregistry : registry.within
      (function.surroundings image registry' (settings.withPoints false)) = registry') :
    Abreast
      (fun body body' => body' = withoutPoints body ∧
        function.Annotated image registry settings signature body)
      (function.lower image registry (settings.withPoints true) signature)
      (function.lower image registry' (settings.withPoints false) signature) := by
  refine abreast_of_pairs (fun _ => true) hregistry ?_ ?_
  · intro scope hscope position _
    have hsettings := settings_of_scope hscope
    obtain ⟨-, -, -, -, rfl, -⟩ := scope_ok hscope
    exact pairs_withPoints hsettings position
  · intro scope codes exit result result' hscope hlower htwins
    obtain ⟨-, -, himage, -, hfunction, -⟩ := scope_ok hscope
    have hlines : scope.lines = image.lineTable function := by
      rw [Scope.lines, settings_of_scope hscope, himage, hfunction]
      rfl
    refine ⟨Scope.body_of_twins htwins rfl, scope, codes, exit, _, _, hscope, hlower, ?_⟩
    rw [← hlines]
    exact Scope.annotated_of_twins htwins

end FunctionDef

end BytecodeLowering
