import BytecodeLowering.Proofs.Body.Comparison

/-!
# Lowering with and without gaps

A function whose instructions all have a counterpart is lowered alike under both
policies.  Otherwise the strict one stops at the first instruction that has
none, and the lenient one counts them.
-/

namespace BytecodeLowering

def FunctionDef.gaps (function : FunctionDef) : List (Site × Opcode) :=
  (function.operations.zipIdx.filter fun item => item.1.opcode.isGap).map fun item =>
    (⟨function.index, item.2⟩, item.1.opcode)

def Settings.withGapPolicy (settings : Settings) (policy : GapPolicy) : Settings :=
  { settings with gapPolicy := policy }

namespace FunctionDef

theorem length_gaps (function : FunctionDef) :
    function.gaps.length = function.operations.countP (·.opcode.isGap) := by
  rw [gaps, List.length_map, ← List.countP_eq_length_filter]
  conv_rhs => rw [← List.zipIdx_map_fst 0 function.operations, List.countP_map]
  rfl

theorem isGap_of_gaps_nil {function : FunctionDef} (h : function.gaps = []) {op : Operation}
    (hop : op ∈ function.operations) : op.opcode.isGap = false := by
  have hnone := length_gaps function
  rw [h] at hnone
  simpa using List.countP_eq_zero.mp hnone.symm op hop

theorem gaps_cons {function : FunctionDef} {site : Site} {opcode : Opcode}
    {rest : List (Site × Opcode)} (h : function.gaps = (site, opcode) :: rest) :
    ∃ (position : Nat) (op : Operation), function.operations[position]? = some op ∧
      op.opcode = opcode ∧ opcode.isGap = true ∧ site = ⟨function.index, position⟩ ∧
      ∀ earlier < position, ∀ other, function.operations[earlier]? = some other →
        other.opcode.isGap = false := by
  have hhead : function.gaps.head? = some (site, opcode) := by rw [h, List.head?_cons]
  rw [gaps, List.head?_map, List.head?_filter] at hhead
  obtain ⟨⟨op, position⟩, hfind, hitem⟩ := Option.map_eq_some_iff.mp hhead
  cases hitem
  obtain ⟨hgap, i, hi, hitem, hearlier⟩ := List.find?_eq_some_iff_getElem.mp hfind
  rw [List.getElem_zipIdx] at hitem
  cases hitem
  obtain ⟨hi', -⟩ : i < function.operations.length ∧ True := ⟨by simpa using hi, trivial⟩
  refine ⟨0 + i, function.operations[i], ?_, rfl, hgap, rfl, ?_⟩
  · rw [Nat.zero_add, List.getElem?_eq_getElem hi']
  · intro earlier hless other hother
    have hbefore := hearlier earlier (by omega)
    rw [List.getElem_zipIdx] at hbefore
    obtain ⟨hlength, rfl⟩ := List.getElem?_eq_some_iff.mp hother
    simpa using hbefore

section Lower

variable {function : FunctionDef} {image : Image} {registry : Registry} {settings : Settings}
  {signature : Signature} {result : MethodBody × BodyStats}

theorem lower_policies {policy other : GapPolicy}
    (h : other = policy ∨ function.gaps = []) :
    (∃ result,
      function.lower image registry (settings.withGapPolicy policy) signature = .ok result ∧
      function.lower image registry (settings.withGapPolicy other) signature = .ok result ∧
      result.2.gaps = function.gaps.length) ∨
    ∃ error,
      function.lower image registry (settings.withGapPolicy policy) signature = .error error ∧
      function.lower image registry (settings.withGapPolicy other) signature = .error error := by
  have hpairs (scope : Scope)
      (hscope : function.scope image registry (settings.withGapPolicy policy) signature = .ok scope)
      (position : Nat) (_ : position < scope.function.operations.length) :
      scope.Pairs (function.surroundings image registry (settings.withGapPolicy other))
        (fun _ => true) position := by
    obtain ⟨-, -, -, -, rfl, -⟩ := scope_ok hscope
    have hsettings := settings_of_scope hscope
    refine .of_same rfl fun op hop => ?_
    have hsafe : (settings.withGapPolicy other).safeCast = scope.settings.safeCast := by
      rw [hsettings]
      rfl
    refine Emit.tandem_operation rfl ?_ fun _ => hsafe
    rcases h with rfl | hnone
    · refine Or.inl ?_
      rw [hsettings]
      rfl
    · exact Or.inr (isGap_of_gaps_nil hnone (List.mem_of_getElem? hop))
  rcases lower_beside rfl hpairs with
    ⟨scope, codes, exit, result, result', hscope, hlower, hlower', htwins⟩ |
    ⟨error, hlower, hlower'⟩
  · obtain ⟨-, -, -, -, hfunction, -⟩ := scope_ok hscope
    have hpoints : (settings.withGapPolicy other).emitSequencePoints
        = scope.settings.emitSequencePoints := by
      rw [settings_of_scope hscope]
      rfl
    obtain rfl := htwins.same hpoints
    refine Or.inl ⟨result', hlower, hlower', ?_⟩
    rw [htwins.gaps, hfunction, length_gaps, Scope.gapsBefore, hfunction, List.take_length]
  · exact Or.inr ⟨error, hlower, hlower'⟩

theorem lower_strict_of_gaps {policy : GapPolicy} {site : Site} {opcode : Opcode}
    {rest : List (Site × Opcode)} (hgaps : function.gaps = (site, opcode) :: rest)
    (h : function.lower image registry (settings.withGapPolicy policy) signature = .ok result) :
    function.lower image registry (settings.withGapPolicy .strict) signature
      = .error (.loweringGap site opcode) := by
  obtain ⟨position, op, hop, rfl, hgap, rfl, hearlier⟩ := gaps_cons hgaps
  obtain ⟨scope, final, hscope, hbody⟩ := lower_ok h
  have hsettings := settings_of_scope hscope
  obtain ⟨-, -, -, -, rfl, -⟩ := scope_ok hscope
  obtain ⟨hposition, -⟩ := List.getElem?_eq_some_iff.mp hop
  generalize hother : scope.function.surroundings image registry
    (settings.withGapPolicy .strict) = other
  have hsame : other.operations = scope.function.operations := by rw [← hother]; rfl
  have hpairs (earlier : Nat) (hless : earlier < position) :
      scope.Pairs other (fun _ => true) earlier := by
    refine .of_same hsame fun found hfound => ?_
    refine Emit.tandem_operation (congrArg _ hsame) ?_ fun _ => ?_
    · exact Or.inr (hearlier earlier hless found hfound)
    · rw [hsettings, ← hother]
      rfl
  have hwithin : scope.function.scope image registry (settings.withGapPolicy .strict) signature
      = .ok (scope.within other) := by
    have hscope' := scope_within image registry (settings.withGapPolicy policy) signature
      other (congrArg (fun operations => Flow.analyze { scope.function with operations }) hsame)
    rw [hscope, ← hother] at hscope'
    rw [← hother]
    exact hscope'
  rcases Scope.paired (congrArg _ hsame) (Nat.le_of_lt hposition) hpairs with
    ⟨codes, progress, before, hpaired⟩ | ⟨error, _, final', _, hfail, -, -⟩
  · have hop' : (scope.within other).function.operations[position]? = some op := by
      rw [← hop, ← hsame]
      rfl
    have hposition' : position < (scope.within other).function.operations.length :=
      (List.getElem?_eq_some_iff.mp hop').1
    have hstrict : (scope.within other).settings.gapPolicy = .strict := by
      rw [← hother]
      rfl
    have hstop := Scope.runTo_succ_of_ok hop' hpaired.reached'
    rw [Emit.instruction_run, Emit.operation_of_isGap hgap, Emit.gap_strict hstrict] at hstop
    exact lower_of_error hwithin
      (Scope.body_of_error (Scope.runTo_of_error hposition' (Nat.le_refl _) hstop))
  · rw [Scope.body_of_error (Scope.runTo_of_error (Nat.le_of_lt hposition) (Nat.le_refl _) hfail)]
      at hbody
    cases hbody

end Lower

end FunctionDef

end BytecodeLowering
