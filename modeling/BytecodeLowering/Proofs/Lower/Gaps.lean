import BytecodeLowering.Proofs.Body.GapPolicy
import BytecodeLowering.Proofs.Lower.MethodSteps

/-!
# Compiling with and without gaps

An image without gaps is compiled alike under both policies.  Otherwise the
lenient policy counts the instructions that it gives up, and the strict one
fails with the first of them.
-/

namespace BytecodeLowering

/-- The instructions of an image that have no counterpart, in the order of the
functions. -/
def Image.gaps (image : Image) : List (Site × Opcode) :=
  image.functions.flatMap FunctionDef.gaps

section Policies

variable {image : Image} {settings : Settings} {policy other : GapPolicy} {site : Site}
  {opcode : Opcode} {rest : List (Site × Opcode)} {before after : Registry}

namespace Methods

/-! ## One function -/

theorem compileFunction_gaps {function : FunctionDef} {stats : BodyStats}
    (h : compileFunction image (settings.withGapPolicy policy) function before = .ok stats after) :
    stats.gaps = function.gaps.length := by
  obtain ⟨entry, body, -, hlower, -⟩ := compileFunction_ok h
  rcases function.lower_policies (Or.inl rfl) with
    ⟨found, hfound, -, hgaps⟩ | ⟨error, hfound, -⟩
  · rw [hlower] at hfound
    cases hfound
    exact hgaps
  · rw [hlower] at hfound
    cases hfound

theorem compileFunction_of_gaps_nil {function : FunctionDef} (hgaps : function.gaps = []) :
    compileFunction image (settings.withGapPolicy other) function
      = compileFunction image (settings.withGapPolicy policy) function := by
  have hlower (registry : Registry) (signature : Signature) :
      function.lower image registry (settings.withGapPolicy other) signature
        = function.lower image registry (settings.withGapPolicy policy) signature := by
    rcases function.lower_policies (Or.inr hgaps) with
      ⟨result, hpolicy, hother, -⟩ | ⟨error, hpolicy, hother⟩
    · rw [hpolicy, hother]
    · rw [hpolicy, hother]
  simp only [compileFunction, hlower]

theorem compileFunction_strict {function : FunctionDef} {stats : BodyStats}
    (hgaps : function.gaps = (site, opcode) :: rest)
    (h : compileFunction image (settings.withGapPolicy policy) function before = .ok stats after) :
    compileFunction image (settings.withGapPolicy .strict) function before
      = .error (.loweringGap site opcode) before := by
  obtain ⟨entry, required, hrequire, h⟩ := Lowering.bind_ok h
  obtain ⟨-, rfl⟩ := requireDefined_ok hrequire
  obtain ⟨result, hlower, -⟩ := Lowering.query_bind h
  have hstop := FunctionDef.lower_strict_of_gaps hgaps hlower
  exact (Lowering.bind_of_ok hrequire).trans
    (Lowering.bind_of_error (Lowering.query_of_error hstop))

/-! ## All functions -/

theorem compileFunctions_gaps {functions : List FunctionDef} {stats : List BodyStats}
    (h : functions.mapM (compileFunction image (settings.withGapPolicy policy)) before
      = .ok stats after) (start : BodyStats) :
    (stats.foldl BodyStats.merge start).gaps
      = start.gaps + (functions.flatMap FunctionDef.gaps).length := by
  induction functions generalizing before after stats start with
  | nil =>
      cases h
      rfl
  | cons function functions ih =>
      rw [List.mapM_cons] at h
      obtain ⟨first, middle, hfirst, h⟩ := Lowering.bind_ok h
      obtain ⟨others, last, hothers, h⟩ := Lowering.bind_ok h
      cases h
      have hmerge : (start.merge first).gaps = start.gaps + first.gaps := rfl
      rw [List.foldl_cons, ih hothers, hmerge, compileFunction_gaps hfirst, List.flatMap_cons,
        List.length_append, Nat.add_assoc]

theorem compileFunctions_of_gaps_nil {functions : List FunctionDef}
    (hgaps : functions.flatMap FunctionDef.gaps = []) :
    functions.mapM (compileFunction image (settings.withGapPolicy other))
      = functions.mapM (compileFunction image (settings.withGapPolicy policy)) := by
  induction functions with
  | nil => rfl
  | cons function functions ih =>
      rw [List.flatMap_cons, List.append_eq_nil_iff] at hgaps
      have hfirst : compileFunction image (settings.withGapPolicy other) function
          = compileFunction image (settings.withGapPolicy policy) function :=
        compileFunction_of_gaps_nil hgaps.1
      rw [List.mapM_cons, List.mapM_cons, hfirst, ih hgaps.2]

theorem compileFunctions_strict {functions : List FunctionDef} {stats : List BodyStats}
    (hgaps : functions.flatMap FunctionDef.gaps = (site, opcode) :: rest)
    (h : functions.mapM (compileFunction image (settings.withGapPolicy policy)) before
      = .ok stats after) :
    ∃ final, functions.mapM (compileFunction image (settings.withGapPolicy .strict)) before
      = .error (.loweringGap site opcode) final := by
  induction functions generalizing before after stats with
  | nil => cases hgaps
  | cons function functions ih =>
      rw [List.mapM_cons] at h
      obtain ⟨first, middle, hfirst, h⟩ := Lowering.bind_ok h
      obtain ⟨others, last, hothers, -⟩ := Lowering.bind_ok h
      rw [List.flatMap_cons] at hgaps
      rw [List.mapM_cons]
      cases hfunction : function.gaps with
      | nil =>
          rw [hfunction, List.nil_append] at hgaps
          obtain ⟨final, hfinal⟩ := ih hgaps hothers
          rw [← compileFunction_of_gaps_nil hfunction] at hfirst
          exact ⟨final, (Lowering.bind_of_ok hfirst).trans (Lowering.bind_of_error hfinal)⟩
      | cons gap gaps =>
          rw [hfunction, List.cons_append] at hgaps
          cases hgaps
          exact ⟨before, Lowering.bind_of_error (compileFunction_strict hfunction hfirst)⟩

end Methods

/-! ## Images -/

namespace Image

theorem lowering_gaps {stats : BodyStats}
    (h : image.lowering (settings.withGapPolicy policy) before = .ok stats after) :
    stats.gaps = image.gaps.length := by
  obtain ⟨prepared, -, hcompile⟩ := lowering_ok h
  obtain ⟨found, coded, hcoded, h⟩ := Lowering.bind_ok hcompile
  obtain ⟨_, marked, -, h⟩ := Lowering.bind_ok h
  obtain ⟨_, last, -, h⟩ := Lowering.bind_ok h
  cases h
  exact (Methods.compileFunctions_gaps hcoded _).trans (Nat.zero_add _)

theorem lowering_of_gaps_nil (hgaps : image.gaps = []) :
    image.lowering (settings.withGapPolicy other)
      = image.lowering (settings.withGapPolicy policy) := by
  have hfunctions : image.functions.mapM
        (Methods.compileFunction image (settings.withGapPolicy other))
      = image.functions.mapM (Methods.compileFunction image (settings.withGapPolicy policy)) :=
    Methods.compileFunctions_of_gaps_nil hgaps
  simp only [lowering, Methods.compileAll, hfunctions]

theorem lowering_strict {stats : BodyStats} (hgaps : image.gaps = (site, opcode) :: rest)
    (h : image.lowering (settings.withGapPolicy policy) before = .ok stats after) :
    ∃ final, image.lowering (settings.withGapPolicy .strict) before
      = .error (.loweringGap site opcode) final := by
  obtain ⟨_, prepared, hprepare, hcompile⟩ := Lowering.bind_ok h
  obtain ⟨found, coded, hcoded, -⟩ := Lowering.bind_ok hcompile
  obtain ⟨final, hfinal⟩ := Methods.compileFunctions_strict hgaps hcoded
  exact ⟨final, (Lowering.bind_of_ok hprepare).trans (Lowering.bind_of_error hfinal)⟩

theorem compileWithStats_gaps {target : TargetModule} {stats : CompileStats}
    (h : image.compileWithStats (settings.withGapPolicy policy) = .ok (target, stats)) :
    stats.gaps = image.gaps.length := by
  obtain ⟨found, registry, hlowering, -, rfl⟩ := compileWithStats_ok h
  exact lowering_gaps hlowering

theorem compileWithStats_of_gaps_nil (hgaps : image.gaps = []) :
    image.compileWithStats (settings.withGapPolicy other)
      = image.compileWithStats (settings.withGapPolicy policy) := by
  have hlowering : image.lowering (settings.withGapPolicy other)
      = image.lowering (settings.withGapPolicy policy) := lowering_of_gaps_nil hgaps
  unfold compileWithStats
  rw [hlowering]
  rfl

theorem compileWithStats_strict {target : TargetModule} {stats : CompileStats}
    (hgaps : image.gaps = (site, opcode) :: rest)
    (h : image.compileWithStats (settings.withGapPolicy policy) = .ok (target, stats)) :
    image.compileWithStats (settings.withGapPolicy .strict)
      = .error (.loweringGap site opcode) := by
  obtain ⟨found, registry, hlowering, -, -⟩ := compileWithStats_ok h
  obtain ⟨final, hfinal⟩ := lowering_strict hgaps hlowering
  exact compileWithStats_of_error hfinal

/-- The policies agree except at gaps.  What the strict one compiles, the lenient
one compiles to the same module; and where that one gives up instructions, the
strict one fails with the first of them. -/
theorem policies_of_compile (image : Image) (settings : Settings) :
    (∀ target stats,
      image.compileWithStats (settings.withGapPolicy .strict) = .ok (target, stats) →
        stats.gaps = 0 ∧
        image.compileWithStats (settings.withGapPolicy .bestEffort) = .ok (target, stats)) ∧
    ∀ target stats,
      image.compileWithStats (settings.withGapPolicy .bestEffort) = .ok (target, stats) →
        stats.gaps = image.gaps.length ∧
        (stats.gaps = 0 →
          image.compileWithStats (settings.withGapPolicy .strict) = .ok (target, stats)) ∧
        (0 < stats.gaps → ∃ site opcode, image.gaps.head? = some (site, opcode) ∧
          image.compileWithStats (settings.withGapPolicy .strict)
            = .error (.loweringGap site opcode)) := by
  refine ⟨?_, ?_⟩
  · intro target stats h
    have hcount := compileWithStats_gaps h
    cases hgaps : image.gaps with
    | nil =>
        rw [hgaps] at hcount
        exact ⟨hcount, (compileWithStats_of_gaps_nil hgaps).trans h⟩
    | cons gap rest =>
        rw [compileWithStats_strict hgaps h] at h
        cases h
  · intro target stats h
    have hcount := compileWithStats_gaps h
    refine ⟨hcount, ?_, ?_⟩
    · intro hzero
      have hgaps := List.eq_nil_of_length_eq_zero (hcount.symm.trans hzero)
      exact (compileWithStats_of_gaps_nil hgaps).trans h
    · intro hpositive
      rw [hcount] at hpositive
      obtain ⟨⟨site, opcode⟩, rest, hgaps⟩ := List.exists_cons_of_length_pos hpositive
      exact ⟨site, opcode, by rw [hgaps, List.head?_cons], compileWithStats_strict hgaps h⟩

end Image

end Policies

def idleImage (opcodes : List Opcode) : Image where
  version := 4
  types := [.void, .func ⟨[], 0⟩]
  functions := [{
    index := 0
    type := 1
    registers := [0]
    operations := opcodes.map (⟨·, [0, 0, 0]⟩) ++ [⟨.ret, [0]⟩]
    lines := none
    names := [] }]
  functionTable := FunctionTable.build [0] []

theorem policies_of_compile_idle :
    (∃ target stats,
      (idleImage [.nop]).compileWithStats (Settings.withGapPolicy {} .strict)
        = .ok (target, stats) ∧
      (idleImage [.nop]).compileWithStats (Settings.withGapPolicy {} .bestEffort)
        = .ok (target, stats)) ∧
    (idleImage [.nop, .prefetch, .asm]).compileWithStats (Settings.withGapPolicy {} .strict)
      = .error (.loweringGap ⟨0, 1⟩ .prefetch) := by
  refine ⟨?_, ?_⟩
  · obtain ⟨⟨target, stats⟩, hcompile⟩ : ∃ result, (idleImage [.nop]).compileWithStats
        (Settings.withGapPolicy {} .strict) = .ok result :=
      ok_of_isOk (by decide +kernel)
    exact ⟨target, stats, hcompile,
      ((Image.policies_of_compile (idleImage [.nop]) {}).1 target stats hcompile).2⟩
  · have hgaps : ((idleImage [.nop, .prefetch, .asm]).compileWithStats
        (Settings.withGapPolicy {} .bestEffort)).toOption.map (·.2.gaps) = some 2 := by
      decide +kernel
    obtain ⟨⟨target, stats⟩, hcompile, hcount⟩ := ok_of_map_toOption hgaps
    replace hcount : stats.gaps = 2 := hcount
    obtain ⟨-, -, hstrict⟩ := (Image.policies_of_compile (idleImage [.nop, .prefetch, .asm])
      {}).2 target stats hcompile
    obtain ⟨site, opcode, hfirst, herror⟩ := hstrict (by rw [hcount]; decide)
    cases hfirst
    exact herror

end BytecodeLowering
