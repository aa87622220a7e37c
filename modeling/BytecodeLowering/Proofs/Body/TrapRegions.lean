import BytecodeLowering.Body.Flow
import BytecodeLowering.Proofs.Lower.Steps

/-!
# The analysis of traps

The region of a trap holds the positions at which the trap is open, counted with
a stack of the traps that have begun and not yet ended.
-/

namespace BytecodeLowering.Flow

def openStep (opened : List Nat) : Operation × Nat → List Nat
  | (op, position) =>
      match op.opcode with
      | .trap => position :: opened
      | .endTrap => opened.tail
      | _ => opened

/-- The traps that are open in front of the instruction at a position. -/
def openAt (operations : List Operation) (position : Nat) : List Nat :=
  (operations.zipIdx.take position).foldl openStep []

def scanAt (operations : List Operation) (position : Nat) : TrapScan :=
  (operations.zipIdx.take position).foldl (TrapScan.step operations.length) {}

theorem openStep_trap {op : Operation} (h : op.opcode = .trap) (opened : List Nat)
    (position : Nat) : openStep opened (op, position) = position :: opened := by
  simp [openStep, h]

theorem openStep_endTrap {op : Operation} (h : op.opcode = .endTrap) (opened : List Nat)
    (position : Nat) : openStep opened (op, position) = opened.tail := by
  simp [openStep, h]

theorem openStep_other {op : Operation} (h : op.opcode ≠ .trap ∧ op.opcode ≠ .endTrap)
    (opened : List Nat) (position : Nat) : openStep opened (op, position) = opened := by
  obtain ⟨htrap, hend⟩ := h
  simp only [openStep]

theorem TrapScan.step_cases (length : Nat) (scan : TrapScan) (op : Operation) (position : Nat) :
    op.opcode = .trap ∧ scan.step length (op, position) =
        { opened := scan.regions.length :: scan.opened
          regions := scan.regions ++ [⟨position, length⟩]
          maxDepth := max scan.maxDepth (scan.opened.length + 1) } ∨
      (∃ innermost others, op.opcode = .endTrap ∧ scan.opened = innermost :: others ∧
        scan.step length (op, position) =
          { scan with
            opened := others
            regions := scan.regions.modify innermost fun region =>
              { region with stop := position } }) ∨
      op.opcode ≠ .trap ∧ (op.opcode = .endTrap → scan.opened = []) ∧
        scan.step length (op, position) = scan := by
  by_cases htrap : op.opcode = .trap
  · exact Or.inl ⟨htrap, by simp [step, htrap]⟩
  · by_cases hend : op.opcode = .endTrap
    · cases hscan : scan.opened with
      | nil => exact Or.inr (Or.inr ⟨htrap, fun _ => rfl, by simp [step, hend, hscan]⟩)
      | cons innermost others =>
          exact Or.inr (Or.inl ⟨innermost, others, hend, rfl, by simp [step, hend, hscan]⟩)
    · refine Or.inr (Or.inr ⟨htrap, fun hsame => absurd hsame hend, ?_⟩)
      simp only [step]
      split <;> simp_all

section Prefix

variable {operations : List Operation} {position : Nat} (h : position < operations.length)

include h

theorem take_zipIdx_succ :
    operations.zipIdx.take (position + 1)
      = operations.zipIdx.take position ++ [(operations[position], position)] := by
  have hlength : position < operations.zipIdx.length := by rwa [List.length_zipIdx]
  rw [List.take_succ_eq_append_getElem hlength]
  simp

theorem openAt_succ :
    openAt operations (position + 1)
      = openStep (openAt operations position) (operations[position], position) := by
  rw [openAt, take_zipIdx_succ h, List.foldl_append]
  rfl

theorem scanAt_succ :
    scanAt operations (position + 1)
      = TrapScan.step operations.length (scanAt operations position)
          (operations[position], position) := by
  rw [scanAt, take_zipIdx_succ h, List.foldl_append]
  rfl

end Prefix

structure ScanSound (operations : List Operation) (position : Nat) (scan : TrapScan) : Prop where
  /-- The numbers of the open regions stand for the open traps. -/
  opened : scan.opened.map (fun number => scan.regions[number]?.map (·.start))
    = (openAt operations position).map some
  /-- A region that is not open has ended. -/
  closed : ∀ number region, scan.regions[number]? = some region → number ∉ scan.opened →
    region.stop < position
  /-- The trap of a region has been open all along. -/
  inside : ∀ number region, scan.regions[number]? = some region →
    ∀ target, region.start < target → target ≤ position →
      number ∈ scan.opened ∨ target ≤ region.stop → region.start ∈ openAt operations target

section Stop

variable {regions : List TrapRegion} {innermost position number : Nat} {region : TrapRegion}

theorem start_modify_stop (regions : List TrapRegion) (innermost position number : Nat) :
    (regions.modify innermost fun region => { region with stop := position })[number]?.map
      (·.start) = regions[number]?.map (·.start) := by
  rw [List.getElem?_modify]
  split <;> simp [Function.comp_def]

theorem region_of_modify_stop
    (h : (regions.modify innermost fun region => { region with stop := position })[number]?
      = some region) :
    ∃ old, regions[number]? = some old ∧ region.start = old.start ∧
      (number = innermost ∧ region.stop = position ∨ number ≠ innermost ∧ region = old) := by
  rw [List.getElem?_modify] at h
  split at h
  case isTrue hsame =>
    obtain ⟨old, hfound, rfl⟩ := Option.map_eq_some_iff.mp h
    exact ⟨old, hfound, rfl, Or.inl ⟨hsame.symm, rfl⟩⟩
  case isFalse hother =>
    exact ⟨region, by simpa using h, rfl, Or.inr ⟨Ne.symm hother, rfl⟩⟩

end Stop

namespace ScanSound

variable {operations : List Operation} {position : Nat} {scan : TrapScan}

theorem start_mem (h : ScanSound operations position scan) {number : Nat} {region : TrapRegion}
    (hregion : scan.regions[number]? = some region) (hopen : number ∈ scan.opened) :
    region.start ∈ openAt operations position := by
  have hmem : some region.start ∈ (openAt operations position).map some := by
    rw [← h.opened]
    exact List.mem_map.mpr ⟨number, hopen, by rw [hregion]; rfl⟩
  simpa using hmem

theorem mem_opened (h : ScanSound operations position scan) {number : Nat} {region : TrapRegion}
    (hregion : scan.regions[number]? = some region) (hstop : position ≤ region.stop) :
    number ∈ scan.opened := by
  by_cases hopen : number ∈ scan.opened
  · exact hopen
  · have := h.closed number region hregion hopen
    omega

theorem inside_succ (h : ScanSound operations position scan) {number : Nat} {region : TrapRegion}
    (hregion : scan.regions[number]? = some region)
    (hstays : number ∈ scan.opened → region.start ∈ openAt operations (position + 1))
    {target : Nat} (hstart : region.start < target) (htarget : target ≤ position + 1)
    (hreached : number ∈ scan.opened ∨ target ≤ region.stop) :
    region.start ∈ openAt operations target := by
  rcases Nat.le_succ_iff.mp htarget with hearlier | rfl
  · exact h.inside number region hregion target hstart hearlier hreached
  · refine hstays ?_
    rcases hreached with hnumber | hstop
    · exact hnumber
    · exact h.mem_opened hregion (by omega)

theorem keep (h : ScanSound operations position scan)
    (hopen : openAt operations (position + 1) = openAt operations position) :
    ScanSound operations (position + 1) scan := by
  refine ⟨by rw [hopen]; exact h.opened, ?_, ?_⟩
  · intro number region hregion hclosed
    exact Nat.lt_succ_of_lt (h.closed number region hregion hclosed)
  · intro number region hregion target hstart htarget hreached
    refine h.inside_succ hregion ?_ hstart htarget hreached
    rw [hopen]
    exact h.start_mem hregion

theorem begins (h : ScanSound operations position scan) {length depth : Nat}
    (hopen : openAt operations (position + 1) = position :: openAt operations position) :
    ScanSound operations (position + 1)
      { opened := scan.regions.length :: scan.opened
        regions := scan.regions ++ [⟨position, length⟩]
        maxDepth := depth } := by
  have hvalid : ∀ number ∈ scan.opened, number < scan.regions.length := by
    intro number hnumber
    have hmem : scan.regions[number]?.map (·.start) ∈ (openAt operations position).map some := by
      rw [← h.opened]
      exact List.mem_map_of_mem hnumber
    obtain ⟨start, -, hstart⟩ := List.mem_map.mp hmem
    cases hregion : scan.regions[number]? with
    | none => simp [hregion] at hstart
    | some region => exact (List.getElem?_eq_some_iff.mp hregion).1
  refine ⟨?_, ?_, ?_⟩
  · rw [hopen, List.map_cons, List.map_cons, ← h.opened]
    congr 1
    · simp
    · refine List.map_congr_left ?_
      intro number hnumber
      rw [List.getElem?_append_left (hvalid number hnumber)]
  · intro number region hregion hclosed
    rcases getElem?_concat_cases hregion with hregion | ⟨rfl, -⟩
    · exact Nat.lt_succ_of_lt (h.closed number region hregion
        fun hnumber => hclosed (List.mem_cons_of_mem _ hnumber))
    · exact absurd List.mem_cons_self hclosed
  · intro number region hregion target hstart htarget hreached
    rcases getElem?_concat_cases hregion with hregion | ⟨rfl, rfl⟩
    · refine h.inside_succ hregion ?_ hstart htarget ?_
      · intro hnumber
        rw [hopen]
        exact List.mem_cons_of_mem _ (h.start_mem hregion hnumber)
      · have hlt := (List.getElem?_eq_some_iff.mp hregion).1
        rcases hreached with hnumber | hstop
        · exact Or.inl ((List.mem_cons.mp hnumber).resolve_left (by omega))
        · exact Or.inr hstop
    · obtain rfl : target = position + 1 := by
        have : position < target := hstart
        omega
      rw [hopen]
      exact List.mem_cons_self

theorem ends (h : ScanSound operations position scan) {innermost : Nat} {others : List Nat}
    (hscan : scan.opened = innermost :: others)
    (hopen : openAt operations (position + 1) = (openAt operations position).tail) :
    ScanSound operations (position + 1)
      { scan with
        opened := others
        regions := scan.regions.modify innermost fun region =>
          { region with stop := position } } := by
  have hopened := h.opened
  rw [hscan, List.map_cons] at hopened
  have hothers : others.map (fun number => scan.regions[number]?.map (·.start))
      = (openAt operations (position + 1)).map some := by
    rw [hopen, List.map_tail, ← hopened, List.tail_cons]
  refine ⟨?_, ?_, ?_⟩
  · rw [← hothers]
    exact List.map_congr_left fun number _ => start_modify_stop ..
  · intro number region hregion hclosed
    obtain ⟨old, hfound, -, ⟨rfl, hstop⟩ | ⟨hother, rfl⟩⟩ := region_of_modify_stop hregion
    · omega
    · refine Nat.lt_succ_of_lt (h.closed number _ hfound ?_)
      rw [hscan]
      exact fun hnumber => hclosed ((List.mem_cons.mp hnumber).resolve_left hother)
  · intro number region hregion target hstart htarget hreached
    obtain ⟨old, hfound, hsame, hcases⟩ := region_of_modify_stop hregion
    have hstays (hnumber : number ∈ others) : old.start ∈ openAt operations (position + 1) := by
      have hmem : some old.start ∈ (openAt operations (position + 1)).map some := by
        rw [← hothers]
        exact List.mem_map.mpr ⟨number, hnumber, by rw [hfound]; rfl⟩
      simpa using hmem
    rw [hsame] at hstart ⊢
    rcases hcases with ⟨rfl, hstop⟩ | ⟨hother, rfl⟩
    · rcases Nat.le_succ_iff.mp htarget with hearlier | rfl
      · have hnumber : number ∈ scan.opened := by
          rw [hscan]
          exact List.mem_cons_self
        exact h.inside number old hfound target hstart hearlier (Or.inl hnumber)
      · exact hstays (hreached.resolve_right (by omega))
    · refine h.inside_succ hfound ?_ hstart htarget ?_
      · intro hnumber
        rw [hscan] at hnumber
        exact hstays ((List.mem_cons.mp hnumber).resolve_left hother)
      · refine hreached.imp_left ?_
        rw [hscan]
        exact List.mem_cons_of_mem _

end ScanSound

theorem scanAt_sound (operations : List Operation) {position : Nat}
    (h : position ≤ operations.length) :
    ScanSound operations position (scanAt operations position) := by
  induction position with
  | zero => exact ⟨rfl, nofun, nofun⟩
  | succ position ih =>
      have hsound := ih (by omega)
      rw [scanAt_succ h]
      have hopen := openAt_succ h
      generalize operations[position] = op at hopen ⊢
      rcases TrapScan.step_cases operations.length (scanAt operations position) op position with
        ⟨htrap, hstep⟩ | ⟨innermost, others, hend, hscan, hstep⟩ | ⟨htrap, hnone, hstep⟩
      · rw [openStep_trap htrap] at hopen
        rw [hstep]
        exact hsound.begins hopen
      · rw [openStep_endTrap hend] at hopen
        rw [hstep]
        exact hsound.ends hscan hopen
      · rw [hstep]
        refine hsound.keep (hopen.trans ?_)
        by_cases hend : op.opcode = .endTrap
        · have hempty := hsound.opened
          rw [hnone hend, List.map_nil] at hempty
          rw [openStep_endTrap hend, List.map_eq_nil_iff.mp hempty.symm, List.tail_nil]
        · exact openStep_other ⟨htrap, hend⟩ _ _

theorem analyze_ok {function : FunctionDef} {flow : Flow} (h : analyze function = .ok flow) :
    flow.regions = (scanAt function.operations function.operations.length).regions ∧
      flow.maxTrapDepth = (scanAt function.operations function.operations.length).maxDepth := by
  obtain ⟨targets, -, h⟩ := ok_of_bind h
  cases h
  rw [scanAt, List.take_of_length_le (by simp)]
  exact ⟨rfl, rfl⟩

theorem start_mem_openAt {function : FunctionDef} {flow : Flow} {region : TrapRegion}
    {target : Nat} (hflow : analyze function = .ok flow) (hregion : region ∈ flow.regions)
    (hinside : region.contains target = true) (htarget : target ≤ function.operations.length) :
    region.start ∈ openAt function.operations target := by
  rw [(analyze_ok hflow).1] at hregion
  obtain ⟨number, hnumber⟩ := List.mem_iff_getElem?.mp hregion
  simp only [TrapRegion.contains, Bool.and_eq_true, decide_eq_true_eq] at hinside
  exact (scanAt_sound function.operations (Nat.le_refl _)).inside number region hnumber target
    hinside.1 htarget (Or.inr hinside.2)

end BytecodeLowering.Flow
