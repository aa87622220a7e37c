import BytecodeLowering.Proofs.Body.TrapRegions
import Mathlib.Data.Set.Card
import Mathlib.Order.Bounds.Basic

/-!
# Traps and their ends as brackets

The analysis of a body finds for each trap the instruction that closes it, as
one matches the brackets of a text; an end that closes nothing is passed over.
The regions it finds are laid out like the groups of such a text, and its depth
is the largest number of traps that are open at once.
-/

namespace BytecodeLowering

/-! ## Regions as sets of positions -/

def TrapRegion.Apart (first second : TrapRegion) : Prop :=
  ∀ position, first.contains position = true → second.contains position = false

def TrapRegion.Inside (inner outer : TrapRegion) : Prop :=
  ∀ position, inner.contains position = true → outer.contains position = true

theorem TrapRegion.contains_iff {region : TrapRegion} {position : Nat} :
    region.contains position = true ↔ region.start < position ∧ position ≤ region.stop := by
  simp [TrapRegion.contains]

theorem TrapRegion.inside_of_bounds {inner outer : TrapRegion} (hstart : outer.start ≤ inner.start)
    (hstop : inner.stop ≤ outer.stop) : inner.Inside outer := by
  intro position hposition
  rw [TrapRegion.contains_iff] at hposition ⊢
  omega

namespace Flow

def opcodeAt? (operations : List Operation) (position : Nat) : Option Opcode :=
  operations[position]?.map (·.opcode)

/-- From the first position up to the last one, every trap is closed by an end
and every end closes a trap. -/
inductive Matched (operations : List Operation) : Nat → Nat → Prop
  | nil (position : Nat) : Matched operations position position
  | other {first last : Nat} {opcode : Opcode} (hfirst : opcodeAt? operations first = some opcode)
      (htrap : opcode ≠ .trap) (hend : opcode ≠ .endTrap)
      (hrest : Matched operations (first + 1) last) : Matched operations first last
  | pair {first stop last : Nat} (htrap : opcodeAt? operations first = some .trap)
      (hinner : Matched operations (first + 1) stop)
      (hend : opcodeAt? operations stop = some .endTrap)
      (hrest : Matched operations (stop + 1) last) : Matched operations first last

structure Closes (operations : List Operation) (start stop : Nat) : Prop where
  trap : opcodeAt? operations start = some .trap
  inner : Matched operations (start + 1) stop
  endTrap : opcodeAt? operations stop = some .endTrap

def openTraps (operations : List Operation) (position : Nat) : Set Nat :=
  {start | opcodeAt? operations start = some .trap ∧ start < position ∧
    ∀ stop < position, ¬Closes operations start stop}

def trapsBefore (operations : List Operation) (position : Nat) : List Nat :=
  (List.range position).filter fun start => opcodeAt? operations start = some .trap

/-- The analysis of a body is the one that matching its brackets gives. -/
structure Brackets (operations : List Operation) (flow : Flow) : Prop where
  /-- There is one region per trap, in the order of the traps. -/
  starts : flow.regions.map (·.start) = trapsBefore operations operations.length
  /-- A region ends where its trap is closed; if it never is, it has no end. -/
  stops : ∀ region ∈ flow.regions, Closes operations region.start region.stop ∨
    region.stop = operations.length ∧ ∀ stop, ¬Closes operations region.start stop
  nested : ∀ first ∈ flow.regions, ∀ second ∈ flow.regions,
    first.Apart second ∨ first.Inside second ∨ second.Inside first
  depth : IsGreatest {count | ∃ position ≤ operations.length,
    (openTraps operations position).ncard = count} flow.maxTrapDepth

/-! ## Matched instructions -/

section Matched

variable {operations : List Operation} {first middle last position : Nat}

theorem opcodeAt?_eq_some {opcode : Opcode} :
    opcodeAt? operations position = some opcode ↔
      ∃ h : position < operations.length, operations[position].opcode = opcode := by
  simp [opcodeAt?, Option.map_eq_some_iff, List.getElem?_eq_some_iff]

theorem opcodeAt?_getElem (h : position < operations.length) :
    opcodeAt? operations position = some operations[position].opcode := by
  simp [opcodeAt?, h]

theorem openAt_trap (h : opcodeAt? operations position = some .trap) :
    openAt operations (position + 1) = position :: openAt operations position := by
  obtain ⟨hposition, hopcode⟩ := opcodeAt?_eq_some.mp h
  rw [openAt_succ hposition, openStep_trap hopcode]

theorem openAt_endTrap (h : opcodeAt? operations position = some .endTrap) :
    openAt operations (position + 1) = (openAt operations position).tail := by
  obtain ⟨hposition, hopcode⟩ := opcodeAt?_eq_some.mp h
  rw [openAt_succ hposition, openStep_endTrap hopcode]

theorem openAt_other {opcode : Opcode} (h : opcodeAt? operations position = some opcode)
    (htrap : opcode ≠ .trap) (hend : opcode ≠ .endTrap) :
    openAt operations (position + 1) = openAt operations position := by
  obtain ⟨hposition, rfl⟩ := opcodeAt?_eq_some.mp h
  rw [openAt_succ hposition, openStep_other ⟨htrap, hend⟩]

theorem Matched.le (h : Matched operations first last) : first ≤ last := by
  induction h with
  | nil => simp
  | other => omega
  | pair => omega

theorem Matched.trans (hfirst : Matched operations first middle)
    (hlast : Matched operations middle last) : Matched operations first last := by
  induction hfirst with
  | nil => exact hlast
  | other hopcode htrap hend _ ih => exact .other hopcode htrap hend (ih hlast)
  | pair htrap hinner hend _ _ ih => exact .pair htrap hinner hend (ih hlast)

theorem Matched.openAt_eq (h : Matched operations first last) :
    openAt operations last = openAt operations first := by
  induction h with
  | nil => rfl
  | other hopcode htrap hend _ ih => rw [ih, openAt_other hopcode htrap hend]
  | pair htrap _ hend _ hinner hrest =>
      rw [hrest, openAt_endTrap hend, hinner, openAt_trap htrap, List.tail_cons]

theorem Closes.lt_length {start stop : Nat} (h : Closes operations start stop) :
    stop < operations.length := by
  obtain ⟨hstop, -⟩ := opcodeAt?_eq_some.mp h.endTrap
  exact hstop

theorem Closes.lt {start stop : Nat} (h : Closes operations start stop) : start < stop :=
  h.inner.le

theorem Closes.openAt_succ_eq {start stop : Nat} (h : Closes operations start stop) :
    openAt operations (stop + 1) = openAt operations start := by
  rw [openAt_endTrap h.endTrap, h.inner.openAt_eq, openAt_trap h.trap, List.tail_cons]

end Matched

/-! ## Open traps -/

section Open

variable {operations : List Operation} {position start : Nat} {outer : List Nat}

/-- The innermost open trap is followed by matched instructions only, and the
others are those that it has found open. -/
theorem openAt_eq_cons (hposition : position ≤ operations.length)
    (h : openAt operations position = start :: outer) :
    opcodeAt? operations start = some .trap ∧ start < position ∧
      Matched operations (start + 1) position ∧ openAt operations start = outer := by
  induction position using Nat.strong_induction_on generalizing start outer with
  | _ position ih =>
      cases position with
      | zero => simp [openAt] at h
      | succ position =>
          have hopcode := opcodeAt?_getElem hposition
          generalize operations[position].opcode = opcode at hopcode
          by_cases htrap : opcode = .trap
          · subst htrap
            rw [openAt_trap hopcode, List.cons.injEq] at h
            obtain ⟨rfl, rfl⟩ := h
            exact ⟨hopcode, Nat.lt_succ_self _, .nil _, rfl⟩
          · by_cases hend : opcode = .endTrap
            · subst hend
              rw [openAt_endTrap hopcode] at h
              -- The trap that ends here lies in the one that stays open.
              cases hinner : openAt operations position with
              | nil => simp [hinner] at h
              | cons inner others =>
                  rw [hinner, List.tail_cons] at h
                  obtain ⟨hstart, hlt, hmatched, houter⟩ :=
                    ih position (Nat.lt_succ_self _) (by omega) hinner
                  obtain ⟨htrap, hbefore, hbetween, hrest⟩ :=
                    ih inner (by omega) (by omega) (houter.trans h)
                  refine ⟨htrap, by omega, hbetween.trans ?_, hrest⟩
                  exact .pair hstart hmatched hopcode (.nil _)
            · rw [openAt_other hopcode htrap hend] at h
              obtain ⟨hstart, hlt, hmatched, houter⟩ :=
                ih position (Nat.lt_succ_self _) (by omega) h
              refine ⟨hstart, by omega, hmatched.trans ?_, houter⟩
              exact .other hopcode htrap hend (.nil _)

theorem closes_of_openAt_eq_cons (h : openAt operations position = start :: outer)
    (hend : opcodeAt? operations position = some .endTrap) :
    Closes operations start position := by
  obtain ⟨hposition, -⟩ := opcodeAt?_eq_some.mp hend
  obtain ⟨htrap, -, hinner, -⟩ := openAt_eq_cons (Nat.le_of_lt hposition) h
  exact ⟨htrap, hinner, hend⟩

theorem openAt_succ_cases (h : position < operations.length) :
    opcodeAt? operations position = some .trap ∧
        openAt operations (position + 1) = position :: openAt operations position ∨
      opcodeAt? operations position = some .endTrap ∧
        openAt operations (position + 1) = (openAt operations position).tail ∨
      opcodeAt? operations position ≠ some .trap ∧
        openAt operations (position + 1) = openAt operations position := by
  have hopcode := opcodeAt?_getElem h
  generalize operations[position].opcode = opcode at hopcode
  by_cases htrap : opcode = .trap
  · subst htrap
    exact Or.inl ⟨hopcode, openAt_trap hopcode⟩
  · by_cases hend : opcode = .endTrap
    · subst hend
      exact Or.inr (Or.inl ⟨hopcode, openAt_endTrap hopcode⟩)
    · exact Or.inr (Or.inr ⟨by simp [hopcode, htrap], openAt_other hopcode htrap hend⟩)

theorem trap_of_mem_openAt (hposition : position ≤ operations.length)
    (h : start ∈ openAt operations position) :
    opcodeAt? operations start = some .trap ∧ start < position := by
  induction position with
  | zero => simp [openAt] at h
  | succ position ih =>
      have hearlier (hmem : start ∈ openAt operations position) :
          opcodeAt? operations start = some .trap ∧ start < position + 1 :=
        (ih (by omega) hmem).imp_right Nat.lt_succ_of_lt
      rcases openAt_succ_cases hposition with ⟨htrap, hopen⟩ | ⟨-, hopen⟩ | ⟨-, hopen⟩
      · rw [hopen, List.mem_cons] at h
        rcases h with rfl | h
        · exact ⟨htrap, Nat.lt_succ_self _⟩
        · exact hearlier h
      · rw [hopen] at h
        exact hearlier (List.mem_of_mem_tail h)
      · rw [hopen] at h
        exact hearlier h

theorem openAt_pairwise (hposition : position ≤ operations.length) :
    (openAt operations position).Pairwise (· > ·) := by
  induction position with
  | zero => simp [openAt]
  | succ position ih =>
      have hearlier := ih (by omega)
      rcases openAt_succ_cases hposition with ⟨-, hopen⟩ | ⟨-, hopen⟩ | ⟨-, hopen⟩
      · rw [hopen, List.pairwise_cons]
        refine ⟨?_, hearlier⟩
        intro start hstart
        exact (trap_of_mem_openAt (by omega) hstart).2
      · rw [hopen]
        exact hearlier.sublist (List.tail_sublist _)
      · rw [hopen]
        exact hearlier

theorem openAt_nodup (hposition : position ≤ operations.length) :
    (openAt operations position).Nodup :=
  (openAt_pairwise hposition).imp fun h => Nat.ne_of_gt h

theorem Closes.not_mem_openAt {stop : Nat} (h : Closes operations start stop)
    (hstop : stop < position) (hposition : position ≤ operations.length) :
    start ∉ openAt operations position := by
  induction position, hstop using Nat.le_induction with
  | base =>
      rw [h.openAt_succ_eq]
      intro hmem
      have hlt := h.lt
      have := (trap_of_mem_openAt (by omega) hmem).2
      omega
  | succ position hlater ih =>
      have hclosed := ih (by omega)
      have hlt := h.lt
      rcases openAt_succ_cases hposition with ⟨-, hopen⟩ | ⟨-, hopen⟩ | ⟨-, hopen⟩
      · simp [hopen, hclosed]
        omega
      · rw [hopen]
        exact fun hmem => hclosed (List.mem_of_mem_tail hmem)
      · rwa [hopen]

theorem mem_openAt_iff (hposition : position ≤ operations.length) :
    start ∈ openAt operations position ↔ start ∈ openTraps operations position := by
  constructor
  · intro h
    obtain ⟨htrap, hlt⟩ := trap_of_mem_openAt hposition h
    exact ⟨htrap, hlt, fun stop hstop hcloses => hcloses.not_mem_openAt hstop hposition h⟩
  · rintro ⟨htrap, hlt, hopen⟩
    induction position with
    | zero => omega
    | succ position ih =>
        rcases Nat.lt_succ_iff_lt_or_eq.mp hlt with hbefore | rfl
        · have hmem := ih (by omega) hbefore fun stop hstop => hopen stop (by omega)
          rcases openAt_succ_cases hposition with ⟨-, hnext⟩ | ⟨hend, hnext⟩ | ⟨-, hnext⟩
          · simp [hnext, hmem]
          · cases hinner : openAt operations position with
            | nil => simp [hinner] at hmem
            | cons inner outer =>
                rw [hinner, List.mem_cons] at hmem
                rw [hnext, hinner, List.tail_cons]
                refine hmem.resolve_left ?_
                rintro rfl
                exact hopen position (Nat.lt_succ_self _) (closes_of_openAt_eq_cons hinner hend)
          · rwa [hnext]
        · simp [openAt_trap htrap]

theorem ncard_openTraps (hposition : position ≤ operations.length) :
    (openTraps operations position).ncard = (openAt operations position).length := by
  have hset : openTraps operations position = (openAt operations position).toFinset := by
    ext start
    simp [mem_openAt_iff hposition]
  rw [hset, Set.ncard_coe_finset, List.toFinset_card_of_nodup (openAt_nodup hposition)]

end Open

/-! ## The analysis -/

structure ScanBrackets (operations : List Operation) (position : Nat) (scan : TrapScan) :
    Prop where
  starts : scan.regions.map (·.start) = trapsBefore operations position
  stops : ∀ region ∈ scan.regions,
    region.start ∈ openAt operations position ∧ region.stop = operations.length ∨
      region.start ∉ openAt operations position ∧ Closes operations region.start region.stop
  depth : IsGreatest {count | ∃ earlier ≤ position, (openAt operations earlier).length = count}
    scan.maxDepth

section Scan

variable {operations : List Operation} {position : Nat} {scan : TrapScan}

theorem trapsBefore_succ_trap (h : opcodeAt? operations position = some .trap) :
    trapsBefore operations (position + 1) = trapsBefore operations position ++ [position] := by
  simp [trapsBefore, List.range_succ, h]

theorem trapsBefore_succ_other (h : opcodeAt? operations position ≠ some .trap) :
    trapsBefore operations (position + 1) = trapsBefore operations position := by
  simp [trapsBefore, List.range_succ, h]

theorem trapsBefore_pairwise (operations : List Operation) (position : Nat) :
    (trapsBefore operations position).Pairwise (· < ·) :=
  List.pairwise_lt_range.sublist List.filter_sublist

theorem mem_trapsBefore {start : Nat} :
    start ∈ trapsBefore operations position ↔
      start < position ∧ opcodeAt? operations start = some .trap := by
  simp [trapsBefore]

theorem ScanBrackets.distinct (h : ScanBrackets operations position scan) :
    (scan.regions.map (·.start)).Nodup := by
  rw [h.starts]
  exact (trapsBefore_pairwise operations position).imp Nat.ne_of_lt

theorem isGreatest_depth {depth : Nat}
    (h : IsGreatest {count | ∃ earlier ≤ position, (openAt operations earlier).length = count}
      depth) :
    IsGreatest {count | ∃ earlier ≤ position + 1, (openAt operations earlier).length = count}
      (max depth (openAt operations (position + 1)).length) := by
  have hnext : {count | ∃ earlier ≤ position + 1, (openAt operations earlier).length = count}
      = {count | ∃ earlier ≤ position, (openAt operations earlier).length = count}
        ∪ {(openAt operations (position + 1)).length} := by
    ext count
    simp [Nat.le_succ_iff, or_and_right, exists_or, eq_comm, or_comm]
  rw [hnext]
  exact h.union isGreatest_singleton

theorem ScanBrackets.depth_kept (h : ScanBrackets operations position scan)
    (hopen : (openAt operations (position + 1)).length ≤ (openAt operations position).length) :
    IsGreatest {count | ∃ earlier ≤ position + 1, (openAt operations earlier).length = count}
      scan.maxDepth := by
  have hbound := h.depth.2 ⟨position, Nat.le_refl _, rfl⟩
  have hnext := isGreatest_depth h.depth
  rwa [Nat.max_eq_left (hopen.trans hbound)] at hnext

theorem ScanBrackets.begins (h : ScanBrackets operations position scan)
    (hopened : scan.opened.length = (openAt operations position).length)
    (htrap : opcodeAt? operations position = some .trap) {opened : List Nat} :
    ScanBrackets operations (position + 1)
      { opened
        regions := scan.regions ++ [⟨position, operations.length⟩]
        maxDepth := max scan.maxDepth (scan.opened.length + 1) } := by
  have hopen := openAt_trap htrap
  refine ⟨?_, ?_, ?_⟩
  · simp [h.starts, trapsBefore_succ_trap htrap]
  · intro region hregion
    rw [List.mem_append, List.mem_singleton] at hregion
    rw [hopen]
    rcases hregion with hregion | rfl
    · have hlt : region.start < position := by
        have hstart := List.mem_map_of_mem (f := TrapRegion.start) hregion
        rw [h.starts, mem_trapsBefore] at hstart
        exact hstart.1
      simpa [Nat.ne_of_lt hlt] using h.stops region hregion
    · simp
  · have hnext := isGreatest_depth h.depth
    rwa [hopen, List.length_cons, ← hopened] at hnext

/-- In a list of regions that start at different positions, changing the end of
one by its number is changing the end of the one with its start. -/
theorem modify_stop_eq_map {regions : List TrapRegion}
    (hdistinct : (regions.map (·.start)).Nodup) {number start : Nat}
    (hnumber : regions[number]?.map (·.start) = some start) (stop : Nat) :
    regions.modify number (fun region => { region with stop })
      = regions.map fun region =>
          if region.start = start then { region with stop } else region := by
  refine List.ext_getElem? fun index => ?_
  rw [List.getElem?_modify, List.getElem?_map]
  cases hregion : regions[index]? with
  | none => simp
  | some region =>
      have hsame : number = index ↔ region.start = start := by
        constructor
        · rintro rfl
          simpa [hregion] using hnumber
        · rintro rfl
          rw [← List.getElem?_map] at hnumber
          have hindex : (regions.map (·.start))[index]? = some region.start := by simp [hregion]
          have hlength := (List.getElem?_eq_some_iff.mp hindex).1
          exact ((List.getElem?_inj hlength hdistinct).mp (hindex.trans hnumber.symm)).symm
      by_cases hnow : number = index
      · simp [hnow, hsame.mp hnow]
      · simp [hnow, mt hsame.mpr hnow]

theorem ScanBrackets.ends (h : ScanBrackets operations position scan)
    (hsound : ScanSound operations position scan) {innermost : Nat} {others : List Nat}
    (hscan : scan.opened = innermost :: others)
    (hend : opcodeAt? operations position = some .endTrap) :
    ScanBrackets operations (position + 1)
      { scan with
        opened := others
        regions := scan.regions.modify innermost fun region =>
          { region with stop := position } } := by
  have hopened := hsound.opened
  rw [hscan, List.map_cons] at hopened
  cases hopen : openAt operations position with
  | nil => simp [hopen] at hopened
  | cons start outer =>
      rw [hopen, List.map_cons, List.cons.injEq] at hopened
      have hnext : openAt operations (position + 1) = outer := by
        rw [openAt_endTrap hend, hopen, List.tail_cons]
      rw [modify_stop_eq_map h.distinct hopened.1]
      refine ⟨?_, ?_, ?_⟩
      · rw [trapsBefore_succ_other (by simp [hend]), ← h.starts, List.map_map]
        refine List.map_congr_left fun region _ => ?_
        rw [Function.comp_apply]
        split <;> rfl
      · simp only [List.forall_mem_map, hnext]
        intro region hregion
        have hcloses := closes_of_openAt_eq_cons hopen hend
        by_cases hstart : region.start = start
        · have hposition := hcloses.lt_length
          have houter := openAt_nodup (Nat.le_of_lt hposition)
          rw [hopen, List.nodup_cons] at houter
          simp [hstart, houter.1, hcloses]
        · simpa [hopen, hstart] using h.stops region hregion
      · refine h.depth_kept ?_
        simp [hnext, hopen]

theorem ScanBrackets.keep (h : ScanBrackets operations position scan)
    (htrap : opcodeAt? operations position ≠ some .trap)
    (hopen : openAt operations (position + 1) = openAt operations position) :
    ScanBrackets operations (position + 1) scan := by
  refine ⟨?_, ?_, ?_⟩
  · rw [trapsBefore_succ_other htrap, h.starts]
  · rw [hopen]
    exact h.stops
  · exact h.depth_kept (Nat.le_of_eq (congrArg List.length hopen))

theorem scanAt_brackets (operations : List Operation) {position : Nat}
    (hposition : position ≤ operations.length) :
    ScanBrackets operations position (scanAt operations position) := by
  induction position with
  | zero => exact ⟨rfl, nofun, by simp [scanAt, openAt, IsGreatest, upperBounds]⟩
  | succ position ih =>
      have hearlier := ih (by omega)
      have hsound := scanAt_sound operations (Nat.le_of_lt hposition)
      have hlength := congrArg List.length hsound.opened
      rw [List.length_map, List.length_map] at hlength
      rw [scanAt_succ hposition]
      have hopcode := opcodeAt?_getElem hposition
      generalize operations[position] = op at hopcode
      rcases TrapScan.step_cases operations.length (scanAt operations position) op position with
        ⟨htrap, hstep⟩ | ⟨innermost, others, hend, hscan, hstep⟩ | ⟨htrap, hnone, hstep⟩
      · rw [htrap] at hopcode
        rw [hstep]
        exact hearlier.begins hlength hopcode
      · rw [hend] at hopcode
        rw [hstep]
        exact hearlier.ends hsound hscan hopcode
      · rw [hstep]
        refine hearlier.keep (by simp [hopcode, htrap]) ?_
        by_cases hend : op.opcode = .endTrap
        · have hempty : openAt operations position = [] := by
            simpa [hnone hend] using hlength.symm
          rw [openAt_endTrap (hend ▸ hopcode), hempty, List.tail_nil]
        · exact openAt_other hopcode htrap hend

end Scan

/-! ## The regions of a body -/

section Regions

variable {function : FunctionDef} {flow : Flow} {region other : TrapRegion} {position : Nat}
  (hflow : analyze function = .ok flow)

include hflow

theorem starts_of_analyze :
    flow.regions.map (·.start)
      = trapsBefore function.operations function.operations.length := by
  rw [(analyze_ok hflow).1]
  exact (scanAt_brackets function.operations (Nat.le_refl _)).starts

theorem stops_of_analyze (hregion : region ∈ flow.regions) :
    Closes function.operations region.start region.stop ∨
      region.stop = function.operations.length ∧
        ∀ stop, ¬Closes function.operations region.start stop := by
  rw [(analyze_ok hflow).1] at hregion
  rcases (scanAt_brackets function.operations (Nat.le_refl _)).stops region hregion with
    ⟨hopen, hstop⟩ | ⟨-, hcloses⟩
  · refine Or.inr ⟨hstop, fun stop hcloses => ?_⟩
    exact hcloses.not_mem_openAt hcloses.lt_length (Nat.le_refl _) hopen
  · exact Or.inl hcloses

theorem stop_le_length (hregion : region ∈ flow.regions) :
    region.stop ≤ function.operations.length := by
  rcases stops_of_analyze hflow hregion with hcloses | ⟨hstop, -⟩
  · exact Nat.le_of_lt hcloses.lt_length
  · exact Nat.le_of_eq hstop

theorem regions_pairwise :
    flow.regions.Pairwise fun first second => first.start < second.start := by
  have hstarts := trapsBefore_pairwise function.operations function.operations.length
  rw [← starts_of_analyze hflow] at hstarts
  exact List.pairwise_map.mp hstarts

theorem eq_of_start_eq (hregion : region ∈ flow.regions) (hother : other ∈ flow.regions)
    (hstart : region.start = other.start) : region = other := by
  refine List.inj_on_of_nodup_map ?_ hregion hother hstart
  exact (List.pairwise_map.mpr (regions_pairwise hflow)).imp Nat.ne_of_lt

theorem contains_iff_mem_openAt (hregion : region ∈ flow.regions)
    (hposition : position ≤ function.operations.length) :
    region.contains position = true ↔ region.start ∈ openAt function.operations position := by
  constructor
  · intro hinside
    exact start_mem_openAt hflow hregion hinside hposition
  · intro hopen
    obtain ⟨-, hstart, hclosed⟩ := (mem_openAt_iff hposition).mp hopen
    rw [TrapRegion.contains_iff]
    refine ⟨hstart, ?_⟩
    rcases stops_of_analyze hflow hregion with hcloses | ⟨hstop, -⟩
    · exact Nat.le_of_not_lt fun hlt => hclosed region.stop hlt hcloses
    · omega

/-- Of two regions with a common position, the one that starts later lies in
the other one. -/
theorem inside_of_common (hregion : region ∈ flow.regions) (hother : other ∈ flow.regions)
    (hinside : region.contains position = true) (hcommon : other.contains position = true)
    (hstart : other.start ≤ region.start) : region.Inside other := by
  refine TrapRegion.inside_of_bounds hstart ?_
  rw [TrapRegion.contains_iff] at hinside hcommon
  have hlength := stop_le_length hflow hregion
  rcases stops_of_analyze hflow hother with hcloses | ⟨hstop, -⟩
  · -- Past its end nothing is open that starts behind the outer trap.
    refine Nat.le_of_not_lt fun hlt => ?_
    have hopen : region.start ∈ openAt function.operations (other.stop + 1) := by
      refine (contains_iff_mem_openAt hflow hregion (by omega)).mp ?_
      rw [TrapRegion.contains_iff]
      omega
    rw [hcloses.openAt_succ_eq] at hopen
    have := (trap_of_mem_openAt (by omega) hopen).2
    omega
  · omega

theorem nested_of_analyze (hregion : region ∈ flow.regions) (hother : other ∈ flow.regions) :
    region.Apart other ∨ region.Inside other ∨ other.Inside region := by
  by_cases hapart : region.Apart other
  · exact Or.inl hapart
  · obtain ⟨position, hinside, hcommon⟩ :
        ∃ position, region.contains position = true ∧ other.contains position = true := by
      simpa [TrapRegion.Apart] using hapart
    rcases Nat.le_total other.start region.start with hstart | hstart
    · exact Or.inr (Or.inl (inside_of_common hflow hregion hother hinside hcommon hstart))
    · exact Or.inr (Or.inr (inside_of_common hflow hother hregion hcommon hinside hstart))

theorem brackets_of_analyze : flow.Brackets function.operations := by
  refine ⟨starts_of_analyze hflow, fun _ => stops_of_analyze hflow,
    fun _ hfirst _ hsecond => nested_of_analyze hflow hfirst hsecond, ?_⟩
  have hdepth := (scanAt_brackets function.operations (Nat.le_refl _)).depth
  rw [← (analyze_ok hflow).2] at hdepth
  have hcounts : {count | ∃ position ≤ function.operations.length,
        (openTraps function.operations position).ncard = count}
      = {count | ∃ position ≤ function.operations.length,
        (openAt function.operations position).length = count} := by
    ext count
    refine exists_congr fun position => and_congr_right fun hposition => ?_
    rw [ncard_openTraps hposition]
  rwa [hcounts]

end Regions

end Flow

end BytecodeLowering
