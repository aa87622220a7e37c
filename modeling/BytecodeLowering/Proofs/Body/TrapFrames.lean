import BytecodeLowering.Proofs.Body.Regions
import BytecodeLowering.Proofs.Body.TrapBrackets

/-!
# Open traps

In front of every instruction the open traps of a lowering stand for the regions
that contain the instruction, so a jump is tested against the smallest of these
regions.
-/

namespace BytecodeLowering

/-- A region that contains a position and lies in all others that do. -/
structure Flow.Innermost (flow : Flow) (position : Nat) (region : TrapRegion) : Prop where
  mem : region ∈ flow.regions
  contains : region.contains position = true
  least : ∀ other ∈ flow.regions, other.contains position = true → region.Inside other

theorem Flow.Innermost.contains_eq {flow : Flow} {position : Nat} {first second : TrapRegion}
    (hfirst : flow.Innermost position first) (hsecond : flow.Innermost position second)
    (target : Nat) : first.contains target = second.contains target := by
  have hinside := hfirst.least second hsecond.mem hsecond.contains target
  have houtside := hsecond.least first hfirst.mem hfirst.contains target
  exact Bool.eq_iff_iff.mpr ⟨hinside, houtside⟩

/-- In front of an instruction the open traps are the regions that contain it,
and a jump leaves a trap when it ends outside the innermost one. -/
structure Progress.InRegions (scope : Scope) (position : Nat) (progress : Progress) : Prop where
  frames : (progress.traps.map (·.region)).reverse
    = scope.flow.regions.filter (·.contains position)
  innermost : ∀ frame, progress.traps.head? = some frame →
    scope.flow.Innermost position frame.region
  leaves : ∀ during : Progress, during.traps = progress.traps → during.position = position →
    ∀ offset, Emit.leavesTrap during offset = true ↔
      ∃ region, scope.flow.Innermost position region ∧
        ∀ target : Nat, Operation.branchTarget position offset = target →
          region.contains target = false

section Frames

variable {scope : Scope} {position : Nat} {progress : Progress}

theorem Progress.Follows.start_mem_openAt (h : progress.Follows scope position)
    {frame : TrapFrame} (hframe : frame ∈ progress.traps) :
    frame.region.start ∈ Flow.openAt scope.function.operations position := by
  rw [← h.starts]
  exact List.mem_map_of_mem hframe

theorem Progress.Follows.regions_pairwise (h : progress.Follows scope position)
    (hposition : position ≤ scope.function.operations.length) :
    (progress.traps.map (·.region)).Pairwise fun inner outer => outer.start < inner.start := by
  have hstarts := Flow.openAt_pairwise hposition
  rw [← h.starts, List.pairwise_map] at hstarts
  exact List.pairwise_map.mpr hstarts

variable (hflow : Flow.analyze scope.function = .ok scope.flow)
  (hposition : position ≤ scope.function.operations.length)

include hflow hposition

theorem Progress.Follows.mem_regions_iff (h : progress.Follows scope position)
    {region : TrapRegion} :
    region ∈ progress.traps.map (·.region) ↔
      region ∈ scope.flow.regions ∧ region.contains position = true := by
  constructor
  · intro hregion
    obtain ⟨frame, hframe, rfl⟩ := List.mem_map.mp hregion
    have hmem := h.regions frame hframe
    refine ⟨hmem, ?_⟩
    rw [Flow.contains_iff_mem_openAt hflow hmem hposition]
    exact h.start_mem_openAt hframe
  · rintro ⟨hmem, hinside⟩
    rw [Flow.contains_iff_mem_openAt hflow hmem hposition, ← h.starts] at hinside
    obtain ⟨frame, hframe, hstart⟩ := List.mem_map.mp hinside
    rw [← Flow.eq_of_start_eq hflow (h.regions frame hframe) hmem hstart]
    exact List.mem_map_of_mem hframe

theorem Progress.Follows.frames_eq (h : progress.Follows scope position) :
    (progress.traps.map (·.region)).reverse
      = scope.flow.regions.filter (·.contains position) := by
  have hframes := List.pairwise_reverse.mpr (h.regions_pairwise hposition)
  have hregions := (Flow.regions_pairwise hflow).filter (·.contains position)
  refine List.Perm.eq_of_pairwise ?_ hframes hregions ?_
  · intro first second _ _ hlt hgt
    omega
  · refine (List.perm_ext_iff_of_nodup ?_ ?_).mpr ?_
    · exact hframes.imp fun hlt heq => absurd hlt (by simp [heq])
    · exact hregions.imp fun hlt heq => absurd hlt (by simp [heq])
    · intro region
      rw [List.mem_reverse, h.mem_regions_iff hflow hposition, List.mem_filter]

theorem Progress.Follows.innermost_head (h : progress.Follows scope position)
    {frame : TrapFrame} (hframe : progress.traps.head? = some frame) :
    scope.flow.Innermost position frame.region := by
  have hmem := List.mem_of_mem_head? hframe
  obtain ⟨hregion, hinside⟩ := (h.mem_regions_iff hflow hposition).mp (List.mem_map_of_mem hmem)
  refine ⟨hregion, hinside, ?_⟩
  intro other hother hcommon
  refine Flow.inside_of_common hflow hregion hother hinside hcommon ?_
  have hframes := h.regions_pairwise hposition
  have hinner := (h.mem_regions_iff hflow hposition).mpr ⟨hother, hcommon⟩
  cases htraps : progress.traps with
  | nil => simp [htraps] at hframe
  | cons first rest =>
      obtain rfl : first = frame := by simpa [htraps] using hframe
      rw [htraps, List.map_cons] at hframes hinner
      rcases List.mem_cons.mp hinner with rfl | hinner
      · exact Nat.le_refl _
      · exact Nat.le_of_lt ((List.pairwise_cons.mp hframes).1 other hinner)

theorem Progress.Follows.inRegions (h : progress.Follows scope position) :
    progress.InRegions scope position := by
  refine ⟨h.frames_eq hflow hposition, fun _ => h.innermost_head hflow hposition, ?_⟩
  intro during htraps hduring offset
  unfold Emit.leavesTrap
  rw [htraps, hduring]
  cases hframes : progress.traps with
  | nil =>
      have hnone := h.frames_eq hflow hposition
      rw [hframes, List.map_nil, List.reverse_nil, eq_comm, List.filter_eq_nil_iff] at hnone
      simp only [Bool.false_eq_true, false_iff, not_exists, not_and]
      intro region hregion
      exact absurd hregion.contains (hnone region hregion.mem)
  | cons frame rest =>
      have hinnermost : scope.flow.Innermost position frame.region :=
        h.innermost_head hflow hposition (by simp [hframes])
      have htests : (∃ region, scope.flow.Innermost position region ∧
            ∀ target : Nat, Operation.branchTarget position offset = target →
              region.contains target = false)
          ↔ ∀ target : Nat, Operation.branchTarget position offset = target →
              frame.region.contains target = false := by
        constructor
        · rintro ⟨region, hregion, houtside⟩ target htarget
          rw [hinnermost.contains_eq hregion]
          exact houtside target htarget
        · intro houtside
          exact ⟨frame.region, hinnermost, houtside⟩
      rw [htests]
      cases htarget : Operation.branchTarget position offset with
      | ofNat target => simp [Int.toNat?]
      | negSucc target => simp [Int.toNat?]

end Frames

/-- The analysis of a body matches its traps with their ends, and a lowering of
the body has the regions open that contain the instruction it is at. -/
theorem FunctionDef.traps_match (function : FunctionDef) :
    (∀ flow, Flow.analyze function = .ok flow → flow.Brackets function.operations) ∧
      ∀ image registry settings signature result,
        function.lower image registry settings signature = .ok result →
          ∃ scope, function.scope image registry settings signature = .ok scope ∧
            ∀ position < function.operations.length, ∃ progress,
              scope.Reaches position progress ∧ progress.InRegions scope position := by
  refine ⟨fun flow => Flow.brackets_of_analyze, ?_⟩
  intro image registry settings signature result hlower
  obtain ⟨scope, final, hscope, hbody⟩ := FunctionDef.lower_ok hlower
  obtain ⟨hflow, -, -, -, rfl, -⟩ := FunctionDef.scope_ok hscope
  obtain ⟨last, hlast, -⟩ := Emit.body_ok hbody
  refine ⟨scope, hscope, ?_⟩
  intro position hposition
  obtain ⟨progress, hprogress⟩ := Scope.Reaches.earlier (Nat.le_of_lt hposition) hlast
  have hregular := hprogress.regular hflow (Nat.le_of_lt hposition)
  exact ⟨progress, hprogress, hregular.toFollows.inRegions hflow (Nat.le_of_lt hposition)⟩

def looseTraps : FunctionDef where
  index := 0
  type := 3
  registers := [1]
  operations := [⟨.endTrap, [0]⟩, ⟨.trap, [0, 2]⟩, ⟨.trap, [0, 1]⟩, ⟨.endTrap, [0]⟩, ⟨.ret, [0]⟩]
  lines := none
  names := []

theorem traps_match_nested :
    (∃ flow, Flow.analyze looseTraps = .ok flow ∧ flow.regions = [⟨1, 5⟩, ⟨2, 3⟩] ∧
        flow.Brackets looseTraps.operations) ∧
      ∃ (result : MethodBody × BodyStats) (scope : Scope),
        nestedTraps.lower nestedTrapsImage (nestedTrapsImage.registry {}) {} ⟨[], .i32⟩
          = .ok result ∧
        nestedTraps.scope nestedTrapsImage (nestedTrapsImage.registry {}) {} ⟨[], .i32⟩
          = .ok scope ∧
        ∀ position < nestedTraps.operations.length, ∃ progress : Progress,
          scope.Reaches position progress ∧ progress.InRegions scope position := by
  constructor
  · exact ⟨_, rfl, rfl, looseTraps.traps_match.1 _ rfl⟩
  · obtain ⟨result, hlower⟩ := nestedTraps_lower_ok
    obtain ⟨scope, hscope, hregions⟩ := nestedTraps.traps_match.2 _ _ _ _ _ hlower
    exact ⟨result, scope, hlower, hscope, hregions⟩

end BytecodeLowering
