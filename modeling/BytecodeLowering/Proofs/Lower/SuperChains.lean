import BytecodeLowering.Proofs.Lower.SlotPlan
import BytecodeLowering.Proofs.Lower.Constructors
import Mathlib.Data.List.Chain
import Mathlib.Data.List.Nodup

/-!
# Chains of super types

Which types have a chain of super types.  The way up from a type ends at a root, at
a type that is no object type, or in a cycle, and never at two of these; the budget
of the climb is the size of the type table, so that it is used up in a cycle only.
-/

namespace BytecodeLowering

namespace Image

variable {image : Image} {index parent : TypeIndex} {chain : List TypeIndex}

/-! ## The way up from a type -/

def super? (image : Image) (index : TypeIndex) : Option TypeIndex :=
  (image.object? index).bind (·.super)

def Extends (image : Image) (index parent : TypeIndex) : Prop := image.super? index = some parent

def Visits (image : Image) : TypeIndex → TypeIndex → Prop := Relation.ReflTransGen image.Extends

def OnCycle (image : Image) (index : TypeIndex) : Prop :=
  Relation.TransGen image.Extends index index

/-- The way up meets object types only and ends at one without a super type. -/
structure Rooted (image : Image) (index : TypeIndex) : Prop where
  objects : ∀ visited, image.Visits index visited → (image.object? visited).isSome
  ends : ∃ top, image.Visits index top ∧ image.super? top = none

/-- The way up meets object types only and none of them again. -/
structure Straight (image : Image) (index : TypeIndex) : Prop where
  objects : ∀ visited, image.Visits index visited → (image.object? visited).isSome
  once : ∀ visited, image.Visits index visited → ¬ image.OnCycle visited

theorem super?_of_object {object : ObjectType} (h : image.object? index = some object) :
    image.super? index = object.super := by
  rw [super?, h, Option.bind_some]

theorem super?_of_not_object (h : image.object? index = none) : image.super? index = none := by
  rw [super?, h, Option.bind_none]

theorem Extends.lt (h : image.Extends index parent) : index < image.types.length := by
  obtain ⟨object, hobject, -⟩ := Option.bind_eq_some_iff.mp h
  exact Image.lt_of_object hobject

theorem extends_rightUnique (image : Image) : Relator.RightUnique image.Extends := by
  intro index parent other hparent hother
  exact Option.some.inj (hparent.symm.trans hother)

theorem Visits.refl (index : TypeIndex) : image.Visits index index := Relation.ReflTransGen.refl

theorem Visits.step {visited : TypeIndex} (h : image.Visits index visited)
    (hnext : image.Extends visited parent) : image.Visits index parent := h.tail hnext

theorem Visits.total {visited other : TypeIndex} (h : image.Visits index visited)
    (hother : image.Visits index other) :
    image.Visits visited other ∨ image.Visits other visited :=
  Relation.ReflTransGen.total_of_right_unique image.extends_rightUnique h hother

theorem Visits.eq_of_root {visited : TypeIndex} (h : image.Visits index visited)
    (hroot : image.super? index = none) : visited = index := by
  rcases Relation.ReflTransGen.cases_head h with hsame | ⟨parent, hparent, -⟩
  · exact hsame.symm
  · cases hroot.symm.trans hparent

theorem OnCycle.super (h : image.OnCycle index) : image.super? index ≠ none := by
  obtain ⟨parent, hparent, -⟩ := Relation.TransGen.head'_iff.mp h
  intro hroot
  cases hroot.symm.trans hparent

theorem OnCycle.visits {visited : TypeIndex} (h : image.OnCycle index)
    (hvisits : image.Visits index visited) : image.OnCycle visited := by
  induction hvisits with
  | refl => exact h
  | tail _ hnext ih =>
      obtain ⟨parent, hparent, hback⟩ := Relation.TransGen.head'_iff.mp ih
      obtain rfl := image.extends_rightUnique hparent hnext
      exact Relation.TransGen.tail' hback hnext

/-- A way up has one end, and a way up that ends meets no cycle. -/
theorem Visits.leads_to_root {top visited : TypeIndex} (htop : image.Visits index top)
    (hroot : image.super? top = none) (hvisited : image.Visits index visited) :
    image.Visits visited top ∧ ¬ image.OnCycle visited := by
  have hvisits : image.Visits visited top := by
    rcases htop.total hvisited with hbelow | habove
    · rw [hbelow.eq_of_root hroot]
      exact .refl top
    · exact habove
  exact ⟨hvisits, fun hcycle => (hcycle.visits hvisits).super hroot⟩

theorem Rooted.straight (h : image.Rooted index) : image.Straight index := by
  obtain ⟨top, htop, hroot⟩ := h.ends
  exact ⟨h.objects, fun visited hvisited => (htop.leads_to_root hroot hvisited).2⟩

/-! ## Lines -/

namespace Lineage

theorem ends (h : image.Lineage index chain) : ∃ upper, chain = upper ++ [index] := by
  cases h with
  | root => exact ⟨[], rfl⟩
  | derived => exact ⟨_, rfl⟩

theorem begins (h : image.Lineage index chain) :
    ∃ top, chain.head? = some top ∧ image.super? top = none := by
  induction h with
  | root hobject hsuper => exact ⟨_, rfl, (super?_of_object hobject).trans hsuper⟩
  | derived hobject hsuper hparent ih =>
      obtain ⟨top, htop, hroot⟩ := ih
      exact ⟨top, by rw [List.head?_append, htop, Option.some_or], hroot⟩

theorem linked (h : image.Lineage index chain) :
    chain.IsChain fun parent derived => image.Extends derived parent := by
  induction h with
  | root => exact .singleton _
  | derived hobject hsuper hparent ih =>
      obtain ⟨upper, rfl⟩ := hparent.ends
      refine List.isChain_append.mpr ⟨ih, .singleton _, ?_⟩
      intro last hlast derived hderived
      simp only [List.getLast?_concat, List.head?_cons, Option.mem_some_iff] at hlast hderived
      obtain rfl := hlast
      obtain rfl := hderived
      exact (super?_of_object hobject).trans hsuper

theorem mem_iff (h : image.Lineage index chain) (visited : TypeIndex) :
    visited ∈ chain ↔ image.Visits index visited := by
  induction h with
  | @root index object hobject hsuper =>
      rw [List.mem_singleton]
      constructor
      · rintro rfl
        exact .refl _
      · exact fun hvisits => hvisits.eq_of_root ((super?_of_object hobject).trans hsuper)
  | @derived index parent object chain hobject hsuper hparent ih =>
      have hnext : image.Extends index parent := (super?_of_object hobject).trans hsuper
      rw [List.mem_append, List.mem_singleton, ih]
      constructor
      · rintro (hvisits | rfl)
        · exact Relation.ReflTransGen.head hnext hvisits
        · exact .refl _
      · intro hvisits
        rcases Relation.ReflTransGen.cases_head hvisits with hsame | ⟨other, hother, hrest⟩
        · exact .inr hsame.symm
        · obtain rfl := image.extends_rightUnique hnext hother
          exact .inl hrest

theorem rooted (h : image.Lineage index chain) : image.Rooted index := by
  refine ⟨fun visited hvisited => h.object_of_mem ((h.mem_iff visited).mpr hvisited), ?_⟩
  obtain ⟨top, htop, hroot⟩ := h.begins
  exact ⟨top, (h.mem_iff top).mp (List.mem_of_mem_head? htop), hroot⟩

theorem upper {upper lower : List TypeIndex} {entry : TypeIndex}
    (h : image.Lineage index chain) (hchain : chain = upper ++ entry :: lower) :
    image.Lineage entry (upper ++ [entry]) := by
  induction h generalizing lower with
  | @root index object hobject hsuper =>
      obtain ⟨rfl, rfl, rfl⟩ : upper = [] ∧ entry = index ∧ lower = [] := by
        simpa [List.singleton_eq_append_iff] using hchain
      exact .root hobject hsuper
  | @derived index parent object chain hobject hsuper hparent ih =>
      rcases List.eq_nil_or_concat' lower with rfl | ⟨between, last, rfl⟩
      · obtain ⟨rfl, rfl⟩ := List.append_singleton_inj.mp hchain
        exact .derived hobject hsuper hparent
      · rw [← List.cons_append, ← List.append_assoc] at hchain
        exact ih (List.append_singleton_inj.mp hchain).1

end Lineage

end Image

namespace ObjectLayout

variable {image : Image} {start index : TypeIndex} {chain : List TypeIndex}

/-! ## What a climb has behind it -/

/-- The types that are met on the way from `start` up to a type, last one first. -/
inductive Ascent (image : Image) (start : TypeIndex) : TypeIndex → List TypeIndex → Prop
  | start : Ascent image start start [start]
  | step {index parent : TypeIndex} {chain : List TypeIndex} (h : Ascent image start index chain)
      (hnext : image.Extends index parent) : Ascent image start parent (parent :: chain)

namespace Ascent

theorem visits (h : Ascent image start index chain) : image.Visits start index := by
  induction h with
  | start => exact .refl start
  | step _ hnext ih => exact ih.step hnext

theorem visits_of_mem (h : Ascent image start index chain) {member : TypeIndex}
    (hmember : member ∈ chain) : image.Visits member index := by
  induction h with
  | start =>
      rw [List.mem_singleton.mp hmember]
      exact .refl start
  | @step index parent chain h hnext ih =>
      rcases List.mem_cons.mp hmember with rfl | hbefore
      · exact .refl member
      · exact (ih hbefore).step hnext

theorem lt_of_mem (h : Ascent image start index chain) (hindex : index < image.types.length) :
    ∀ member ∈ chain, member < image.types.length := by
  induction h with
  | start => exact List.forall_mem_singleton.mpr hindex
  | step _ hnext ih => exact List.forall_mem_cons.mpr ⟨hindex, ih hnext.lt⟩

theorem nodup (h : Ascent image start index chain)
    (honce : ∀ visited, image.Visits start visited → ¬ image.OnCycle visited) : chain.Nodup := by
  induction h with
  | start => exact List.nodup_singleton start
  | step h hnext ih =>
      refine List.nodup_cons.mpr ⟨fun hagain => ?_, ih⟩
      exact honce _ (h.visits.step hnext) (Relation.TransGen.tail' (h.visits_of_mem hagain) hnext)

theorem exists_cycle (h : Ascent image start index chain)
    (hindex : index < image.types.length) (hlong : image.types.length < chain.length) :
    ∃ visited, image.Visits start visited ∧ image.OnCycle visited := by
  by_contra hnone
  have hnodup : chain.Nodup := h.nodup fun visited hvisited hcycle =>
    hnone ⟨visited, hvisited, hcycle⟩
  have hinside : chain ⊆ List.range image.types.length := fun member hmember =>
    List.mem_range.mpr (h.lt_of_mem hindex member hmember)
  have hlength := hnodup.length_le_of_subset hinside
  rw [List.length_range] at hlength
  omega

end Ascent

/-! ## The outcome of a climb -/

inductive Climbs (image : Image) (index : TypeIndex) :
    Except LoweringError (List TypeIndex) → Prop
  | ended {chain : List TypeIndex} (hline : image.Lineage index chain) :
      Climbs image index (.ok chain)
  | broken {visited : TypeIndex} (hvisited : image.Visits index visited)
      (hnone : image.object? visited = none) :
      Climbs image index (.error (.unresolvedType visited "not an object type"))
  | cyclic {visited : TypeIndex} (hvisited : image.Visits index visited)
      (hcycle : image.OnCycle visited) :
      Climbs image index (.error (.unresolvedType index "cyclic super type chain"))

theorem sourceObject_error {error : LoweringError} (h : sourceObject image index = .error error) :
    image.object? index = none ∧ error = .unresolvedType index "not an object type" := by
  unfold sourceObject at h
  unfold Image.object?
  split at h
  · cases h
  · rename_i hnone
    cases h
    exact ⟨hnone, rfl⟩

/-- With a budget for every type of the table that is not behind it, a climb fails
for the reasons that its way gives. -/
theorem climb_error {budget : Nat} {current : ObjectType} {error : LoweringError}
    (hbehind : Ascent image start index chain) (hobject : image.object? index = some current)
    (hbudget : chain.length + budget = image.types.length + 1)
    (h : climb image start budget current chain = .error error) :
    Climbs image start (.error error) := by
  fun_induction climb image start budget current chain generalizing index with
  | case1 => cases h
  | case2 current chain parent hsuper =>
      cases h
      obtain ⟨visited, hvisited, hcycle⟩ :=
        hbehind.exists_cycle (Image.lt_of_object hobject) (by omega)
      exact .cyclic hvisited hcycle
  | case3 current chain parent hsuper budget ih =>
      have hnext : image.Extends index parent := (Image.super?_of_object hobject).trans hsuper
      rcases error_of_bind h with hsource | ⟨next, hsource, h⟩
      · obtain ⟨hnone, rfl⟩ := sourceObject_error hsource
        exact .broken (hbehind.visits.step hnext) hnone
      · exact ih next (hbehind.step hnext) (sourceObject_ok hsource)
          (by rw [List.length_cons]; omega) h

theorem climbs_superChain (image : Image) (index : TypeIndex) :
    Climbs image index (superChain image index) := by
  cases h : superChain image index with
  | ok chain => exact .ended (superChain_ok h)
  | error error =>
      rcases error_of_bind h with hsource | ⟨object, hsource, h⟩
      · obtain ⟨hnone, rfl⟩ := sourceObject_error hsource
        exact .broken (.refl index) hnone
      · exact climb_error .start (sourceObject_ok hsource) (Nat.add_comm _ _) h

theorem Climbs.unique {result other : Except LoweringError (List TypeIndex)}
    (h : Climbs image index result) (hother : Climbs image index other) : result = other := by
  cases h with
  | ended hline =>
      cases hother with
      | ended hline' => rw [hline.unique hline']
      | broken hvisited hnone => exact absurd (hline.rooted.objects _ hvisited) (by simp [hnone])
      | cyclic hvisited hcycle => exact absurd hcycle (hline.rooted.straight.once _ hvisited)
  | @broken visited hvisited hnone =>
      have hroot := Image.super?_of_not_object hnone
      cases hother with
      | ended hline => exact absurd (hline.rooted.objects _ hvisited) (by simp [hnone])
      | broken hvisited' hnone' =>
          have hroot' := Image.super?_of_not_object hnone'
          rw [(hvisited'.leads_to_root hroot' hvisited).1.eq_of_root hroot]
      | cyclic hvisited' hcycle => exact absurd hcycle (hvisited.leads_to_root hroot hvisited').2
  | cyclic hvisited hcycle =>
      cases hother with
      | ended hline => exact absurd hcycle (hline.rooted.straight.once _ hvisited)
      | broken hvisited' hnone =>
          have hroot := Image.super?_of_not_object hnone
          exact absurd hcycle (hvisited'.leads_to_root hroot hvisited).2
      | cyclic => rfl

/-- A climb succeeds with the line of a type, or says where its way breaks off or
that it runs into a cycle. -/
theorem superChain_eq_iff {result : Except LoweringError (List TypeIndex)} :
    superChain image index = result ↔ Climbs image index result :=
  ⟨fun h => h ▸ climbs_superChain image index, (climbs_superChain image index).unique⟩

/-! ## Chains -/

/-- The way up from a type, base-most type first. -/
structure SuperChain (image : Image) (index : TypeIndex) (chain : List TypeIndex) : Prop where
  linked : chain.IsChain fun parent derived => image.Extends derived parent
  ends : chain.getLast? = some index
  begins : ∃ top, chain.head? = some top ∧ image.super? top = none
  distinct : chain.Nodup
  visited : ∀ visited, visited ∈ chain ↔ image.Visits index visited
  /-- As far as one of its entries, the chain is the chain of that entry. -/
  upper : ∀ upper entry lower, chain = upper ++ entry :: lower →
    superChain image entry = .ok (upper ++ [entry])

theorem SuperChain.of_lineage (h : image.Lineage index chain) : SuperChain image index chain where
  linked := h.linked
  ends := by
    obtain ⟨upper, rfl⟩ := h.ends
    exact List.getLast?_concat
  begins := h.begins
  distinct := h.nodup
  visited := h.mem_iff
  upper _ _ _ hchain := superChain_eq_iff.mpr (.ended (h.upper hchain))

theorem superChain_of_straight (h : image.Straight index) :
    ∃ chain, superChain image index = .ok chain := by
  have hclimbs := climbs_superChain image index
  generalize superChain image index = result at hclimbs
  cases hclimbs with
  | ended => exact ⟨_, rfl⟩
  | broken hvisited hnone => exact absurd (h.objects _ hvisited) (by simp [hnone])
  | cyclic hvisited hcycle => exact absurd hcycle (h.once _ hvisited)

theorem superChain_exact (image : Image) (index : TypeIndex) :
    ((∃ chain, superChain image index = .ok chain) ↔ image.Rooted index) ∧
      (image.Rooted index ↔ image.Straight index) ∧
      (∀ chain, superChain image index = .ok chain → SuperChain image index chain) ∧
      ∀ visited, image.Visits index visited → image.OnCycle visited →
        superChain image index = .error (.unresolvedType index "cyclic super type chain") := by
  have hrooted : (∃ chain, superChain image index = .ok chain) → image.Rooted index := by
    rintro ⟨chain, hchain⟩
    exact (superChain_ok hchain).rooted
  refine ⟨⟨hrooted, fun h => superChain_of_straight h.straight⟩,
    ⟨Image.Rooted.straight, fun h => hrooted (superChain_of_straight h)⟩, ?_, ?_⟩
  · exact fun chain hchain => .of_lineage (superChain_ok hchain)
  · exact fun visited hvisited hcycle => superChain_eq_iff.mpr (.cyclic hvisited hcycle)

def classImage (supers : List (Option TypeIndex)) : Image where
  version := 4
  types := supers.map fun super => .obj ⟨"C", super, none, [], [], []⟩

theorem superChain_exact_classes :
    superChain (classImage [some 1, some 2, none]) 0 = .ok [2, 1, 0] ∧
      SuperChain (classImage [some 1, some 2, none]) 0 [2, 1, 0] ∧
      superChain (classImage [some 1, some 2, some 3, some 1]) 0
        = .error (.unresolvedType 0 "cyclic super type chain") := by
  have hchain : superChain (classImage [some 1, some 2, none]) 0 = .ok [2, 1, 0] := rfl
  refine ⟨hchain, (superChain_exact _ 0).2.2.1 _ hchain, ?_⟩
  have hentry : (classImage [some 1, some 2, some 3, some 1]).Extends 0 1 := rfl
  have hone : (classImage [some 1, some 2, some 3, some 1]).Extends 1 2 := rfl
  have htwo : (classImage [some 1, some 2, some 3, some 1]).Extends 2 3 := rfl
  have hthree : (classImage [some 1, some 2, some 3, some 1]).Extends 3 1 := rfl
  exact (superChain_exact _ 0).2.2.2 1 ((Image.Visits.refl 0).step hentry)
    (((Relation.TransGen.single hone).tail htwo).tail hthree)

end ObjectLayout

end BytecodeLowering
