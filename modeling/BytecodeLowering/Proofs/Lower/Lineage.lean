import BytecodeLowering.Proofs.Lower.Steps
import BytecodeLowering.Lower.ObjectLayout

/-!
# Lines of super types

The chain that is climbed for a type is the line of the type, base-most type
first; a type has one line, stands in it once, and the lines of its super types
begin it.
-/

namespace BytecodeLowering

def Image.object? (image : Image) (index : TypeIndex) : Option ObjectType :=
  (image.type? index).bind SourceType.object?

/-- A type with its super types, base-most first. -/
inductive Image.Lineage (image : Image) : TypeIndex → List TypeIndex → Prop
  | root {index : TypeIndex} {object : ObjectType} (hobject : image.object? index = some object)
      (hsuper : object.super = none) : Lineage image index [index]
  | derived {index parent : TypeIndex} {object : ObjectType} {chain : List TypeIndex}
      (hobject : image.object? index = some object) (hsuper : object.super = some parent)
      (hparent : Lineage image parent chain) : Lineage image index (chain ++ [index])

namespace Image.Lineage

variable {image : Image} {index : TypeIndex} {chain other : List TypeIndex}

theorem object (h : image.Lineage index chain) : ∃ object, image.object? index = some object := by
  cases h with
  | root hobject => exact ⟨_, hobject⟩
  | derived hobject => exact ⟨_, hobject⟩

theorem unique (h : image.Lineage index chain) (hother : image.Lineage index other) :
    chain = other := by
  induction h generalizing other with
  | root hobject hsuper =>
      cases hother with
      | root => rfl
      | derived hobject' hsuper' _ =>
          cases hobject.symm.trans hobject'
          cases hsuper.symm.trans hsuper'
  | derived hobject hsuper _ ih =>
      cases hother with
      | root hobject' hsuper' =>
          cases hobject.symm.trans hobject'
          cases hsuper.symm.trans hsuper'
      | derived hobject' hsuper' hparent' =>
          cases hobject.symm.trans hobject'
          cases hsuper.symm.trans hsuper'
          rw [ih hparent']

theorem above (h : image.Lineage index chain) {parent : TypeIndex} (hparent : parent ∈ chain) :
    ∃ upper, image.Lineage parent upper ∧ upper <+: chain := by
  induction h with
  | root hobject hsuper =>
      obtain rfl := List.mem_singleton.mp hparent
      exact ⟨_, .root hobject hsuper, List.prefix_rfl⟩
  | derived hobject hsuper hnext ih =>
      rcases List.mem_append.mp hparent with hupper | hself
      · obtain ⟨upper, hline, hbegins⟩ := ih hupper
        exact ⟨upper, hline, hbegins.trans (List.prefix_append _ _)⟩
      · obtain rfl := List.mem_singleton.mp hself
        exact ⟨_, .derived hobject hsuper hnext, List.prefix_rfl⟩

theorem object_of_mem (h : image.Lineage index chain) {owner : TypeIndex} (howner : owner ∈ chain) :
    (image.object? owner).isSome := by
  obtain ⟨upper, hline, -⟩ := h.above howner
  obtain ⟨object, hobject⟩ := hline.object
  rw [hobject, Option.isSome_some]

/-- No type is its own super type: it would begin its own line. -/
theorem not_mem {parent : TypeIndex} (hparent : image.Lineage parent chain)
    (h : image.Lineage index (chain ++ [index])) : index ∉ chain := by
  intro hmem
  obtain ⟨upper, hline, hbegins⟩ := hparent.above hmem
  have hlength := hbegins.length_le
  rw [hline.unique h, List.length_append, List.length_singleton] at hlength
  omega

end Image.Lineage

namespace ObjectLayout

variable {image : Image} {index : TypeIndex}

theorem sourceObject_ok {object : ObjectType} (h : sourceObject image index = .ok object) :
    image.object? index = some object := by
  unfold sourceObject at h
  unfold Image.object?
  split at h
  · rename_i hfound
    cases h
    exact hfound
  · cases h

theorem climb_ok {start : TypeIndex} {budget : Nat} {current : ObjectType}
    {lower chain : List TypeIndex} (h : climb image start budget current lower = .ok chain) :
    (current.super = none ∧ chain = lower) ∨ ∃ parent upper, current.super = some parent ∧
      image.Lineage parent upper ∧ chain = upper ++ lower := by
  fun_induction climb image start budget current lower with
  | case1 budget current lower hsuper =>
      cases h
      exact Or.inl ⟨hsuper, rfl⟩
  | case2 current lower parent hsuper => cases h
  | case3 current lower parent hsuper budget ih =>
      obtain ⟨next, hnext, h⟩ := ok_of_bind h
      have hobject := sourceObject_ok hnext
      rcases ih next h with ⟨hroot, rfl⟩ | ⟨above, upper, habove, hline, rfl⟩
      · exact Or.inr ⟨parent, [parent], hsuper, .root hobject hroot, rfl⟩
      · exact Or.inr ⟨parent, upper ++ [parent], hsuper, .derived hobject habove hline,
          List.append_cons _ _ _⟩

theorem superChain_ok {chain : List TypeIndex} (h : superChain image index = .ok chain) :
    image.Lineage index chain := by
  obtain ⟨object, hobject, h⟩ := ok_of_bind h
  replace hobject := sourceObject_ok hobject
  rcases climb_ok h with ⟨hroot, rfl⟩ | ⟨parent, upper, hparent, hline, rfl⟩
  · exact .root hobject hroot
  · exact .derived hobject hparent hline

end ObjectLayout

end BytecodeLowering
