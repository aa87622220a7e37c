import BytecodeLowering.Image.Basic
import Mathlib.Data.Finset.Sort

/-!
# Byte blobs

The blobs of an image lie in one block of bytes and are told by their starts, which
may come in any order and more than once.  A blob ends where the next one starts, so
blobs with different starts are apart, and in the order of their starts they make up
the block from the first start on.
-/

namespace BytecodeLowering.Image

variable {image : Image}

/-! ## Where a blob ends -/

/-- A blob ends at the least larger start, or with the block if there is none. -/
def BlobEnds (image : Image) (start stop : Nat) : Prop :=
  IsLeast {other | other ∈ image.blobStarts ∧ start < other} stop ∨
    (∀ other ∈ image.blobStarts, other ≤ start) ∧ stop = image.bytes.length

theorem blobEnds_blobEnd (image : Image) (start : Nat) :
    image.BlobEnds start (image.blobEnd start) := by
  unfold blobEnd
  cases hleast : (image.blobStarts.filter (start < ·)).min? with
  | none =>
      have hnone : ∀ other ∈ image.blobStarts, other ≤ start := by
        simpa using List.min?_eq_none_iff.mp hleast
      exact .inr ⟨hnone, rfl⟩
  | some stop =>
      obtain ⟨hmem, hle⟩ := List.min?_eq_some_iff.mp hleast
      refine .inl ⟨by simpa using hmem, ?_⟩
      exact fun other hother => hle other (by simpa using hother)

theorem BlobEnds.unique {start stop other : Nat} (h : image.BlobEnds start stop)
    (hother : image.BlobEnds start other) : stop = other := by
  rcases h with hleast | ⟨hnone, rfl⟩ <;> rcases hother with hleast' | ⟨hnone', rfl⟩
  · exact hleast.unique hleast'
  · exact absurd (hnone' stop hleast.1.1) (Nat.not_le_of_lt hleast.1.2)
  · exact absurd (hnone other hleast'.1.1) (Nat.not_le_of_lt hleast'.1.2)
  · rfl

theorem BlobEnds.le_of_lt {start stop next : Nat} (h : image.BlobEnds start stop)
    (hnext : next ∈ image.blobStarts) (hlt : start < next) : stop ≤ next := by
  rcases h with hleast | ⟨hnone, -⟩
  · exact hleast.2 ⟨hnext, hlt⟩
  · exact absurd (hnone next hnext) (Nat.not_le_of_lt hlt)

/-- Blobs that follow one another make up the rest of the block. -/
theorem flatMap_blobs {first : Nat} {rest : List Nat} (hsorted : (first :: rest).Pairwise (· < ·))
    (hfirst : first ∈ image.blobStarts) (hrest : ∀ other ∈ rest, other ∈ image.blobStarts)
    (hall : ∀ other ∈ image.blobStarts, first < other → other ∈ rest) :
    (first :: rest).flatMap (fun start => image.bytes.extract start (image.blobEnd start))
      = image.bytes.drop first := by
  induction rest generalizing first with
  | nil =>
      have hend : image.blobEnd first = image.bytes.length :=
        (image.blobEnds_blobEnd first).unique (.inr ⟨fun other hother =>
          Nat.le_of_not_lt fun hlt => List.not_mem_nil (hall other hother hlt), rfl⟩)
      rw [List.flatMap_singleton, hend, List.extract_eq_take_drop, List.take_of_length_le]
      exact Nat.le_of_eq List.length_drop
  | cons second rest ih =>
      obtain ⟨hless, hsorted⟩ := List.pairwise_cons.mp hsorted
      have hbehind := (List.pairwise_cons.mp hsorted).1
      obtain ⟨hsecond, hrest⟩ := List.forall_mem_cons.mp hrest
      have hlt := hless second List.mem_cons_self
      have hend : image.blobEnd first = second := by
        refine (image.blobEnds_blobEnd first).unique (.inl ⟨⟨hsecond, hlt⟩, ?_⟩)
        rintro other ⟨hother, hlater⟩
        rcases List.mem_cons.mp (hall other hother hlater) with rfl | hmem
        · exact Nat.le_refl _
        · exact Nat.le_of_lt (hbehind other hmem)
      have hothers := ih hsorted hsecond hrest fun other hother hlater =>
        (List.mem_cons.mp (hall other hother (Nat.lt_trans hlt hlater))).resolve_left
          (Nat.ne_of_gt hlater)
      rw [List.flatMap_cons, hothers, hend, List.extract_eq_take_drop]
      have hdrop : image.bytes.drop second = (image.bytes.drop first).drop (second - first) := by
        rw [List.drop_drop, Nat.add_sub_cancel' (Nat.le_of_lt hlt)]
      rw [hdrop, List.take_append_drop]

section Starts

variable (hstarts : ∀ start ∈ image.blobStarts, start ≤ image.bytes.length)

include hstarts

theorem BlobEnds.bounds {start stop : Nat} (h : image.BlobEnds start stop)
    (hstart : start ∈ image.blobStarts) : start ≤ stop ∧ stop ≤ image.bytes.length := by
  rcases h with hleast | ⟨-, rfl⟩
  · exact ⟨Nat.le_of_lt hleast.1.2, hstarts stop hleast.1.1⟩
  · exact ⟨hstarts start hstart, Nat.le_refl _⟩

theorem blob?_eq {index start : Nat} (hindex : image.blobStarts[index]? = some start) :
    image.blob? index = some (image.bytes.extract start (image.blobEnd start)) := by
  have hbounds := (image.blobEnds_blobEnd start).bounds hstarts (List.mem_of_getElem? hindex)
  simp only [blob?, hindex, Option.bind_eq_bind, Option.bind_some, if_pos hbounds,
    List.extract_eq_take_drop]

theorem blob?_isSome_iff (index : Nat) :
    (image.blob? index).isSome ↔ index < image.blobStarts.length := by
  cases hindex : image.blobStarts[index]? with
  | none =>
      have hbeyond := List.getElem?_eq_none_iff.mp hindex
      simp [blob?, hbeyond]
  | some start =>
      have hbound := (List.getElem?_eq_some_iff.mp hindex).1
      simp [blob?_eq hstarts hindex, hbound]

end Starts

/-! ## The partition of the block -/

def orderedStarts (image : Image) : List Nat := image.blobStarts.toFinset.sort (· ≤ ·)

theorem mem_orderedStarts {start : Nat} :
    start ∈ image.orderedStarts ↔ start ∈ image.blobStarts := by
  rw [orderedStarts, Finset.mem_sort, List.mem_toFinset]

theorem orderedStarts_sorted (image : Image) : image.orderedStarts.Pairwise (· < ·) :=
  image.blobStarts.toFinset.sortedLT_sort.pairwise

/-- The blobs cut the block of bytes. -/
structure BlobPartition (image : Image) : Prop where
  found : ∀ index, (image.blob? index).isSome ↔ index < image.blobStarts.length
  slice : ∀ index start, image.blobStarts[index]? = some start →
    ∃ stop, image.BlobEnds start stop ∧ start ≤ stop ∧ stop ≤ image.bytes.length ∧
      image.blob? index = some (image.bytes.extract start stop)
  shared : ∀ index other start, image.blobStarts[index]? = some start →
    image.blobStarts[other]? = some start → image.blob? index = image.blob? other
  /-- Of two blobs with different starts, one ends where the other one starts or before. -/
  apart : ∀ start ∈ image.blobStarts, ∀ other ∈ image.blobStarts, start ≠ other →
    ∀ stop stop', image.BlobEnds start stop → image.BlobEnds other stop' →
      stop ≤ other ∨ stop' ≤ start
  /-- In the order of the starts, the blobs are the block from the least start on. -/
  covers : ∀ least, image.blobStarts.min? = some least → ∃ blobs,
    List.Forall₂ (fun start blob => ∀ index, image.blobStarts[index]? = some start →
      image.blob? index = some blob) image.orderedStarts blobs ∧
    blobs.flatten = image.bytes.drop least

theorem blobPartition_of_starts (image : Image)
    (h : ∀ start ∈ image.blobStarts, start ≤ image.bytes.length) : image.BlobPartition := by
  refine ⟨blob?_isSome_iff h, ?_, ?_, ?_, ?_⟩
  · intro index start hindex
    have hends := image.blobEnds_blobEnd start
    obtain ⟨hle, hbound⟩ := hends.bounds h (List.mem_of_getElem? hindex)
    exact ⟨_, hends, hle, hbound, blob?_eq h hindex⟩
  · intro index other start hindex hother
    rw [blob?_eq h hindex, blob?_eq h hother]
  · intro start hstart other hother hne stop stop' hstop hstop'
    rcases Nat.lt_or_gt_of_ne hne with hlt | hgt
    · exact .inl (hstop.le_of_lt hother hlt)
    · exact .inr (hstop'.le_of_lt hstart hgt)
  · intro least hleast
    obtain ⟨hmem, hle⟩ := List.min?_eq_some_iff.mp hleast
    refine ⟨image.orderedStarts.map fun start => image.bytes.extract start (image.blobEnd start),
      ?_, ?_⟩
    · rw [List.forall₂_map_right_iff, List.forall₂_same]
      exact fun start _ index hindex => blob?_eq h hindex
    · have hsorted := image.orderedStarts_sorted
      have hstarts (start : Nat) := @mem_orderedStarts image start
      rw [← List.flatMap_def]
      cases hordered : image.orderedStarts with
      | nil =>
          rw [hordered] at hstarts
          exact absurd ((hstarts least).mpr hmem) List.not_mem_nil
      | cons first rest =>
          rw [hordered] at hsorted hstarts
          have hfirst := (hstarts first).mp List.mem_cons_self
          obtain rfl : least = first := by
            rcases List.mem_cons.mp ((hstarts least).mpr hmem) with hsame | hrest
            · exact hsame
            · exact Nat.le_antisymm (hle first hfirst)
                (Nat.le_of_lt ((List.pairwise_cons.mp hsorted).1 least hrest))
          refine flatMap_blobs hsorted hfirst
            (fun other hother => (hstarts other).mp (List.mem_cons_of_mem _ hother)) ?_
          intro other hother hlt
          exact (List.mem_cons.mp ((hstarts other).mpr hother)).resolve_left (Nat.ne_of_gt hlt)

def scatteredBlobs : Image where
  version := 5
  bytes := [10, 11, 12, 13, 14, 15]
  blobStarts := [4, 1, 6, 4, 2]

theorem blobPartition_of_starts_scattered :
    (∀ start ∈ scatteredBlobs.blobStarts, start ≤ scatteredBlobs.bytes.length) ∧
      scatteredBlobs.BlobPartition ∧
      (List.range 6).map scatteredBlobs.blob?
        = [some [14, 15], some [11], some [], some [14, 15], some [12, 13], none] :=
  ⟨by decide, blobPartition_of_starts scatteredBlobs (by decide), by decide⟩

end BytecodeLowering.Image
