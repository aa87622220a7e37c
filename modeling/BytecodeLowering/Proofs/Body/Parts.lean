import BytecodeLowering.Proofs.Body.Operation
import BytecodeLowering.Proofs.Body.TrapRegions
import BytecodeLowering.Proofs.Target.Nesting

/-!
# Parts of lowered code

The parts in which lowered code lies.  A place in a body is compared with the
place in the source through the traps that are open there, so the account of
some code tells in which parts each of its labels is marked.  Accounts compose
because later code has later labels.
-/

namespace BytecodeLowering

namespace Flow

def trapCount (operations : List Operation) : Nat :=
  operations.countP (·.opcode = .trap)

/-- The parts around the code of the instruction at a position. -/
def nestingAt (operations : List Operation) (position : Nat) : Nesting :=
  { parts := (openAt operations position).map fun start =>
      ⟨trapCount (operations.take start), false⟩
    begun := trapCount (operations.take position) }

section Steps

variable {operations : List Operation} {position : Nat} (h : position < operations.length)

include h

theorem trapCount_succ :
    trapCount (operations.take (position + 1)) = trapCount (operations.take position)
      + if operations[position].opcode = .trap then 1 else 0 := by
  unfold trapCount
  rw [List.take_succ_eq_append_getElem h, List.countP_append, List.countP_singleton]
  simp

theorem nestingAt_trap (hopcode : operations[position].opcode = .trap) :
    (nestingAt operations position).step? .beginTry
      = some (nestingAt operations (position + 1)) := by
  simp [nestingAt, Nesting.step?, openAt_succ h, openStep_trap hopcode, trapCount_succ h, hopcode]

theorem nestingAt_endTrap (hopcode : operations[position].opcode = .endTrap) :
    nestingAt operations (position + 1)
      = { nestingAt operations position with
          parts := (nestingAt operations position).parts.tail } := by
  simp [nestingAt, openAt_succ h, openStep_endTrap hopcode, trapCount_succ h, hopcode]

theorem nestingAt_other (hopcode : operations[position].opcode ≠ .trap ∧
      operations[position].opcode ≠ .endTrap) :
    nestingAt operations (position + 1) = nestingAt operations position := by
  simp [nestingAt, openAt_succ h, openStep_other hopcode, trapCount_succ h, hopcode.1]

end Steps

end Flow

open BytecodeLowering.Flow (nestingAt)

/-! ## Code that bounds no part -/

/-- An instruction of some code that bounds no part and does not return.  The
code marks its own labels, from `first` to before `next`; its other branches
go to labels that stay in the part. -/
def Instr.Confined (stays : Label → Prop) (first next : Nat) (code : List Instr) : Instr → Prop
  | .ret | .beginTry | .beginCatch _ | .endTry => False
  | .markLabel label => first ≤ label ∧ label < next
  | .leave _ => True
  | instr => ∀ label ∈ instr.targets,
      stays label ∨ (first ≤ label ∧ label < next) ∧ .markLabel label ∈ code

section Confined

variable {stays : Label → Prop} {first next low high : Nat} {code whole : List Instr}
  {instr : Instr}

theorem Instr.Confined.mono (h : instr.Confined stays first next code) (hlow : low ≤ first)
    (hhigh : next ≤ high) (hmarks : ∀ label, .markLabel label ∈ code → .markLabel label ∈ whole) :
    instr.Confined stays low high whole := by
  have hrange {label : Nat} (hlabel : first ≤ label ∧ label < next) :
      low ≤ label ∧ label < high :=
    ⟨Nat.le_trans hlow hlabel.1, Nat.lt_of_lt_of_le hlabel.2 hhigh⟩
  have htargets (hbranch : ∀ label ∈ instr.targets,
      stays label ∨ (first ≤ label ∧ label < next) ∧ .markLabel label ∈ code) :
      ∀ label ∈ instr.targets,
        stays label ∨ (low ≤ label ∧ label < high) ∧ .markLabel label ∈ whole :=
    fun label hlabel => (hbranch label hlabel).imp_right fun hown =>
      ⟨hrange hown.1, hmarks label hown.2⟩
  cases instr <;> first | exact htargets h | exact hrange h | exact h

theorem Instr.confined_of_isPlain (h : instr.isPlain = true) :
    instr.Confined stays first next code := by
  cases instr <;> simp [Instr.isPlain] at h <;> simp [Instr.Confined, Instr.targets]

theorem Instr.Confined.flat (h : instr.Confined stays first next code) :
    instr.boundsPart = false ∧ instr.endsPart = false := by
  cases instr <;> first | exact ⟨rfl, rfl⟩ | exact h.elim

theorem Fragment.confined {typed : Prop} {module : TargetModule} {depth depth' : Nat}
    (h : Fragment typed module first depth code depth' next) :
    ∀ instr ∈ code, instr.Confined stays first next code := by
  induction h with
  | nil => nofun
  | plain hplain _ =>
      intro instr hinstr
      rw [List.mem_singleton.mp hinstr]
      exact Instr.confined_of_isPlain hplain
  | append hcode hmore ihcode ihmore =>
      intro instr hinstr
      rcases List.mem_append.mp hinstr with hinstr | hinstr
      · exact (ihcode instr hinstr).mono (Nat.le_refl _) hmore.first_le
          fun _ hlabel => List.mem_append_left _ hlabel
      · exact (ihmore instr hinstr).mono hcode.first_le (Nat.le_refl _)
          fun _ hlabel => List.mem_append_right _ hlabel
  | @nullTest first last depth inner _ hcode ih =>
      have hlast := hcode.first_le
      have hfirst : first < last := by omega
      have hsecond : first + 1 < last := by omega
      have hinner : ∀ instr ∈ inner, instr.Confined stays first last
          ([Instr.dup, .brFalse first] ++ inner
            ++ [Instr.br (first + 1), .markLabel first, .pop, .ldNull,
              .markLabel (first + 1)]) := by
        intro instr hinstr
        exact (ih instr hinstr).mono (by omega) (Nat.le_refl _) fun _ hlabel => by simp [hlabel]
      simp only [List.forall_mem_append]
      refine ⟨⟨?_, hinner⟩, ?_⟩ <;> simp [Instr.Confined, Instr.targets, hfirst, hsecond]

theorem Fragment.mark_range {typed : Prop} {module : TargetModule} {depth depth' : Nat}
    (h : Fragment typed module first depth code depth' next) {label : Label}
    (hmark : .markLabel label ∈ code) : first ≤ label ∧ label < next := by
  have hconfined : Instr.Confined (fun _ => False) first next code (.markLabel label) :=
    h.confined _ hmark
  exact hconfined

theorem confined_check {typed : Prop} {module : TargetModule} {load make : List Instr}
    {middle d₁ d₂ d₃ d₄ : Nat} (hload : Fragment typed module (first + 1) d₁ load d₂ middle)
    (hmake : Fragment typed module middle d₃ make d₄ next) :
    ∀ instr ∈ load ++ [Instr.brTrue first] ++ make ++ [Instr.throw, .markLabel first],
      instr.Confined stays first next
        (load ++ [Instr.brTrue first] ++ make ++ [Instr.throw, .markLabel first]) := by
  have hlow := hload.first_le
  have hhigh := hmake.first_le
  have hfirst : first < next := by omega
  simp only [List.forall_mem_append]
  refine ⟨⟨⟨?_, ?_⟩, ?_⟩, ?_⟩
  · intro instr hinstr
    exact (hload.confined instr hinstr).mono (by omega) hhigh fun _ hlabel => by simp [hlabel]
  · simp [Instr.Confined, Instr.targets, hfirst]
  · intro instr hinstr
    exact (hmake.confined instr hinstr).mono (by omega) (Nat.le_refl _)
      fun _ hlabel => by simp [hlabel]
  · simp [Instr.Confined, Instr.targets, hfirst]

theorem confined_tableOut {labels : List Label} {exits : List (Label × Label)} {skip : Nat}
    (hlabels : ∀ label ∈ labels, stays label ∨ label ∈ exits.map Prod.fst)
    (hfirst : first ≤ skip) (hexits : ∀ exit ∈ exits, first ≤ exit.1 ∧ exit.1 < skip) :
    ∀ instr ∈ [Instr.switch labels, .br skip] ++ exitsCode exits ++ [Instr.markLabel skip],
      instr.Confined stays first (skip + 1)
        ([Instr.switch labels, .br skip] ++ exitsCode exits ++ [Instr.markLabel skip]) := by
  have hrange : ∀ label ∈ exits.map Prod.fst, first ≤ label ∧ label < skip + 1 := by
    intro label hlabel
    obtain ⟨exit, hexit, rfl⟩ := List.mem_map.mp hlabel
    exact ⟨(hexits exit hexit).1, Nat.lt_succ_of_lt (hexits exit hexit).2⟩
  have hmarked : ∀ label ∈ exits.map Prod.fst, .markLabel label ∈ exitsCode exits := by
    intro label hlabel
    obtain ⟨exit, hexit, rfl⟩ := List.mem_map.mp hlabel
    exact List.mem_flatMap.mpr ⟨exit, hexit, List.mem_cons_self⟩
  simp only [List.forall_mem_append]
  refine ⟨⟨?_, ?_⟩, ?_⟩
  · intro instr hinstr
    rcases List.mem_cons.mp hinstr with rfl | hinstr
    · intro label hlabel
      refine (hlabels label hlabel).imp_right fun hexit => ?_
      exact ⟨hrange label hexit, by simp [hmarked label hexit]⟩
    · rw [List.mem_singleton.mp hinstr]
      simp [Instr.Confined, Instr.targets, hfirst]
  · intro instr hinstr
    obtain ⟨exit, hexit, hinstr⟩ := List.mem_flatMap.mp hinstr
    simp only [List.mem_cons, List.not_mem_nil, or_false] at hinstr
    rcases hinstr with rfl | rfl
    · exact hrange exit.1 (List.mem_map_of_mem hexit)
    · trivial
  · simp [Instr.Confined, hfirst]

end Confined

/-! ## The account of some code -/

/-- A part is ended only behind a leave instruction. -/
def Sealed (code : List Instr) : Prop :=
  ∀ before instr after, code = before ++ instr :: after → instr.endsPart = true →
    ∃ label, before.getLast? = some (.leave label)

theorem Sealed.append {code more : List Instr} (h : Sealed code) (hmore : Sealed more) :
    Sealed (code ++ more) := by
  intro before instr after heq hends
  rcases List.append_eq_append_iff.mp heq with ⟨gap, rfl, hgap⟩ | ⟨gap, rfl, hgap⟩
  · obtain ⟨label, hlabel⟩ := hmore gap instr after hgap hends
    exact ⟨label, by rw [List.getLast?_append, hlabel]; rfl⟩
  · cases gap with
    | nil =>
        obtain ⟨label, hlabel⟩ := hmore [] instr after hgap.symm hends
        cases hlabel
    | cons first gap =>
        obtain ⟨rfl, -⟩ := List.cons.inj hgap
        exact h before instr gap rfl hends

theorem sealed_of_open {code : List Instr} (h : ∀ instr ∈ code, instr.endsPart = false) :
    Sealed code := by
  intro before instr after heq hends
  have hopen := h instr (by simp [heq])
  rw [hends] at hopen
  cases hopen

theorem sealed_leave (label : Label) (instr : Instr) : Sealed [.leave label, instr] := by
  intro before found after heq hends
  cases before with
  | nil =>
      obtain ⟨rfl, -⟩ := List.cons.inj heq
      cases hends
  | cons first before =>
      obtain ⟨rfl, heq⟩ := List.cons.inj heq
      cases before with
      | nil => exact ⟨label, rfl⟩
      | cons second before => simp at heq

/-- Some code between two nestings, with the own labels from `first` to before
`next`.  The labels of source instructions come before all own labels. -/
structure Block (operations : List Operation) (first : Nat) (nesting : Nesting)
    (code : List Instr) (nesting' : Nesting) (next : Nat) : Prop where
  labels : first ≤ next
  nested : nesting.run? code = some nesting'
  closed : Sealed code
  ret : ∀ parts, (.ret, parts) ∈ nesting.places code → parts = []
  mark : ∀ (label : Nat) inner, (.markLabel label, inner) ∈ nesting.places code →
    label < operations.length ∧ inner = (nestingAt operations label).parts ∨
      first ≤ label ∧ label < next
  branch : ∀ instr part outer, (instr, part :: outer) ∈ nesting.places code →
    instr.isLeave = false → ∀ label ∈ instr.targets,
      label < operations.length ∧ part ∈ (nestingAt operations label).parts ∨
        (first ≤ label ∧ label < next) ∧ .markLabel label ∈ code ∧
          ∀ inner, (.markLabel label, inner) ∈ nesting.places code → part ∈ inner

namespace Block

variable {operations : List Operation} {first middle next : Nat}
  {nesting between nesting' : Nesting} {code more : List Instr}

theorem append (h : Block operations first nesting code between middle)
    (hmore : Block operations middle between more nesting' next)
    (hfirst : operations.length ≤ first) :
    Block operations first nesting (code ++ more) nesting' next := by
  have hcode := h.labels
  have hnext := hmore.labels
  have hplaces : nesting.places (code ++ more) = nesting.places code ++ between.places more :=
    Nesting.places_append h.nested
  refine ⟨Nat.le_trans hcode hnext, ?_, h.closed.append hmore.closed, ?_, ?_, ?_⟩
  · rw [Nesting.run?_append h.nested, hmore.nested]
  · intro parts hret
    rw [hplaces, List.mem_append] at hret
    exact hret.elim (h.ret parts) (hmore.ret parts)
  · intro label inner hmark
    rw [hplaces, List.mem_append] at hmark
    rcases hmark with hmark | hmark
    · exact (h.mark label inner hmark).imp_right fun hown => ⟨hown.1, by omega⟩
    · exact (hmore.mark label inner hmark).imp_right fun hown => ⟨by omega, hown.2⟩
  · intro instr part outer hbranch hleave label hlabel
    rw [hplaces] at hbranch ⊢
    -- a label of one side is not marked on the other, since the ranges are disjoint
    rcases List.mem_append.mp hbranch with hbranch | hbranch
    · refine (h.branch instr part outer hbranch hleave label hlabel).imp_right ?_
      rintro ⟨⟨hlow, hhigh⟩, hmarked, hinner⟩
      refine ⟨⟨hlow, Nat.lt_of_lt_of_le hhigh hnext⟩, List.mem_append_left _ hmarked, ?_⟩
      intro inner hmark
      rcases List.mem_append.mp hmark with hmark | hmark
      · exact hinner inner hmark
      · rcases hmore.mark label inner hmark with hsource | hown
        · exact absurd (Nat.le_trans hfirst hlow) (Nat.not_le_of_lt hsource.1)
        · exact absurd hhigh (Nat.not_lt_of_le hown.1)
    · refine (hmore.branch instr part outer hbranch hleave label hlabel).imp_right ?_
      rintro ⟨⟨hlow, hhigh⟩, hmarked, hinner⟩
      refine ⟨⟨Nat.le_trans hcode hlow, hhigh⟩, List.mem_append_right _ hmarked, ?_⟩
      intro inner hmark
      rcases List.mem_append.mp hmark with hmark | hmark
      · rcases h.mark label inner hmark with hsource | hown
        · exact absurd (Nat.le_trans hfirst (Nat.le_trans hcode hlow))
            (Nat.not_le_of_lt hsource.1)
        · exact absurd hlow (Nat.not_le_of_lt hown.2)
      · exact hinner inner hmark

theorem weaken (h : Block operations (first + 1) nesting code nesting' next) :
    Block operations first nesting code nesting' next := by
  have hlabels := h.labels
  refine ⟨by omega, h.nested, h.closed, h.ret, ?_, ?_⟩
  · intro label inner hmark
    exact (h.mark label inner hmark).imp_right fun hown => ⟨by omega, hown.2⟩
  · intro instr part outer hbranch hleave label hlabel
    exact (h.branch instr part outer hbranch hleave label hlabel).imp_right fun hown =>
      ⟨⟨Nat.le_of_succ_le hown.1.1, hown.1.2⟩, hown.2⟩

def Keeps (operations : List Operation) (nesting : Nesting) (label : Nat) : Prop :=
  label < operations.length ∧
    ∀ part ∈ nesting.parts.head?, part ∈ (nestingAt operations label).parts

theorem of_confined (hlabels : first ≤ next)
    (h : ∀ instr ∈ code, instr.Confined (Keeps operations nesting) first next code) :
    Block operations first nesting code nesting next := by
  have hflat : ∀ instr ∈ code, instr.boundsPart = false := fun instr hinstr =>
    (h instr hinstr).flat.1
  have hplaces {instr : Instr} {parts : List Part} (hmem : (instr, parts) ∈ nesting.places code) :
      instr ∈ code ∧ nesting.parts = parts := by
    rw [Nesting.places_of_flat hflat] at hmem
    obtain ⟨_, hinstr, heq⟩ := List.mem_map.mp hmem
    cases heq
    exact ⟨hinstr, rfl⟩
  have hopen : ∀ instr ∈ code, instr.endsPart = false := fun instr hinstr =>
    (h instr hinstr).flat.2
  refine ⟨hlabels, Nesting.run?_of_flat hflat, sealed_of_open hopen, ?_, ?_, ?_⟩
  · intro parts hret
    exact (h .ret (hplaces hret).1).elim
  · intro label inner hmark
    exact Or.inr (h _ (hplaces hmark).1)
  · intro instr part outer hbranch hleave label hlabel
    obtain ⟨hinstr, hparts⟩ := hplaces hbranch
    have hconfined := h instr hinstr
    have htarget : Keeps operations nesting label ∨
        (first ≤ label ∧ label < next) ∧ .markLabel label ∈ code := by
      cases instr <;>
        first
        | exact hconfined label hlabel
        | exact absurd hlabel List.not_mem_nil
        | exact Bool.noConfusion hleave
    rcases htarget with hkeeps | ⟨hown, hmarked⟩
    · exact Or.inl ⟨hkeeps.1, hkeeps.2 part (by simp [hparts])⟩
    · refine Or.inr ⟨hown, hmarked, ?_⟩
      intro inner hmark
      obtain ⟨-, rfl⟩ := hplaces hmark
      simp [hparts]

theorem of_fragment {typed : Prop} {module : TargetModule} {depth depth' : Nat}
    (h : Fragment typed module first depth code depth' next) :
    Block operations first nesting code nesting next :=
  of_confined h.first_le h.confined

theorem of_fragment_append {typed : Prop} {module : TargetModule} {depth depth' : Nat}
    (hcode : Fragment typed module first depth code depth' middle) (hnext : middle ≤ next)
    (hmore : ∀ instr ∈ more, instr.Confined (Keeps operations nesting) middle next more)
    (hfirst : operations.length ≤ first) :
    Block operations first nesting (code ++ more) nesting next :=
  (of_fragment hcode).append (of_confined hnext hmore) hfirst

theorem of_bounds (hrun : nesting.run? code = some nesting') (hclosed : Sealed code)
    (h : ∀ instr ∈ code, instr.isLeave = true ∨ instr.boundsPart = true) :
    Block operations first nesting code nesting' first := by
  refine ⟨Nat.le_refl _, hrun, hclosed, ?_, ?_, ?_⟩
  · intro parts hret
    simpa [Instr.isLeave, Instr.boundsPart] using h _ (Nesting.mem_of_mem_places hret)
  · intro label inner hmark
    simpa [Instr.isLeave, Instr.boundsPart] using h _ (Nesting.mem_of_mem_places hmark)
  · intro instr part outer hbranch hleave label hlabel
    have hbounds := (h instr (Nesting.mem_of_mem_places hbranch)).resolve_left (by simp [hleave])
    cases instr <;>
      first
      | exact absurd hlabel List.not_mem_nil
      | exact Bool.noConfusion hbounds

theorem of_ret (h : nesting.parts = []) :
    Block operations first nesting [.ret] nesting first := by
  refine ⟨Nat.le_refl _, rfl, sealed_of_open (by simp [Instr.endsPart]), ?_, ?_, ?_⟩ <;>
    simp [Nesting.places, Nesting.step?, h]

theorem of_source {position : Nat} (h : position < operations.length) :
    Block operations first (nestingAt operations position) [.markLabel position]
      (nestingAt operations position) first := by
  refine ⟨Nat.le_refl _, rfl, sealed_of_open (by simp [Instr.endsPart]), ?_, ?_, ?_⟩
  · simp [Nesting.places, Nesting.step?]
  · simp [Nesting.places, Nesting.step?, h]
  · intro instr part outer hbranch _ label hlabel
    obtain ⟨rfl, -⟩ := Prod.mk.inj (List.mem_singleton.mp hbranch)
    cases hlabel

theorem mark_range (h : Block operations first nesting code nesting' next) {label : Nat}
    (hmark : .markLabel label ∈ code) :
    label < operations.length ∨ first ≤ label ∧ label < next := by
  obtain ⟨inner, hinner⟩ := Nesting.exists_place h.nested hmark
  exact (h.mark label inner hinner).imp_left And.left

theorem mark_later (h : Block operations first nesting code nesting' next)
    {label : Nat} (hlabel : first ≤ label ∧ label < next) (hfresh : .markLabel label ∉ code) :
    Block operations first nesting (code ++ [Instr.markLabel label]) nesting' next := by
  have hplaces : nesting.places (code ++ [Instr.markLabel label])
      = nesting.places code ++ [(.markLabel label, nesting'.parts)] :=
    Nesting.places_append h.nested
  refine ⟨h.labels, ?_, h.closed.append (sealed_of_open (by simp [Instr.endsPart])), ?_, ?_, ?_⟩
  · rw [Nesting.run?_append h.nested]
    rfl
  · intro parts hret
    refine h.ret parts ?_
    simpa [hplaces] using hret
  · intro other inner hmark
    rw [hplaces, List.mem_append, List.mem_singleton] at hmark
    rcases hmark with hmark | hmark
    · exact h.mark other inner hmark
    · cases hmark
      exact Or.inr hlabel
  · intro instr part outer hbranch hleave target htarget
    rw [hplaces] at hbranch ⊢
    rcases List.mem_append.mp hbranch with hbranch | hbranch
    · refine (h.branch instr part outer hbranch hleave target htarget).imp_right ?_
      rintro ⟨hown, hmarked, hinner⟩
      refine ⟨hown, List.mem_append_left _ hmarked, ?_⟩
      intro inner hmark
      rw [List.mem_append, List.mem_singleton] at hmark
      rcases hmark with hmark | hmark
      · exact hinner inner hmark
      · cases hmark
        exact absurd hmarked hfresh
    · obtain ⟨rfl, -⟩ := Prod.mk.inj (List.mem_singleton.mp hbranch)
      cases htarget

end Block

end BytecodeLowering
