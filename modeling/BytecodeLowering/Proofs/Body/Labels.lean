import BytecodeLowering.Proofs.Body.Operation

/-!
# Labels of one instruction

The code marks its own labels, each at most once, and its branches go to labels
that it marks, to positions to which the instruction leads, to the shared exit,
or to the handler of the trap that it ends.
-/

namespace BytecodeLowering

/-! ## Marked labels -/

def Instr.marked? : Instr → Option Label
  | .markLabel label => some label
  | _ => none

theorem Instr.marked?_eq_some {instr : Instr} {label : Label} :
    instr.marked? = some label ↔ instr = .markLabel label := by
  cases instr <;> simp [Instr.marked?]

theorem Instr.unlabelled_of_isPlain {instr : Instr} (h : instr.isPlain = true) :
    instr.marked? = none ∧ instr.targets = [] := by
  cases instr <;> first | exact ⟨rfl, rfl⟩ | cases h

def marks (code : List Instr) : List Label := code.filterMap Instr.marked?

@[simp]
theorem marks_append (code more : List Instr) : marks (code ++ more) = marks code ++ marks more :=
  List.filterMap_append

@[simp]
theorem mem_marks {code : List Instr} {label : Label} :
    label ∈ marks code ↔ .markLabel label ∈ code := by
  simp [marks, Instr.marked?_eq_some]

theorem count_markLabel {code : List Instr} {label : Label} (honce : (marks code).Nodup)
    (h : .markLabel label ∈ code) : code.count (.markLabel label) = 1 := by
  have hcount : code.count (.markLabel label) = (marks code).count label := by
    rw [marks, List.count_filterMap, List.count]
    congr 1
    funext instr
    rw [Bool.eq_iff_iff, beq_iff_eq, beq_iff_eq, Instr.marked?_eq_some]
  rw [hcount, honce.count, if_pos (mem_marks.mpr h)]

theorem marks_exitsCode (exits : List (Label × Label)) :
    marks (exitsCode exits) = exits.map Prod.fst := by
  induction exits with
  | nil => rfl
  | cons exit exits ih =>
      rw [List.map_cons, ← ih]
      rfl

theorem Test.mem_targets {make : Label → Instr} {operands : Nat} (h : Test make operands)
    {label : Label} : label ∈ (make label).targets := by
  cases h <;> exact List.mem_singleton_self _

/-! ## Wired code -/

/-- Some code with the own labels from `first` to before `next`.  Its branches
go to labels that it marks or that lie outside. -/
structure Wired (outside : Label → Prop) (first next : Nat) (code : List Instr) : Prop where
  labels : first ≤ next
  once : (marks code).Nodup
  own : ∀ label : Nat, .markLabel label ∈ code → first ≤ label ∧ label < next
  branch : ∀ instr ∈ code, ∀ label ∈ instr.targets, .markLabel label ∈ code ∨ outside label

namespace Wired

variable {outside : Label → Prop} {first middle next : Nat} {code more : List Instr}

theorem mono {low high : Nat} (h : Wired outside first next code) (hlow : low ≤ first)
    (hhigh : next ≤ high) : Wired outside low high code := by
  refine ⟨Nat.le_trans hlow (Nat.le_trans h.labels hhigh), h.once, ?_, h.branch⟩
  intro label hlabel
  obtain ⟨hfirst, hnext⟩ := h.own label hlabel
  exact ⟨Nat.le_trans hlow hfirst, Nat.lt_of_lt_of_le hnext hhigh⟩

theorem append (h : Wired outside first middle code) (hmore : Wired outside middle next more) :
    Wired outside first next (code ++ more) := by
  have hlow := h.labels
  have hhigh := hmore.labels
  refine ⟨Nat.le_trans hlow hhigh, ?_, ?_, ?_⟩
  · rw [marks_append, List.nodup_append]
    refine ⟨h.once, hmore.once, ?_⟩
    rintro label hcode _ hother rfl
    have hbelow := (h.own label (mem_marks.mp hcode)).2
    have habove := (hmore.own label (mem_marks.mp hother)).1
    exact absurd hbelow (Nat.not_lt_of_le habove)
  · intro label hlabel
    rcases List.mem_append.mp hlabel with hlabel | hlabel
    · have := h.own label hlabel
      omega
    · have := hmore.own label hlabel
      omega
  · intro instr hinstr label hlabel
    rw [List.mem_append]
    rcases List.mem_append.mp hinstr with hinstr | hinstr
    · exact (h.branch instr hinstr label hlabel).imp_left Or.inl
    · exact (hmore.branch instr hinstr label hlabel).imp_left Or.inr

theorem mark {label : Nat}
    (h : Wired (fun other => other = label ∨ outside other) first next code)
    (hlabel : first ≤ label ∧ label < next) (hfresh : .markLabel label ∉ code) :
    Wired outside first next (code ++ [Instr.markLabel label]) := by
  refine ⟨h.labels, ?_, ?_, ?_⟩
  · rw [marks_append, List.nodup_append]
    refine ⟨h.once, by simp [marks, Instr.marked?], ?_⟩
    rintro other hother _ hsame rfl
    rw [mem_marks, List.mem_singleton, Instr.markLabel.injEq] at hsame
    rw [mem_marks, hsame] at hother
    exact hfresh hother
  · intro other hother
    rw [List.mem_append, List.mem_singleton, Instr.markLabel.injEq] at hother
    rcases hother with hother | rfl
    · exact h.own other hother
    · exact hlabel
  · simp only [List.forall_mem_append, List.forall_mem_singleton]
    refine ⟨?_, nofun⟩
    intro instr hinstr other hother
    rw [List.mem_append, List.mem_singleton, Instr.markLabel.injEq]
    rcases h.branch instr hinstr other hother with hmarked | hsame | houtside
    · exact Or.inl (Or.inl hmarked)
    · exact Or.inl (Or.inr hsame)
    · exact Or.inr houtside

theorem mark_below {low label : Nat}
    (h : Wired (fun other => other = label ∨ outside other) first next code)
    (hlow : low ≤ label) (hlabel : label < first) :
    Wired outside low next (code ++ [Instr.markLabel label]) := by
  have hnext := h.labels
  refine (h.mono (by omega) (Nat.le_refl _)).mark (by omega) ?_
  intro hmark
  exact absurd hlabel (Nat.not_lt_of_le (h.own label hmark).1)

theorem mark_next
    (h : Wired (fun other => other = next ∨ outside other) first next code) :
    Wired outside first (next + 1) (code ++ [Instr.markLabel next]) := by
  refine (h.mono (Nat.le_refl _) (Nat.le_succ _)).mark ⟨h.labels, Nat.lt_succ_self _⟩ ?_
  intro hmark
  exact absurd (h.own next hmark).2 (Nat.lt_irrefl _)

theorem nil : Wired outside first first [] :=
  ⟨Nat.le_refl _, List.nodup_nil, nofun, nofun⟩

theorem of_unmarked (hcode : ∀ instr ∈ code, instr.marked? = none)
    (hbranch : ∀ instr ∈ code, ∀ label ∈ instr.targets, outside label) :
    Wired outside first first code := by
  have hnone (label : Nat) : .markLabel label ∉ code := by
    intro hlabel
    cases hcode _ hlabel
  refine ⟨Nat.le_refl _, ?_, fun label hlabel => absurd hlabel (hnone label),
    fun instr hinstr label hlabel => Or.inr (hbranch instr hinstr label hlabel)⟩
  rw [marks, List.filterMap_eq_nil_iff.mpr hcode]
  exact List.nodup_nil

end Wired

theorem Fragment.wired {typed : Prop} {module : TargetModule} {first depth depth' next : Nat}
    {code : List Instr} (h : Fragment typed module first depth code depth' next)
    (outside : Label → Prop) : Wired outside first next code := by
  induction h generalizing outside with
  | nil => exact .nil
  | @plain first _ _ instr hplain _ =>
      obtain ⟨hmarked, htargets⟩ := Instr.unlabelled_of_isPlain hplain
      exact .of_unmarked (by simp [hmarked]) (by simp [htargets])
  | append _ _ ihcode ihmore => exact (ihcode outside).append (ihmore outside)
  | @nullTest first last depth inner _ hcode ih =>
      have hlast := hcode.first_le
      let pending (label : Label) : Prop := label = first ∨ label = first + 1 ∨ outside label
      have htest : Wired pending (first + 2) (first + 2) [.dup, .brFalse first] :=
        .of_unmarked (by simp [Instr.marked?]) (by simp [Instr.targets, pending])
      have hskip : Wired pending last last [.br (first + 1)] :=
        .of_unmarked (by simp [Instr.marked?]) (by simp [Instr.targets, pending])
      have hempty := ((htest.append (ih pending)).append hskip).mark_below (Nat.le_refl first)
        (by omega)
      have hnull : Wired (fun label => label = first + 1 ∨ outside label) last last
          [.pop, .ldNull] :=
        .of_unmarked (by simp [Instr.marked?]) (by simp [Instr.targets])
      have hfresh : .markLabel (first + 1) ∉ inner := fun hmark =>
        absurd ((ih outside).own _ hmark).1 (by omega)
      simpa using (hempty.append hnull).mark (by omega) (by simpa using hfresh)

/-! ## Jump tables -/

section Table

variable {exits : List (Label × Label)} {labels : List Label} {targets : List Int}

theorem Routes.label_cases (h : Routes exits labels targets) {label : Label}
    (hlabel : label ∈ labels) : (label : Int) ∈ targets ∨ label ∈ exits.map Prod.fst := by
  induction h with
  | nil => cases hlabel
  | direct _ ih =>
      rcases List.mem_cons.mp hlabel with rfl | hlabel
      · exact Or.inl List.mem_cons_self
      · exact (ih hlabel).imp_left (List.mem_cons_of_mem _)
  | leave hexit _ ih =>
      rcases List.mem_cons.mp hlabel with rfl | hlabel
      · exact Or.inr (List.mem_map_of_mem hexit)
      · exact (ih hlabel).imp_left (List.mem_cons_of_mem _)

theorem Routes.exists_label (h : Routes exits labels targets) {target : Int}
    (htarget : target ∈ targets) : ∃ label ∈ labels, (label : Int) = target ∨
      ∃ exit ∈ exits, exit.1 = label ∧ (exit.2 : Int) = target := by
  induction h with
  | nil => cases htarget
  | direct _ ih =>
      rcases List.mem_cons.mp htarget with rfl | htarget
      · exact ⟨_, List.mem_cons_self, Or.inl rfl⟩
      · obtain ⟨label, hlabel, hleads⟩ := ih htarget
        exact ⟨label, List.mem_cons_of_mem _ hlabel, hleads⟩
  | leave hexit _ ih =>
      rcases List.mem_cons.mp htarget with rfl | htarget
      · exact ⟨_, List.mem_cons_self, Or.inr ⟨_, hexit, rfl, rfl⟩⟩
      · obtain ⟨label, hlabel, hleads⟩ := ih htarget
        exact ⟨label, List.mem_cons_of_mem _ hlabel, hleads⟩

theorem Wired.tableOut {outside : Label → Prop} {first skip : Nat}
    (hlabels : ∀ label ∈ labels, outside label ∨ label ∈ exits.map Prod.fst)
    (hexits : ∀ exit ∈ exits, (first ≤ exit.1 ∧ exit.1 < skip) ∧ outside exit.2)
    (hfirst : first ≤ skip) (hdistinct : (exits.map Prod.fst).Nodup) :
    Wired outside first (skip + 1)
      ([Instr.switch labels, .br skip] ++ exitsCode exits ++ [Instr.markLabel skip]) := by
  have hmarks : marks ([Instr.switch labels, .br skip] ++ exitsCode exits)
      = exits.map Prod.fst := by
    rw [marks_append, marks_exitsCode]
    rfl
  have hown (label : Nat)
      (hlabel : .markLabel label ∈ [Instr.switch labels, .br skip] ++ exitsCode exits) :
      first ≤ label ∧ label < skip := by
    rw [← mem_marks, hmarks] at hlabel
    obtain ⟨exit, hexit, rfl⟩ := List.mem_map.mp hlabel
    exact (hexits exit hexit).1
  refine Wired.mark_next ⟨hfirst, by rwa [hmarks], hown, ?_⟩
  intro instr hinstr label hlabel
  rw [← mem_marks, hmarks]
  simp only [exitsCode, List.mem_append, List.mem_cons, List.mem_flatMap, List.not_mem_nil,
    or_false] at hinstr
  rcases hinstr with (rfl | rfl) | ⟨exit, hexit, rfl | rfl⟩
  · exact (hlabels label hlabel).symm.imp_right Or.inr
  · exact Or.inr (Or.inl (List.mem_singleton.mp hlabel))
  · cases hlabel
  · rw [List.mem_singleton.mp hlabel]
    exact Or.inr (Or.inr (hexits exit hexit).2)

end Table

/-! ## Code with labels of its own -/

section Codes

variable {typed : Prop} {module : TargetModule} {outside : Label → Prop}
  {first middle next target : Nat}

theorem wired_check {load make : List Instr} {d₁ d₂ d₃ d₄ : Nat}
    (hload : Fragment typed module (first + 1) d₁ load d₂ middle)
    (hmake : Fragment typed module middle d₃ make d₄ next) :
    Wired outside first next
      (load ++ [Instr.brTrue first] ++ make ++ [Instr.throw, .markLabel first]) := by
  let pending (label : Label) : Prop := label = first ∨ outside label
  have htest : Wired pending middle middle [.brTrue first] :=
    .of_unmarked (by simp [Instr.marked?]) (by simp [Instr.targets, pending])
  have hthrow : Wired pending next next [.throw] :=
    .of_unmarked (by simp [Instr.marked?]) (by simp [Instr.targets])
  have hfull := (((hload.wired pending).append htest).append (hmake.wired pending)).append hthrow
  simpa using hfull.mark_below (Nat.le_refl _) (Nat.lt_succ_self _)

theorem wired_testOut {load : List Instr} {make : Label → Instr} {operands depth depth' : Nat}
    (hmake : Test make operands) (hload : Fragment typed module first depth load depth' middle)
    (htarget : outside target) :
    Wired outside first (middle + 2)
      (load ++ [make middle, .br (middle + 1), .markLabel middle, .leave target,
        .markLabel (middle + 1)]) := by
  let pending (label : Label) : Prop := label = middle ∨ label = middle + 1 ∨ outside label
  have hbranches : Wired pending middle middle [make middle, .br (middle + 1)] := by
    cases hmake <;>
      exact .of_unmarked (by simp [Instr.marked?]) (by simp [Instr.targets, pending])
  have htaken := ((hload.wired pending).append hbranches).mark_next
  have hleave : Wired (fun label => label = middle + 1 ∨ outside label) (middle + 1) (middle + 1)
      [.leave target] :=
    .of_unmarked (by simp [Instr.marked?]) (by simp [Instr.targets, htarget])
  simpa using (htaken.append hleave).mark_next

theorem wired_toExit {exit : ReturnExit} (h : outside exit.label) :
    Wired outside middle middle (exit.slot.toList.map .stLoc ++ [Instr.leave exit.label]) := by
  cases exit.slot <;>
    exact .of_unmarked (by simp [Instr.marked?]) (by simp [Instr.targets, h])

theorem wired_closeTrap {store : List Instr} {depth depth' : Nat}
    (hstore : Fragment typed module (first + 1) depth store depth' next)
    (htarget : outside target) :
    Wired outside first next ([Instr.leave first, .beginCatch .any] ++ store
      ++ [Instr.leave target, .endTry, .markLabel first]) := by
  let pending (label : Label) : Prop := label = first ∨ outside label
  have hin : Wired pending (first + 1) (first + 1) [.leave first, .beginCatch .any] :=
    .of_unmarked (by simp [Instr.marked?]) (by simp [Instr.targets, pending])
  have hout : Wired pending next next [.leave target, .endTry] :=
    .of_unmarked (by simp [Instr.marked?]) (by simp [Instr.targets, pending, htarget])
  have hfull := (hin.append (hstore.wired pending)).append hout
  simpa using hfull.mark_below (Nat.le_refl _) (Nat.lt_succ_self _)

end Codes

/-! ## Every instruction -/

def Operation.Outside (op : Operation) (before after : Progress) (label : Label) : Prop :=
  (label : Int) ∈ op.targetsAt before.position ∨
    op.opcode = .ret ∧ after.returnExit.map (·.label) = some label ∨
    op.opcode = .endTrap ∧ before.traps.head?.map (·.handler) = some label

theorem Lowered.wired {typed : Prop} {scope : Scope} {op : Operation} {before after : Progress}
    {code : List Instr} (h : Lowered typed scope op before after code) :
    Wired (op.Outside before after) before.builder.labels.length after.builder.labels.length
      code := by
  have hdirect {target : Nat} (hsource : op.targetsAt before.position = [(target : Int)]) :
      op.Outside before after target := Or.inl (by simp [hsource])
  cases h with
  | straight _ hcode => exact hcode.wired _
  | thrown _ hcode =>
      exact (hcode.wired _).append
        (.of_unmarked (by simp [Instr.marked?]) (by simp [Instr.targets]))
  | check _ hload hmake => exact wired_check hload hmake
  | jump _ hlabels _ _ hsource =>
      rw [hlabels]
      exact .of_unmarked (by simp [Instr.marked?]) (by simp [Instr.targets, hdirect hsource])
  | leave _ hlabels _ hsource =>
      rw [hlabels]
      exact .of_unmarked (by simp [Instr.marked?]) (by simp [Instr.targets, hdirect hsource])
  | test _ hmake hload _ _ hsource =>
      refine (hload.wired _).append ?_
      cases hmake <;>
        exact .of_unmarked (by simp [Instr.marked?]) (by simp [Instr.targets, hdirect hsource])
  | testOut _ hmake hload hlabels _ hsource =>
      rw [hlabels]
      exact wired_testOut hmake hload (hdirect hsource)
  | table _ hload hmiddle _ hroutes =>
      refine (hload.wired _).append ?_
      refine Wired.mono (.of_unmarked (by simp [Instr.marked?]) ?_) (Nat.le_refl _) hmiddle
      rw [List.forall_mem_singleton]
      intro label hlabel
      exact Or.inl ((hroutes.label_cases hlabel).resolve_right List.not_mem_nil)
  | tableOut _ hload hmiddle hskip _ hexits hroutes hsource hdistinct =>
      rw [hskip]
      rw [List.append_assoc, List.append_assoc, ← List.append_assoc [_, _]]
      refine (hload.wired _).append (Wired.tableOut ?_ ?_ hmiddle hdistinct)
      · intro label hlabel
        exact (hroutes.label_cases hlabel).imp_left Or.inl
      · intro exit hexit
        exact ⟨⟨(hexits exit hexit).1, (hexits exit hexit).2.1⟩, Or.inl (hsource exit hexit)⟩
  | ret _ _ hload =>
      exact (hload.wired _).append
        (.of_unmarked (by simp [Instr.marked?]) (by simp [Instr.targets]))
  | @exit load exit middle hopcode _ hload hexit hsame =>
      have hnext : middle ≤ after.builder.labels.length := by omega
      have hout : op.Outside before after exit.label :=
        Or.inr (Or.inl ⟨hopcode, by simp [hexit]⟩)
      rw [List.append_assoc]
      exact ((hload.wired _).append (wired_toExit hout)).mono (Nat.le_refl _) hnext
  | openTrap _ _ _ _ _ hlabels =>
      rw [hlabels]
      exact .of_unmarked (by simp [Instr.marked?]) (by simp [Instr.targets])
  | closeTrap hopcode htraps _ hstore =>
      exact wired_closeTrap hstore (Or.inr (Or.inr ⟨hopcode, by simp [htraps]⟩))

/-- A branch to the label leads to a position, directly or through one leave
instruction of the code. -/
def LeadsTo (code : List Instr) (label : Label) (target : Int) : Prop :=
  (label : Int) = target ∨
    ∃ position : Nat, (position : Int) = target ∧ [.markLabel label, .leave position] <:+: code

/-- Every offset of an instruction is taken by a branch of its code.  A trap
branches at its end, and an unboxed value is not tested for null. -/
theorem Lowered.taken {typed : Prop} {scope : Scope} {op : Operation} {before after : Progress}
    {code : List Instr} (h : Lowered typed scope op before after code) (htrap : op.opcode ≠ .trap)
    {target : Int} (htarget : target ∈ op.targetsAt before.position) :
    op.opcode = .jNull ∧ code = [] ∨
      ∃ instr ∈ code, ∃ label ∈ instr.targets, LeadsTo code label target := by
  have hnone (hoffsets : op.branchOffsets = []) : False := by
    simp [Operation.targetsAt, hoffsets] at htarget
  cases h with
  | straight _ _ hidle => exact hidle.elim (fun hoffsets => (hnone hoffsets).elim) Or.inl
  | thrown _ _ hoffsets | check _ _ _ hoffsets | ret _ _ _ hoffsets =>
      exact (hnone hoffsets).elim
  | exit hopcode | closeTrap hopcode =>
      exact (hnone (by simp [Operation.branchOffsets, hopcode])).elim
  | openTrap hopcode => exact absurd hopcode htrap
  | jump _ _ _ _ hsource | leave _ _ _ hsource =>
      rw [hsource, List.mem_singleton] at htarget
      exact Or.inr ⟨_, List.mem_singleton_self _, _, List.mem_singleton_self _,
        Or.inl htarget.symm⟩
  | @test load make _ found _ hmake _ _ _ hsource =>
      rw [hsource, List.mem_singleton] at htarget
      exact Or.inr ⟨make found, by simp, found, hmake.mem_targets, Or.inl htarget.symm⟩
  | @testOut load make _ found middle _ hmake _ _ _ hsource =>
      rw [hsource, List.mem_singleton] at htarget
      refine Or.inr ⟨make middle, by simp, middle, hmake.mem_targets, Or.inr ⟨found, htarget.symm, ?_⟩⟩
      exact ⟨load ++ [make middle, .br (middle + 1)], [.markLabel (middle + 1)], by simp⟩
  | @table load labels _ _ _ _ _ hroutes =>
      obtain ⟨label, hlabel, hleads⟩ := hroutes.exists_label htarget
      exact Or.inr ⟨.switch labels, by simp, label, hlabel, hleads.imp_right (by simp)⟩
  | @tableOut load labels exits _ skip _ _ _ _ _ _ hroutes =>
      obtain ⟨label, hlabel, hleads⟩ := hroutes.exists_label htarget
      refine Or.inr ⟨.switch labels, by simp, label, hlabel, hleads.imp_right ?_⟩
      rintro ⟨exit, hexit, rfl, rfl⟩
      obtain ⟨earlier, later, rfl⟩ := List.append_of_mem hexit
      refine ⟨exit.2, rfl, load ++ [Instr.switch labels, .br skip] ++ exitsCode earlier,
        exitsCode later ++ [Instr.markLabel skip], by simp [exitsCode]⟩

end BytecodeLowering
