import BytecodeLowering.Proofs.Body.BoxingBridge
import BytecodeLowering.Proofs.Body.Parts
import BytecodeLowering.Proofs.Target.StackPaths

/-!
# Stores consume one value

What a store into a register does to the stack, on all ways through the
conversions in front of it.  The conversion and the store each remove the value
when the register is void, so such a store takes a second value from below; all
conversions that leave one value are followed by a store that takes exactly it.
-/

namespace BytecodeLowering

/-! ## Fragments settle -/

structure OnlyAt (code : List Instr) (label : Label) (place : Nat) : Prop where
  marked : code[place]? = some (.markLabel label)
  only : ∀ other, code[other]? = some (.markLabel label) → other = place

theorem OnlyAt.of_split {code before behind : List Instr} {label : Label}
    (hcode : code = before ++ .markLabel label :: behind) (hbefore : .markLabel label ∉ before)
    (hbehind : .markLabel label ∉ behind) : OnlyAt code label before.length := by
  subst hcode
  refine ⟨by simp, ?_⟩
  intro other hother
  rw [List.getElem?_append] at hother
  split at hother
  · exact absurd (List.mem_of_getElem? hother) hbefore
  · cases hoffset : other - before.length with
    | zero => omega
    | succ offset =>
        rw [hoffset, List.getElem?_cons_succ] at hother
        exact absurd (List.mem_of_getElem? hother) hbehind

section Fragments

variable {module : TargetModule} {α : Type} [Inhabited α] {whole : List Instr} {rest : List α}

theorem Settles.of_plain {place : Nat} {instr : Instr} {top : List α}
    (hinstr : whole[place]? = some instr) (hplain : instr.isPlain = true)
    (htakes : instr.pops module ≤ top.length)
    (hnext : ∀ left : List α, left.length = top.length - instr.pops module + instr.pushes module →
      Settles module whole rest (place + 1, left ++ rest)) :
    Settles module whole rest (place, top ++ rest) := by
  have hgoes : instr.isTerminator = false := by cases instr <;> first | rfl | cases hplain
  have htargets : instr.targets = [] := by cases instr <;> first | rfl | cases hplain
  refine .of_ways hinstr htakes (.inl hgoes) (by simp [htargets]) ?_ (by simp [htargets])
  intro _ left hleft
  refine hnext _ ?_
  rw [List.length_append, List.length_drop]
  omega

theorem Settles.of_mark {place : Nat} {label : Label} {top : List α}
    (hinstr : whole[place]? = some (.markLabel label))
    (hnext : Settles module whole rest (place + 1, top ++ rest)) :
    Settles module whole rest (place, top ++ rest) := by
  refine .of_ways hinstr (Nat.zero_le _) (.inl rfl) nofun ?_ nofun
  intro _ left hleft
  obtain rfl := List.eq_nil_of_length_eq_zero hleft
  exact hnext

theorem Settles.of_br {place there : Nat} {label : Label} {top : List α}
    (hinstr : whole[place]? = some (.br label)) (hmark : OnlyAt whole label there)
    (hthere : Settles module whole rest (there, top ++ rest)) :
    Settles module whole rest (place, top ++ rest) := by
  refine .of_ways hinstr (Nat.zero_le _) (.inr (by simp [Instr.targets])) ?_ (by rintro ⟨⟩) ?_
  · simp only [Instr.targets, List.forall_mem_singleton]
    exact List.mem_of_getElem? hmark.marked
  · simp only [Instr.targets, List.forall_mem_singleton]
    intro other hother
    rw [hmark.only other hother]
    exact hthere

theorem Settles.of_brFalse {place there depth : Nat} {label : Label} {top : List α}
    (hinstr : whole[place]? = some (.brFalse label)) (hmark : OnlyAt whole label there)
    (htop : top.length = depth + 1)
    (hnext : ∀ left : List α, left.length = depth →
      Settles module whole rest (place + 1, left ++ rest))
    (hthere : ∀ left : List α, left.length = depth →
      Settles module whole rest (there, left ++ rest)) :
    Settles module whole rest (place, top ++ rest) := by
  have hpops : Instr.pops module (.brFalse label) = 1 := rfl
  have hdrop : (top.drop (Instr.pops module (.brFalse label))).length = depth := by
    rw [List.length_drop, hpops, htop, Nat.add_sub_cancel]
  refine .of_ways hinstr (by omega) (.inl rfl) ?_ ?_ ?_
  · simp only [Instr.targets, List.forall_mem_singleton]
    exact List.mem_of_getElem? hmark.marked
  · intro _ left hleft
    obtain rfl := List.eq_nil_of_length_eq_zero hleft
    exact hnext _ hdrop
  · simp only [Instr.targets, List.forall_mem_singleton]
    intro other hother
    rw [hmark.only other hother]
    exact hthere _ hdrop

theorem Settles.of_nullTest {first depth : Nat} {code before behind : List Instr}
    (hwhole : whole = before ++ ([Instr.dup, .brFalse first] ++ code ++ [Instr.br (first + 1),
      .markLabel first, .pop, .ldNull, .markLabel (first + 1)]) ++ behind)
    (hfirst : .markLabel first ∉ before ∧ .markLabel first ∉ code ∧ .markLabel first ∉ behind)
    (hsecond : .markLabel (first + 1) ∉ before ∧ .markLabel (first + 1) ∉ code ∧
      .markLabel (first + 1) ∉ behind)
    (hlast : ∀ top : List α, top.length = depth →
      Settles module whole rest (before.length + (code.length + 7), top ++ rest))
    (hcode : (∀ top : List α, top.length = depth →
        Settles module whole rest (before.length + (code.length + 2), top ++ rest)) →
      ∀ top : List α, top.length = depth →
        Settles module whole rest (before.length + 2, top ++ rest))
    {top : List α} (htop : top.length = depth) (hpositive : 0 < depth) :
    Settles module whole rest (before.length, top ++ rest) := by
  have hempty : OnlyAt whole first (before.length + (code.length + 3)) := by
    have hsplit : whole = (before ++ (.dup :: .brFalse first :: (code ++ [.br (first + 1)])))
        ++ .markLabel first :: (.pop :: .ldNull :: .markLabel (first + 1) :: behind) := by
      simp [hwhole]
    simpa using OnlyAt.of_split hsplit (by simp [hfirst]) (by simp [hfirst])
  have hdone : OnlyAt whole (first + 1) (before.length + (code.length + 6)) := by
    have hsplit : whole = (before ++ (.dup :: .brFalse first :: (code ++
        [.br (first + 1), .markLabel first, .pop, .ldNull])))
        ++ .markLabel (first + 1) :: behind := by
      simp [hwhole]
    simpa using OnlyAt.of_split hsplit (by simp [hsecond]) hsecond.2.2
  have hplace (offset : Nat) (instr : Instr)
      (hinstr : ([Instr.dup, .brFalse first] ++ code ++ [Instr.br (first + 1), .markLabel first,
        .pop, .ldNull, .markLabel (first + 1)])[offset]? = some instr) :
      whole[before.length + offset]? = some instr := by
    rw [hwhole, List.append_assoc, List.getElem?_append_right (Nat.le_add_right _ _),
      Nat.add_sub_cancel_left, List.getElem?_append_left (List.getElem?_eq_some_iff.mp hinstr).1,
      hinstr]
  have hend : ∀ top : List α, top.length = depth →
      Settles module whole rest (before.length + (code.length + 6), top ++ rest) :=
    fun reached hreached => .of_mark hdone.marked (hlast reached hreached)
  have hnull : ∀ top : List α, top.length = depth →
      Settles module whole rest (before.length + (code.length + 3), top ++ rest) := by
    intro reached hreached
    refine .of_mark hempty.marked ?_
    refine .of_plain (hplace (code.length + 4) .pop (by simp)) rfl (hreached ▸ hpositive) ?_
    intro left hleft
    refine .of_plain (hplace (code.length + 5) .ldNull (by simp)) rfl (Nat.zero_le _) ?_
    intro replaced hreplaced
    refine hend replaced ?_
    simp only [Instr.pops, Instr.pushes] at hleft hreplaced
    omega
  have hfull : ∀ top : List α, top.length = depth →
      Settles module whole rest (before.length + (code.length + 2), top ++ rest) :=
    fun reached hreached => .of_br (hplace (code.length + 2) (.br (first + 1)) (by simp)) hdone
      (hend reached hreached)
  refine .of_plain (hplace 0 .dup rfl) rfl (htop ▸ hpositive) ?_
  intro doubled hdoubled
  simp only [Instr.pops, Instr.pushes] at hdoubled
  exact .of_brFalse (hplace 1 (.brFalse first) rfl) hempty (by omega) (hcode hfull) hnull

/-- A fragment settles wherever it stands, as soon as the code behind it does:
its branches find their labels in the fragment itself and nowhere else. -/
theorem Fragment.settles {first depth depth' next : Nat} {code : List Instr}
    (h : Fragment True module first depth code depth' next) {before behind : List Instr}
    (hwhole : whole = before ++ (code ++ behind))
    (hfresh : ∀ label, first ≤ label → label < next →
      .markLabel label ∉ before ∧ .markLabel label ∉ behind)
    (hlast : ∀ top : List α, top.length = depth' →
      Settles module whole rest (before.length + code.length, top ++ rest))
    {top : List α} (htop : top.length = depth) :
    Settles module whole rest (before.length, top ++ rest) := by
  induction h generalizing before behind top with
  | nil => exact hlast top htop
  | @plain first depth depth' instr hplain heffect =>
      obtain ⟨htakes, hheight⟩ := heffect trivial
      have hinstr : whole[before.length]? = some instr := by simp [hwhole]
      exact .of_plain hinstr hplain (htop ▸ htakes) fun left hleft => hlast left (by omega)
  | @append first middle last depth between depth' code more hcode hmore ihcode ihmore =>
      refine @ihcode before (more ++ behind) (by simp [hwhole]) ?_ ?_ top htop
      · intro label hlow hhigh
        obtain ⟨hbefore, hbehind⟩ := hfresh label hlow (Nat.lt_of_lt_of_le hhigh hmore.first_le)
        refine ⟨hbefore, fun hmem => ?_⟩
        rcases List.mem_append.mp hmem with hmem | hmem
        · exact absurd hhigh (Nat.not_lt_of_le (hmore.mark_range hmem).1)
        · exact hbehind hmem
      · intro reached hreached
        rw [← List.length_append]
        refine @ihmore (before ++ code) behind (by simp [hwhole]) ?_ ?_ reached hreached
        · intro label hlow hhigh
          obtain ⟨hbefore, hbehind⟩ := hfresh label (Nat.le_trans hcode.first_le hlow) hhigh
          refine ⟨fun hmem => ?_, hbehind⟩
          rcases List.mem_append.mp hmem with hmem | hmem
          · exact hbefore hmem
          · exact absurd (hcode.mark_range hmem).2 (Nat.not_lt_of_le hlow)
        · simpa only [List.length_append, Nat.add_assoc] using hlast
  | @nullTest first last depth code hdepth hcode ih =>
      have hlow := hcode.first_le
      have hown (label : Nat) (hlabel : label < first + 2) : .markLabel label ∉ code :=
        fun hmem => absurd (hcode.mark_range hmem).1 (Nat.not_le_of_lt hlabel)
      have hlabels (label : Nat) (hfirst : first ≤ label) (hlabel : label < first + 2) :
          .markLabel label ∉ before ∧ .markLabel label ∉ code ∧ .markLabel label ∉ behind :=
        have hlast : label < last := Nat.lt_of_lt_of_le hlabel hlow
        ⟨(hfresh label hfirst hlast).1, hown label hlabel, (hfresh label hfirst hlast).2⟩
      refine .of_nullTest (hwhole.trans (List.append_assoc _ _ _).symm)
        (hlabels first (Nat.le_refl _) (by omega))
        (hlabels (first + 1) (by omega) (by omega)) ?_ ?_ htop (hdepth trivial)
      · intro reached hreached
        have hbehind := hlast reached hreached
        simp only [List.length_append, List.length_cons, List.length_nil] at hbehind
        rwa [show code.length + 7 = 0 + 1 + 1 + code.length + (0 + 1 + 1 + 1 + 1 + 1) by omega]
      · intro hfull entered hentered
        have hinner := @ih (before ++ [.dup, .brFalse first]) ([Instr.br (first + 1),
          .markLabel first, .pop, .ldNull, .markLabel (first + 1)] ++ behind) (by simp [hwhole])
          ?_ ?_ entered hentered
        · rwa [List.length_append] at hinner
        · intro label hlabel hhigh
          obtain ⟨hbefore, hbehind⟩ := hfresh label (by omega) hhigh
          have hnotFirst : label ≠ first := by omega
          have hnotDone : label ≠ first + 1 := by omega
          simp [hbefore, hbehind, hnotFirst, hnotDone]
        · intro reached hreached
          have hnext := hfull reached hreached
          rwa [List.length_append, Nat.add_assoc, Nat.add_comm _ code.length]

theorem Fragment.consumes {first next : Nat} {code : List Instr}
    (h : Fragment True module first 1 code 0 next) : Consumes module code := by
  intro α value rest
  have : Inhabited α := ⟨value⟩
  refine @Fragment.settles module α _ code rest first 1 0 next code h [] [] (by simp) (by simp) ?_
    [value] rfl
  intro top htop
  obtain rfl := List.eq_nil_of_length_eq_zero htop
  rw [List.length_nil, Nat.zero_add]
  exact .done

end Fragments

/-! ## Conversions that leave nothing -/

/-- Entered with one value, the code leaves none for what follows. -/
def Drains (module : TargetModule) (code : List Instr) : Prop :=
  ∀ more, Lacks module 0 more → Lacks module 1 (code ++ more)

theorem drains_pop {module : TargetModule} : Drains module [.pop] :=
  fun _ hmore => .later rfl hmore

theorem Drains.append_short {module : TargetModule} {code : List Instr} (h : Drains module code)
    {instr : Instr} (hinstr : 0 < instr.pops module) (more : List Instr) :
    Lacks module 1 (code ++ instr :: more) := h _ (.here hinstr)

namespace Emit

variable {scope : Scope}

/-- A value that is converted to void on its way into a nullable is gone when
it is to be wrapped. -/
theorem writes_convertInto_drains {source target : TargetType} (hsource : source ≠ .void)
    (hplain : source.contents = []) (hvoid : target = .void ∨ TargetType.void ∈ target.contents)
    (first : Nat) : ∃ code next, Writes scope (convertInto true source target) first code next ∧
      Drains scope.registry.target code := by
  induction target using convertInto.induct source generalizing first with
  | case1 inner hsame =>
      rcases hsame with rfl | hsame
      · cases hplain
      · exact absurd hsame hsource
  | case2 inner hother hvalue ih =>
      obtain ⟨code, next, hcode, hdrains⟩ :=
        ih (by simpa [TargetType.contents, eq_comm] using hvoid) first
      refine ⟨code ++ [.newObj (.runtime (.nullableNew inner))], next, ?_, fun more _ => ?_⟩
      · rw [convertInto, if_neg hother, if_pos hvalue]
        exact hcode.bind (.emit _)
      · rw [List.append_assoc]
        refine hdrains.append_short ?_ more
        exact Nat.one_pos
  | case3 inner hother hvalue ih =>
      obtain ⟨code, next, hcode, hdrains⟩ :=
        ih (by simpa [TargetType.contents, eq_comm] using hvoid) (first + 2)
      refine ⟨_, next, writes_nullTest hother hvalue hcode, fun more _ => ?_⟩
      rw [nullTestCode, List.cons_append, List.cons_append, List.append_assoc]
      refine .later rfl (.later rfl (hdrains.append_short ?_ _))
      exact Nat.one_pos
  | case4 hnullable =>
      rcases hvoid with hvoid | hvoid
      · exact absurd hvoid hsource
      · rw [hplain] at hvoid
        cases hvoid
  | case5 target hnullable hother =>
      obtain rfl : target = .void := by
        refine hvoid.resolve_right ?_
        rw [TargetType.contents]
        · exact List.not_mem_nil
        · exact hnullable
      refine ⟨[.pop], first, ?_, drains_pop⟩
      rw [convertInto, if_neg hother]
      · exact .emit .pop
      · exact hnullable

theorem writes_of_void {target : TargetType} (htarget : target ≠ .void) (first : Nat) :
    ∃ code, Writes scope (convert true .void target) first code first ∧
      ∀ more, Lacks scope.registry.target 0 more →
        Lacks scope.registry.target 0 (code ++ more) := by
  have hinto : convert true .void target = convertInto true .void target := by
    rw [convert]
    rintro inner ⟨⟩
  rw [hinto]
  by_cases hplain : ∀ inner, target = .nullable inner → False
  · have hcode : convertPlain .void target true =
        if target.isValue then (do emit .pop; pushDefault target) else pure () := by
      cases target with
      | builtin type => cases type <;> first | rfl | exact absurd rfl htarget
      | _ => rfl
    rw [convertInto.eq_2 _ _ _ hplain, if_neg (Ne.symm htarget), hcode]
    refine ⟨if target.isValue then [.pop] ++ [defaultInstr target] else [],
      .ite (fun _ => (Writes.emit _).bind (.emit _)) fun _ => .pure, fun more hmore => ?_⟩
    split
    · exact .here Nat.one_pos
    · exact hmore
  · obtain ⟨inner, rfl⟩ : ∃ inner, target = .nullable inner := by
      simpa using hplain
    rw [convertInto, if_pos (.inr rfl)]
    exact ⟨[], .pure, fun _ hmore => hmore⟩

theorem writes_convert_drains {source target : TargetType} (h : ¬ source.Keeps target)
    (first : Nat) : ∃ code next, Writes scope (convert true source target) first code next ∧
      Drains scope.registry.target code := by
  induction source, target using convert.induct generalizing first with
  | case1 inner => exact absurd (.inl rfl) h
  | case2 inner target hother hplain =>
      obtain rfl : target = .void := by
        refine hplain.resolve_right fun hcarrier => h (.inr ⟨?_, ?_⟩)
        · rcases hcarrier with rfl | rfl <;> rintro ⟨⟩
        · exact .inr (hcarrier.imp_right .inl)
      rw [convert, if_neg hother, if_pos hplain]
      exact ⟨[.pop], first, .emit .pop, drains_pop⟩
  | case3 inner target hother hplain ih =>
      rw [convert, if_neg hother, if_neg hplain]
      have hvoid : target ≠ .void := fun hsame => hplain (.inl hsame)
      have hopen (inner : TargetType) : Writes scope (callRuntime (.nullableValue inner)) first
          [.call (.runtime (.nullableValue inner))] first := .emit _
      by_cases hinner : inner = .void
      · subst hinner
        obtain ⟨code, hcode, hlacks⟩ := @writes_of_void scope target hvoid first
        exact ⟨_, first, (hopen .void).bind hcode, fun more hmore => .later rfl (hlacks more hmore)⟩
      · obtain ⟨code, next, hcode, hdrains⟩ :=
          ih (fun hkeeps => h (hkeeps.of_opened hinner hvoid)) first
        refine ⟨_, next, (hopen inner).bind hcode, fun more hmore => .later rfl ?_⟩
        have hslots : inner.slots = 1 := if_neg hinner
        change Lacks _ (1 - 1 + inner.slots) (code ++ more)
        rw [hslots]
        exact hdrains more hmore
  | case4 source target hnullable =>
      have hcontents : source.contents = [] := by
        rw [TargetType.contents]
        exact hnullable
      have hinto : convert true source target = convertInto true source target := by
        rw [convert]
        exact hnullable
      rw [hinto]
      obtain ⟨hother, hcases⟩ := not_or.mp h
      have hsource : source ≠ .void := by
        rintro rfl
        exact hcases ⟨Ne.symm hother, .inl rfl⟩
      refine writes_convertInto_drains hsource hcontents ?_ first
      refine Decidable.byContradiction fun hnone => ?_
      obtain ⟨hvoid, hinside⟩ := not_or.mp hnone
      refine hcases ⟨hvoid, .inr (.inr (.inr (.inr ⟨?_, hinside⟩)))⟩
      rw [hcontents]
      exact List.not_mem_nil

/-! ## Stores -/

theorem writes_store {register : Int} {before after : Progress} {result : Unit}
    (h : store register scope before = .ok result after) :
    ∃ instr, after.builder.body = before.builder.body ++ [instr] ∧
      instr.pops scope.registry.target = 1 := by
  obtain ⟨index, _, hindex, h⟩ := bind_ok h
  obtain ⟨rfl, -⟩ := registerIndex_ok hindex
  obtain ⟨type, _, htype, h⟩ := bind_ok h
  obtain ⟨rfl, -⟩ := registerType_ok htype
  obtain ⟨_, _, hread, h⟩ := bind_ok h
  obtain ⟨rfl, rfl⟩ := read_ok hread
  cases h
  refine ⟨_, rfl, ?_⟩
  unfold storeInstr
  split
  · rfl
  · split <;> rfl

/-- A store takes exactly the value that is to be stored if and only if the
conversion to the type of the register leaves one.  This leaves out a void
register, unless the value is of type void. -/
theorem storeFrom_consumes_iff (scope : Scope) (register : Int) (source : TargetType)
    (before after : Progress) (h : storeFrom register source scope before = .ok () after) :
    ∃ code type, after.builder.body = before.builder.body ++ code ∧
      scope.typeOf? register = some type ∧
        (Consumes scope.registry.target code ↔ source.Keeps type) := by
  obtain ⟨type, _, hregister, hrest⟩ := bind_ok h
  obtain ⟨rfl, htype⟩ := registerType_ok hregister
  obtain ⟨_, middle, hcoerce, hstore⟩ := bind_ok hrest
  by_cases hkeeps : source.Keeps type
  · obtain ⟨-, code, hcode, hfragment⟩ :=
      (emits_convert_of_keeps true fun _ => hkeeps : Emits True scope _ 1 1).ok _ _ _ hcoerce
    obtain ⟨-, more, hmore, hstored⟩ := (emits_store register : Emits True scope _ 1 0).ok _ _ _ hstore
    exact ⟨code ++ more, type, (hcode.trans hmore).body, htype,
      iff_of_true (hfragment.append hstored).consumes hkeeps⟩
  · obtain ⟨code, next, hwrites, hdrains⟩ :=
      @writes_convert_drains scope source type hkeeps before.builder.labels.length
    obtain ⟨found, hfound, hbody, -⟩ := hwrites before rfl
    cases hcoerce.symm.trans hfound
    obtain ⟨instr, hinstr, hpops⟩ := writes_store hstore
    refine ⟨code ++ [instr], type, by rw [hinstr, hbody, List.append_assoc], htype, ?_⟩
    refine iff_of_false (Lacks.not_consumes ?_) hkeeps
    exact hdrains.append_short (by omega) []

def mixedScope : Scope := { carriedScope with registerTypes := [.void, .nullable .i32] }

theorem storeFrom_consumes_nullable :
    ∃ after, storeFrom 1 .dynamic mixedScope { builder := {} } = .ok () after ∧
      after.builder.body.length = 11 ∧ Consumes mixedScope.registry.target after.builder.body := by
  obtain ⟨code, type, hcode, htype, hiff⟩ :=
    storeFrom_consumes_iff mixedScope 1 .dynamic { builder := {} } _ rfl
  obtain rfl : TargetType.nullable .i32 = type := Option.some.inj htype
  exact ⟨_, rfl, rfl, hcode ▸ hiff.mpr (by decide)⟩

/-- A value that is discarded into a void register takes another with it. -/
theorem storeFrom_void_not_consumes :
    ∃ after, storeFrom 0 .i32 mixedScope { builder := {} } = .ok () after ∧
      after.builder.body = [.pop, .pop] ∧
        ¬ Consumes mixedScope.registry.target after.builder.body :=
  ⟨_, rfl, rfl, Lacks.not_consumes (.later rfl (.here Nat.one_pos))⟩

end Emit

end BytecodeLowering
