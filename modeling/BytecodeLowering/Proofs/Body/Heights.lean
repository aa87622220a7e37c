import BytecodeLowering.Proofs.Body.Levels
import BytecodeLowering.Proofs.Body.Run

/-!
# The evaluation stack of lowered bodies

Every place of a body has one height; it is zero between the code of two source
instructions, and a return finds exactly the result.
-/

namespace BytecodeLowering

/-! ## One instruction -/

/-- The heights of the labels that a body has so far.  The labels of source
instructions and of the shared exit have the height zero. -/
structure Progress.Labelled (scope : Scope) (progress : Progress) (labels : List Nat) : Prop where
  length : labels.length = progress.builder.labels.length
  sources : ∀ label < scope.function.operations.length, labels[label]? = some 0
  exit : ∀ exit, progress.returnExit = some exit →
    labels[exit.label]? = some 0 ∧ exit.slot.toList.length = scope.signature.ret.slots

section Instruction

variable {scope : Scope} {op : Operation} {before after : Progress} {labels grown : List Nat}
  {code : List Instr}

theorem Progress.Labelled.grow (h : before.Labelled scope labels) (hgrown : labels <+: grown)
    (hexit : after.returnExit = before.returnExit)
    (hlength : grown.length = after.builder.labels.length) : after.Labelled scope grown := by
  refine ⟨hlength, fun label hlabel => getElem?_of_begins hgrown (h.sources label hlabel), ?_⟩
  intro exit hfound
  rw [hexit] at hfound
  exact ⟨getElem?_of_begins hgrown (h.exit exit hfound).1, (h.exit exit hfound).2⟩

theorem Progress.Labelled.make_exit (h : before.Labelled scope labels)
    (hgrown : labels <+: grown) (hlength : grown.length = after.builder.labels.length)
    {exit : ReturnExit} (hexit : after.returnExit = some exit)
    (hlabel : grown[exit.label]? = some 0)
    (hslot : exit.slot.toList.length = scope.signature.ret.slots) :
    after.Labelled scope grown := by
  refine ⟨hlength, fun label hsource => getElem?_of_begins hgrown (h.sources label hsource), ?_⟩
  intro found hfound
  obtain rfl : exit = found := Option.some.inj (hexit.symm.trans hfound)
  exact ⟨hlabel, hslot⟩

section Codes

variable {module : TargetModule} {ret : TargetType} {label target middle : Nat}

theorem balanced_check {load make : List Instr} (hload : Balanced module ret labels 0 load 1)
    (hmake : Balanced module ret labels 0 make 1) (hlabel : labels[label]? = some 0) :
    Balanced module ret labels 0
      (load ++ [Instr.brTrue label] ++ make ++ [Instr.throw, .markLabel label]) 0 := by
  have htest : Balanced module ret labels 1 [.brTrue label] 0 :=
    .single (agrees_test .brTrue hlabel rfl)
  have hthrow : Balanced module ret labels 1 [.throw, .markLabel label] 0 :=
    .cons agrees_throw (.single (agrees_mark hlabel))
  exact ((hload.append htest).append hmake).append hthrow

theorem balanced_testOut {make : Label → Instr} {operands : Nat} (hmake : Test make operands)
    (htaken : labels[middle]? = some 0) (hskip : labels[middle + 1]? = some 0)
    (htarget : labels[target]? = some 0) :
    Balanced module ret labels operands
      [make middle, .br (middle + 1), .markLabel middle, .leave target,
        .markLabel (middle + 1)] 0 :=
  .cons (agrees_test hmake htaken (Nat.zero_add _)) (.cons (agrees_br hskip)
    (.cons (agrees_mark htaken) (.cons (agrees_leave htarget) (.single (agrees_mark hskip)))))

theorem balanced_exits {exits : List (Label × Label)}
    (h : ∀ exit ∈ exits, labels[exit.1]? = some 0 ∧ labels[exit.2]? = some 0) :
    Balanced module ret labels 0 (exitsCode exits) 0 := by
  induction exits with
  | nil => exact .nil
  | cons exit exits ih =>
      obtain ⟨htaken, htarget⟩ := h exit List.mem_cons_self
      exact .cons (agrees_mark htaken) (.cons (agrees_leave htarget)
        (ih fun other hother => h other (List.mem_cons_of_mem _ hother)))

theorem balanced_tableOut {table : List Label} {exits : List (Label × Label)} {skip : Nat}
    (htable : ∀ label ∈ table, labels[label]? = some 0 ∨ label ∈ exits.map Prod.fst)
    (hexits : ∀ exit ∈ exits, labels[exit.1]? = some 0 ∧ labels[exit.2]? = some 0)
    (hskip : labels[skip]? = some 0) :
    Balanced module ret labels 1
      ([Instr.switch table, .br skip] ++ exitsCode exits ++ [Instr.markLabel skip]) 0 := by
  have hentries : ∀ label ∈ table, labels[label]? = some 0 := by
    intro label hlabel
    rcases htable label hlabel with hstays | hexit
    · exact hstays
    · obtain ⟨exit, hfound, rfl⟩ := List.mem_map.mp hexit
      exact (hexits exit hfound).1
  have hswitch : Balanced module ret labels 1 [.switch table, .br skip] 0 :=
    .cons (agrees_switch hentries) (.single (agrees_br hskip))
  exact (hswitch.append (balanced_exits hexits)).append (.single (agrees_mark hskip))

theorem balanced_stores (slot : Option UInt16) :
    Balanced module ret labels slot.toList.length (slot.toList.map .stLoc) 0 := by
  cases slot with
  | none => exact .nil
  | some slot => exact .single (agrees_plain rfl ⟨Nat.le_refl _, rfl⟩)

theorem balanced_toExit {exit : ReturnExit} (hlabel : labels[exit.label]? = some 0)
    (hslot : exit.slot.toList.length = ret.slots) :
    Balanced module ret labels ret.slots
      (exit.slot.toList.map .stLoc ++ [Instr.leave exit.label]) 0 := by
  rw [← hslot]
  exact (balanced_stores exit.slot).append (.single (agrees_leave hlabel))

theorem balanced_closeTrap {store : List Instr} (hstore : Balanced module ret labels 1 store 0)
    (hlabel : labels[label]? = some 0) (htarget : labels[target]? = some 0) :
    Balanced module ret labels 0 ([Instr.leave label, .beginCatch .any] ++ store
      ++ [Instr.leave target, .endTry, .markLabel label]) 0 := by
  have hbegin : Balanced module ret labels 0 [.leave label, .beginCatch .any] 1 :=
    .cons (agrees_leave hlabel) (.single agrees_beginCatch)
  have hend : Balanced module ret labels 0 [.leave target, .endTry, .markLabel label] 0 :=
    .cons (agrees_leave htarget) (.cons agrees_endTry (.single (agrees_mark hlabel)))
  exact (hbegin.append hstore).append hend

end Codes

theorem Lowered.handlers {typed : Prop}
    (h : ∀ frame ∈ before.traps, frame.handler < scope.function.operations.length)
    (hlowered : Lowered typed scope op before after code) :
    ∀ frame ∈ after.traps, frame.handler < scope.function.operations.length := by
  cases hlowered.trapStep with
  | keeps _ htraps =>
      rw [htraps]
      exact h
  | opens _ _ hhandler htraps =>
      rw [htraps]
      exact List.forall_mem_cons.mpr ⟨hhandler, h⟩
  | closes _ htraps =>
      rw [htraps] at h
      exact (List.forall_mem_cons.mp h).2

theorem Lowered.balanced (h : before.Labelled scope labels)
    (hhandlers : ∀ frame ∈ before.traps, frame.handler < scope.function.operations.length)
    (hlowered : Lowered True scope op before after code) :
    ∃ grown, labels <+: grown ∧ after.Labelled scope grown ∧
      Balanced scope.registry.target scope.signature.ret grown 0 code 0 := by
  cases hlowered with
  | straight hstands hcode =>
      obtain ⟨grown, hgrown, hlength, hbalanced⟩ := hcode.balanced scope.signature.ret h.length
      exact ⟨grown, hgrown, h.grow hgrown hstands.exit hlength, hbalanced⟩
  | thrown hstands hcode =>
      obtain ⟨grown, hgrown, hlength, hbalanced⟩ := hcode.balanced scope.signature.ret h.length
      exact ⟨grown, hgrown, h.grow hgrown hstands.exit hlength,
        hbalanced.append (.single agrees_throw)⟩
  | check hstands hload hmake =>
      obtain ⟨own, hown, hmiddle, hlabel, hload⟩ :=
        hload.balanced_above scope.signature.ret h.length
      obtain ⟨grown, hgrown, hlength, hmake⟩ := hmake.balanced scope.signature.ret hmiddle
      have hall := hown.trans hgrown
      exact ⟨grown, hall, h.grow hall hstands.exit hlength,
        balanced_check (hload.mono hgrown) hmake (getElem?_of_begins hgrown hlabel)⟩
  | jump hstands hsame htarget =>
      exact ⟨labels, List.prefix_rfl,
        h.grow List.prefix_rfl hstands.exit (h.length.trans hsame.symm),
        .single (agrees_br (h.sources _ htarget))⟩
  | leave hstands hsame htarget =>
      exact ⟨labels, List.prefix_rfl,
        h.grow List.prefix_rfl hstands.exit (h.length.trans hsame.symm),
        .single (agrees_leave (h.sources _ htarget))⟩
  | test hstands hmake hload htarget =>
      obtain ⟨grown, hgrown, hlength, hload⟩ := hload.balanced scope.signature.ret h.length
      have hafter := h.grow hgrown hstands.exit hlength
      exact ⟨grown, hgrown, hafter, hload.append
        (.single (agrees_test hmake (hafter.sources _ htarget) (Nat.zero_add _)))⟩
  | @testOut load make operands target middle hstands hmake hload hsame htarget =>
      obtain ⟨grown, hgrown, hlength, hzero, hload⟩ :=
        hload.balanced_before scope.signature.ret h.length (Nat.le_add_right middle 2)
      have hafter := h.grow hgrown hstands.exit (hlength.trans hsame.symm)
      exact ⟨grown, hgrown, hafter, hload.append (balanced_testOut hmake
        (hzero middle (by omega) (by omega)) (hzero (middle + 1) (by omega) (by omega))
        (hafter.sources _ htarget))⟩
  | table hstands hload hmiddle hentries =>
      obtain ⟨grown, hgrown, hlength, -, hload⟩ :=
        hload.balanced_before scope.signature.ret h.length hmiddle
      have hafter := h.grow hgrown hstands.exit hlength
      exact ⟨grown, hgrown, hafter, hload.append (.single (agrees_switch fun label hlabel =>
        hafter.sources label (hentries label hlabel).1))⟩
  | @tableOut load table exits middle skip hstands hload hmiddle hskip hentries hexits =>
      obtain ⟨grown, hgrown, hlength, hzero, hload⟩ :=
        hload.balanced_before scope.signature.ret h.length (Nat.le_succ_of_le hmiddle)
      have hafter := h.grow hgrown hstands.exit (hlength.trans hskip.symm)
      have htable : ∀ label ∈ table, grown[label]? = some 0 ∨ label ∈ exits.map Prod.fst :=
        fun label hlabel => (hentries label hlabel).imp_left fun hstays =>
          hafter.sources label hstays.1
      have htaken : ∀ exit ∈ exits, grown[exit.1]? = some 0 ∧ grown[exit.2]? = some 0 := by
        intro exit hexit
        obtain ⟨hlow, hhigh, htarget⟩ := hexits exit hexit
        exact ⟨hzero exit.1 hlow (Nat.lt_succ_of_lt hhigh), hafter.sources _ htarget⟩
      have hcode := hload.append
        (balanced_tableOut htable htaken (hzero skip hmiddle (Nat.lt_succ_self _)))
      exact ⟨grown, hgrown, hafter, by simpa using hcode⟩
  | ret hstands _ hload =>
      obtain ⟨grown, hgrown, hlength, hload⟩ := hload.balanced scope.signature.ret h.length
      exact ⟨grown, hgrown, h.grow hgrown hstands.exit hlength, hload.append (.single agrees_ret)⟩
  | @exit load exit middle _ _ hload hexit hmade =>
      rw [List.append_assoc]
      rcases hmade with ⟨hbefore, hsame⟩ | ⟨-, hfirst, hnext, hslot⟩
      · obtain ⟨grown, hgrown, hlength, hload⟩ := hload.balanced scope.signature.ret h.length
        have hafter := h.grow hgrown (hexit.trans hbefore.symm) (hlength.trans hsame.symm)
        obtain ⟨hlabel, hslot⟩ := hafter.exit exit hexit
        exact ⟨grown, hgrown, hafter, hload.append (balanced_toExit hlabel hslot)⟩
      · obtain ⟨grown, hgrown, hlength, hzero, hload⟩ :=
          hload.balanced_before scope.signature.ret h.length (Nat.le_succ middle)
        have hlabel : grown[exit.label]? = some 0 := by
          rw [hfirst]
          exact hzero middle (Nat.le_refl _) (Nat.lt_succ_self _)
        exact ⟨grown, hgrown, h.make_exit hgrown (hlength.trans hnext.symm) hexit hlabel hslot,
          hload.append (balanced_toExit hlabel hslot)⟩
  | openTrap _ _ _ _ hexit hsame =>
      exact ⟨labels, List.prefix_rfl, h.grow List.prefix_rfl hexit (h.length.trans hsame.symm),
        .single agrees_beginTry⟩
  | @closeTrap frame store _ htraps hexit hstore =>
      have hhandler := hhandlers frame (by rw [htraps]; exact List.mem_cons_self)
      obtain ⟨grown, hgrown, hlength, hlabel, hstore⟩ :=
        hstore.balanced_above scope.signature.ret h.length
      have hafter := h.grow hgrown hexit hlength
      exact ⟨grown, hgrown, hafter,
        balanced_closeTrap hstore hlabel (hafter.sources _ hhandler)⟩

end Instruction

/-! ## The run -/

theorem Emit.Begun.balanced {scope : Scope} {position : Nat} {before start : Progress}
    {head : List Instr} {module : TargetModule} {ret : TargetType} {labels : List Nat}
    (h : Begun scope position before start head)
    (hposition : labels[position]? = some 0) : Balanced module ret labels 0 head 0 := by
  obtain ⟨lines, hlines, hhead⟩ := h.form
  have hcode : Balanced module ret labels 0 lines 0 := by
    cases hlines with
    | none => exact .nil
    | point file line => exact .single (agrees_plain rfl ⟨Nat.le_refl _, rfl⟩)
  rcases hhead with ⟨-, rfl⟩ | ⟨-, rfl⟩
  · exact hcode
  · exact .cons (agrees_mark hposition) hcode

/-- The invariant in front of the instruction at a position: one assignment of
heights, which is zero in front of every instruction so far. -/
structure Progress.Level (scope : Scope) (position : Nat) (progress : Progress)
    (labels : List Nat) (height : Nat → Nat) : Prop extends progress.Labelled scope labels where
  handlers : ∀ frame ∈ progress.traps, frame.handler < scope.function.operations.length
  levels : Levels scope.registry.target scope.signature.ret labels height progress.builder.body
  starts : ∀ earlier ≤ position, ∀ reached, scope.Reaches earlier reached →
    reached.builder.body <+: progress.builder.body ∧ height reached.builder.body.length = 0

section Run

variable {scope : Scope} {position : Nat} {before after : Progress} {labels : List Nat}
  {height : Nat → Nat}

theorem Progress.Level.step (h : before.Level scope position labels height)
    (hscope : scope.Sound) (hposition : position < scope.function.operations.length)
    (hadmits : scope.Admits scope.function.operations[position])
    (hbefore : scope.Reaches position before) (hreaches : scope.Reaches (position + 1) after)
    {result : Unit}
    (hstep : Emit.instruction (scope.function.operations[position], position) scope before
      = .ok result after) :
    ∃ grown next, after.Level scope (position + 1) grown next := by
  obtain ⟨start, head, code, hbegun, hextends, hlowered⟩ :=
    Emit.instruction_ok (fun _ : True => hscope) (fun _ => hadmits)
      (Nat.lt_of_lt_of_le hposition (hbefore.bounded (Nat.le_of_lt hposition)).source) hstep
  have hhead : Balanced scope.registry.target scope.signature.ret labels 0 head 0 :=
    hbegun.balanced (h.sources position hposition)
  have hlabelled : start.Labelled scope labels :=
    h.toLabelled.grow List.prefix_rfl hbegun.exit (h.length.trans hbegun.labels.symm)
  have hhandlers : ∀ frame ∈ start.traps,
      frame.handler < scope.function.operations.length := by
    rw [hbegun.traps]
    exact h.handlers
  obtain ⟨grown, hgrown, hafter, hcode⟩ := hlowered.balanced hlabelled hhandlers
  obtain ⟨second, hzero, hend, hlevels⟩ := (hhead.mono hgrown).append hcode
  have hbody := (hbegun.toExtends.trans hextends).body
  have hmeet := (h.starts position (Nat.le_refl _) before hbefore).2
  refine ⟨grown, joined before.builder.body.length height second, hafter,
    hlowered.handlers hhandlers, ?_, ?_⟩
  · rw [hbody]
    exact (h.levels.mono hgrown).append hlevels (hmeet.trans hzero.symm)
  · intro earlier hearlier reached hreached
    rcases Nat.le_succ_iff.mp hearlier with hearlier | rfl
    · obtain ⟨hbegins, hlevel⟩ := h.starts earlier hearlier reached hreached
      refine ⟨hbegins.trans (by rw [hbody]; exact List.prefix_append _ _), ?_⟩
      exact joined_of_le hbegins.length_le hlevel hzero
    · obtain rfl := hreached.unique hreaches
      refine ⟨List.prefix_rfl, ?_⟩
      rw [hbody, List.length_append, joined, if_neg (by omega), Nat.add_sub_cancel_left, hend]

theorem Scope.Reaches.level (hscope : scope.Sound)
    (hadmits : ∀ op ∈ scope.function.operations, scope.Admits op)
    (hposition : position ≤ scope.function.operations.length)
    (h : scope.Reaches position after) :
    ∃ labels height, after.Level scope position labels height := by
  induction position generalizing after with
  | zero =>
      cases h
      refine ⟨List.replicate scope.function.operations.length 0, fun _ => 0,
        ⟨by simp [Scope.begin], ?_, nofun⟩, nofun, nofun, ?_⟩
      · intro label hlabel
        simp [hlabel]
      · intro earlier hearlier reached hreached
        obtain rfl : earlier = 0 := Nat.le_zero.mp hearlier
        cases hreached
        exact ⟨List.prefix_rfl, rfl⟩
  | succ position ih =>
      obtain ⟨before, hbefore, hstep⟩ := Scope.Reaches.succ hposition h
      obtain ⟨labels, height, hlevel⟩ := ih (by omega) hbefore
      exact hlevel.step hscope hposition (hadmits _ (List.getElem_mem hposition)) hbefore h hstep

end Run

/-! ## Whole bodies -/

/-- Heights of the places of the body of a method with the result `ret`, with
the height behind the last place. -/
structure Heights (module : TargetModule) (ret : TargetType) (body : List Instr)
    (height : Nat → Nat) : Prop where
  /-- No instruction takes more than there is. -/
  pops : ∀ (i : Nat) instr, body[i]? = some instr → instr.pops module ≤ height i
  /-- Where control goes on, the instruction has had its effect. -/
  next : ∀ (i : Nat) instr, body[i]? = some instr → instr.isTerminator = false →
    height (i + 1) = instr.heightAfter module (height i)
  /-- Where control jumps, the operands of the jump are gone. -/
  jump : ∀ (i j : Nat) instr label, body[i]? = some instr → label ∈ instr.targets →
    body[j]? = some (.markLabel label) → height j = height i - instr.pops module
  beginTry : ∀ i : Nat, body[i]? = some .beginTry → height i = 0
  leave : ∀ (i : Nat) label, body[i]? = some (.leave label) → height i = 0
  /-- A return finds the result and nothing else. -/
  ret : ∀ i : Nat, body[i]? = some .ret → height i = ret.slots

theorem Levels.heights {module : TargetModule} {ret : TargetType} {labels : List Nat}
    {height : Nat → Nat} {body : List Instr} (h : Levels module ret labels height body) :
    Heights module ret body height := by
  refine ⟨fun i instr hinstr => (h i instr hinstr).pops,
    fun i instr hinstr => (h i instr hinstr).next, ?_,
    fun i hinstr => (h i _ hinstr).bare (Or.inl rfl),
    fun i label hinstr => (h i _ hinstr).bare (Or.inr rfl), fun i hinstr => (h i _ hinstr).ret rfl⟩
  intro i j instr label hinstr hlabel hmark
  have htarget := (h i instr hinstr).targets label hlabel
  rw [(h j _ hmark).mark label rfl] at htarget
  exact Option.some.inj htarget

theorem Emit.exitBlock_balanced {module : TargetModule} {ret : TargetType} {labels : List Nat}
    (exit : Option ReturnExit) (h : ∀ found, exit = some found →
      labels[found.label]? = some 0 ∧ found.slot.toList.length = ret.slots) :
    Balanced module ret labels 0 (exitBlock exit) 0 := by
  cases exit with
  | none => exact .nil
  | some exit =>
      obtain ⟨hlabel, hslot⟩ := h exit rfl
      refine .cons (agrees_mark hlabel) ?_
      have hret : Balanced module ret labels ret.slots [.ret] 0 := .single agrees_ret
      rw [← hslot] at hret
      cases hfound : exit.slot with
      | none =>
          rw [hfound] at hret
          simpa [exitCode, hfound] using hret
      | some slot =>
          rw [hfound] at hret
          have hload : Instr.Agrees module ret labels (.ldLoc slot) 0 1 :=
            agrees_plain rfl ⟨Nat.zero_le _, rfl⟩
          simpa [exitCode, hfound] using Balanced.cons hload hret

/-- The body of a function is emitted with one height for each place, which is
zero in front of the code of every instruction. -/
theorem Scope.exists_heights {scope : Scope} {body : MethodBody} {stats : BodyStats}
    {final : Progress} (hscope : scope.Sound)
    (hadmits : ∀ op ∈ scope.function.operations, scope.Admits op)
    (h : Emit.body scope scope.begin = .ok (body, stats) final) :
    ∃ height, Heights scope.registry.target scope.signature.ret body.body height ∧
      ∀ position ≤ scope.function.operations.length, ∀ reached,
        scope.Reaches position reached →
          reached.builder.body <+: body.body ∧ height reached.builder.body.length = 0 := by
  obtain ⟨last, hlast, -, hbody, -⟩ := Emit.body_ok h
  obtain ⟨labels, height, hlevel⟩ := hlast.level hscope hadmits (Nat.le_refl _)
  obtain ⟨second, hzero, -, hexit⟩ : Balanced scope.registry.target scope.signature.ret labels 0
      (Emit.exitBlock last.returnExit) 0 :=
    Emit.exitBlock_balanced last.returnExit hlevel.exit
  have hmeet := (hlevel.starts _ (Nat.le_refl _) last hlast).2
  refine ⟨joined last.builder.body.length height second, ?_, ?_⟩
  · rw [hbody]
    exact (hlevel.levels.append hexit (hmeet.trans hzero.symm)).heights
  · intro position hposition reached hreached
    obtain ⟨hbegins, hstart⟩ := hlevel.starts position hposition reached hreached
    refine ⟨hbegins.trans (by rw [hbody]; exact List.prefix_append _ _), ?_⟩
    exact joined_of_le hbegins.length_le hstart hzero

end BytecodeLowering
