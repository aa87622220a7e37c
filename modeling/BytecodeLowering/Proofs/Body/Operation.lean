import BytecodeLowering.Proofs.Body.Templates

/-!
# What one instruction becomes

Most instructions become a fragment; the others branch, return, throw, or bound
a protected region.  `Lowered` lists the forms once, and every statement about
whole bodies is derived from the list.
-/

namespace BytecodeLowering

/-! ## Registers that are written -/

/-- Instructions that store a value in the register of their first parameter;
the end of a trap stores what was caught. -/
def Opcode.writes : Opcode → Bool
  | .setGlobal | .setField | .setThis | .dynSet | .jTrue | .jFalse | .jNull | .jNotNull | .jSLt
  | .jSGte | .jSGt | .jSLte | .jULt | .jUGte | .jNotLt | .jNotGte | .jEq | .jNotEq | .jAlways
  | .label | .ret | .throw | .rethrow | .switch | .nullCheck | .setI8 | .setI16 | .setMem
  | .setArray | .setref | .setEnumField | .assert | .refData | .refOffset | .nop | .prefetch
  | .asm => false
  | _ => true

def Scope.calledResult? (scope : Scope) (op : Operation) : Option TargetType :=
  match op.opcode with
  | .call0 | .call1 | .call2 | .call3 | .call4 | .callN =>
      ((op.param 1).toNat?.bind scope.registry.function?).map (·.signature.ret)
  | .callMethod =>
      op.callArguments.head?.bind fun receiver =>
        (scope.registry.calledSignature? (scope.sourceIndex receiver) (op.param 1)).map (·.ret)
  | .callThis =>
      (scope.registry.calledSignature? (scope.sourceIndex 0) (op.param 1)).map (·.ret)
  | .callClosure => (scope.typeOf? (op.param 1)).bind Emit.closureResult?
  | _ => none

/-- A void register is written only by a null or by a call that returns
nothing. -/
def Scope.Admits (scope : Scope) (op : Operation) : Prop :=
  op.opcode.writes = true → scope.typeOf? (op.param 0) = some .void →
    op.opcode = .null ∨ scope.calledResult? op = some .void

theorem Scope.Admits.stores {scope : Scope} {op : Operation} (h : scope.Admits op)
    (hwrites : op.opcode.writes = true) (hnull : op.opcode ≠ .null)
    (hresult : scope.calledResult? op ≠ some .void) : scope.Stores (op.param 0) := by
  intro hvoid
  rcases h hwrites hvoid with hopcode | hcalled
  · exact hnull hopcode
  · exact hresult hcalled

/-! ## The forms of lowered instructions -/

/-- Control stays in the innermost open trap when it goes to the instruction at
a position. -/
def Progress.Stays (progress : Progress) (target : Nat) : Prop :=
  ∀ frame ∈ progress.traps.head?, frame.region.contains target = true

/-- An instruction that opens and closes no trap and makes no exit. -/
structure Progress.Stands (op : Operation) (before after : Progress) : Prop where
  opcode : op.opcode ≠ .trap ∧ op.opcode ≠ .endTrap
  traps : after.traps = before.traps
  exit : after.returnExit = before.returnExit

inductive Test : (Label → Instr) → Nat → Prop
  | brTrue : Test .brTrue 1
  | brFalse : Test .brFalse 1
  | branch (comparison : Comparison) : Test (.branch comparison) 2

theorem Test.ne_mark {make : Label → Instr} {operands : Nat} (h : Test make operands)
    {target : Label} (label : Label) : .markLabel label ≠ make target := by
  cases h <;> nofun

def exitsCode (exits : List (Label × Label)) : List Instr :=
  exits.flatMap fun exit => [.markLabel exit.1, .leave exit.2]

def Operation.targetsAt (op : Operation) (position : Nat) : List Int :=
  op.branchOffsets.map (Operation.branchTarget position)

/-- The labels of a jump table with the positions to which they lead, directly
or through one of the leave instructions behind the table. -/
inductive Routes (exits : List (Label × Label)) : List Label → List Int → Prop
  | nil : Routes exits [] []
  | direct {label : Label} {labels : List Label} {targets : List Int}
      (hrest : Routes exits labels targets) :
      Routes exits (label :: labels) ((label : Int) :: targets)
  | leave {exit : Label × Label} {labels : List Label} {targets : List Int}
      (hexit : exit ∈ exits) (hrest : Routes exits labels targets) :
      Routes exits (exit.1 :: labels) ((exit.2 : Int) :: targets)

inductive Lowered (typed : Prop) (scope : Scope) (op : Operation) (before after : Progress) :
    List Instr → Prop
  | straight {code : List Instr} (hstands : before.Stands op after)
      (hcode : Fragment typed scope.registry.target before.builder.labels.length 0 code 0
        after.builder.labels.length)
      (hidle : op.branchOffsets = [] ∨ op.opcode = .jNull ∧ code = []) :
      Lowered typed scope op before after code
  | thrown {code : List Instr} (hstands : before.Stands op after)
      (hcode : Fragment typed scope.registry.target before.builder.labels.length 0 code 1
        after.builder.labels.length)
      (hoffsets : op.branchOffsets = []) :
      Lowered typed scope op before after (code ++ [Instr.throw])
  | check {load make : List Instr} {middle : Nat} (hstands : before.Stands op after)
      (hload : Fragment typed scope.registry.target (before.builder.labels.length + 1) 0 load 1
        middle)
      (hmake : Fragment typed scope.registry.target middle 0 make 1
        after.builder.labels.length)
      (hoffsets : op.branchOffsets = []) :
      Lowered typed scope op before after
        (load ++ [Instr.brTrue before.builder.labels.length] ++ make
          ++ [Instr.throw, .markLabel before.builder.labels.length])
  | jump {target : Nat} (hstands : before.Stands op after)
      (hlabels : after.builder.labels.length = before.builder.labels.length)
      (htarget : target < scope.function.operations.length) (hstays : before.Stays target)
      (hsource : op.targetsAt before.position = [(target : Int)]) :
      Lowered typed scope op before after [.br target]
  | leave {target : Nat} (hstands : before.Stands op after)
      (hlabels : after.builder.labels.length = before.builder.labels.length)
      (htarget : target < scope.function.operations.length)
      (hsource : op.targetsAt before.position = [(target : Int)]) :
      Lowered typed scope op before after [.leave target]
  | test {load : List Instr} {make : Label → Instr} {operands target : Nat}
      (hstands : before.Stands op after) (hmake : Test make operands)
      (hload : Fragment typed scope.registry.target before.builder.labels.length 0 load operands
        after.builder.labels.length)
      (htarget : target < scope.function.operations.length) (hstays : before.Stays target)
      (hsource : op.targetsAt before.position = [(target : Int)]) :
      Lowered typed scope op before after (load ++ [make target])
  | testOut {load : List Instr} {make : Label → Instr} {operands target middle : Nat}
      (hstands : before.Stands op after) (hmake : Test make operands)
      (hload : Fragment typed scope.registry.target before.builder.labels.length 0 load operands
        middle)
      (hlabels : after.builder.labels.length = middle + 2)
      (htarget : target < scope.function.operations.length)
      (hsource : op.targetsAt before.position = [(target : Int)]) :
      Lowered typed scope op before after
        (load ++ [make middle, .br (middle + 1), .markLabel middle, .leave target,
          .markLabel (middle + 1)])
  | table {load : List Instr} {labels : List Label} {middle : Nat}
      (hstands : before.Stands op after)
      (hload : Fragment typed scope.registry.target before.builder.labels.length 0 load 1 middle)
      (hmiddle : middle ≤ after.builder.labels.length)
      (hlabels : ∀ label ∈ labels,
        label < scope.function.operations.length ∧ before.Stays label)
      (hroutes : Routes [] labels (op.targetsAt before.position)) :
      Lowered typed scope op before after (load ++ [Instr.switch labels])
  | tableOut {load : List Instr} {labels : List Label} {exits : List (Label × Label)}
      {middle skip : Nat} (hstands : before.Stands op after)
      (hload : Fragment typed scope.registry.target before.builder.labels.length 0 load 1 middle)
      (hmiddle : middle ≤ skip) (hskip : after.builder.labels.length = skip + 1)
      (hlabels : ∀ label ∈ labels,
        label < scope.function.operations.length ∧ before.Stays label ∨
          label ∈ exits.map Prod.fst)
      (hexits : ∀ exit ∈ exits, middle ≤ exit.1 ∧ exit.1 < skip ∧
        exit.2 < scope.function.operations.length)
      (hroutes : Routes exits labels (op.targetsAt before.position))
      (hsource : ∀ exit ∈ exits, (exit.2 : Int) ∈ op.targetsAt before.position)
      (hdistinct : (exits.map Prod.fst).Nodup) :
      Lowered typed scope op before after
        (load ++ [Instr.switch labels, .br skip] ++ exitsCode exits ++ [Instr.markLabel skip])
  | ret {load : List Instr} (hstands : before.Stands op after) (hclosed : before.traps = [])
      (hload : Fragment typed scope.registry.target before.builder.labels.length 0 load
        scope.signature.ret.slots after.builder.labels.length)
      (hoffsets : op.branchOffsets = []) :
      Lowered typed scope op before after (load ++ [Instr.ret])
  | exit {load : List Instr} {exit : ReturnExit} {middle : Nat}
      (hopcode : op.opcode = .ret) (htraps : after.traps = before.traps)
      (hload : Fragment typed scope.registry.target before.builder.labels.length 0 load
        scope.signature.ret.slots middle)
      (hexit : after.returnExit = some exit)
      (hsame : before.returnExit = some exit ∧ after.builder.labels.length = middle ∨
        before.returnExit = none ∧ exit.label = middle ∧
          after.builder.labels.length = middle + 1 ∧
          exit.slot.toList.length = scope.signature.ret.slots) :
      Lowered typed scope op before after
        (load ++ exit.slot.toList.map .stLoc ++ [Instr.leave exit.label])
  | openTrap {frame : TrapFrame} (hopcode : op.opcode = .trap)
      (hregion : scope.flow.regionAt? before.position = some frame.region)
      (hhandler : frame.handler < scope.function.operations.length)
      (htraps : after.traps = frame :: before.traps)
      (hexit : after.returnExit = before.returnExit)
      (hlabels : after.builder.labels.length = before.builder.labels.length)
      (hsource : op.targetsAt before.position = [(frame.handler : Int)]) :
      Lowered typed scope op before after [.beginTry]
  | closeTrap {frame : TrapFrame} {store : List Instr} (hopcode : op.opcode = .endTrap)
      (htraps : before.traps = frame :: after.traps)
      (hexit : after.returnExit = before.returnExit)
      (hstore : Fragment typed scope.registry.target (before.builder.labels.length + 1) 1 store 0
        after.builder.labels.length) :
      Lowered typed scope op before after
        ([Instr.leave before.builder.labels.length, .beginCatch .any] ++ store
          ++ [Instr.leave frame.handler, .endTry, .markLabel before.builder.labels.length])

namespace Emit

variable {typed : Prop} {scope : Scope} {op : Operation} {before after : Progress}

def Becomes (typed : Prop) (scope : Scope) (op : Operation) (before after : Progress) : Prop :=
  ∃ code, before.Extends after code ∧ Lowered typed scope op before after code

theorem Emits.becomes {step : Emit Unit} (h : Emits typed scope step 0 0)
    (hopcode : op.opcode ≠ .trap ∧ op.opcode ≠ .endTrap) (hoffsets : op.branchOffsets = [])
    {result : Unit} (hstep : step scope before = .ok result after) :
    Becomes typed scope op before after := by
  obtain ⟨-, code, happends, hcode⟩ := h.ok before result after hstep
  exact ⟨code, happends.toExtends,
    .straight ⟨hopcode, happends.traps, happends.exit⟩ hcode (Or.inl hoffsets)⟩

/-! ## Jumps -/

theorem stays_of_leavesTrap {offset : Int} {target : Nat}
    (htarget : (Operation.branchTarget before.position offset).toNat? = some target)
    (h : leavesTrap before offset = false) : before.Stays target := by
  intro frame hframe
  obtain ⟨others, htraps⟩ := List.head?_eq_some_iff.mp hframe
  unfold leavesTrap at h
  -- the arithmetic of the target must stay closed, so it gives way to its value
  generalize (Operation.branchTarget before.position offset).toNat? = found at h htarget
  subst htarget
  simpa [htraps] using h

theorem branchLabel_ok {offset : Int} {target : Label}
    (h : branchLabel offset scope before = .ok target after) :
    before = after ∧ target < scope.function.operations.length ∧
      Operation.branchTarget before.position offset = target ∧
      (leavesTrap before offset = false → before.Stays target) := by
  obtain ⟨_, _, hget, h⟩ := bind_ok h
  obtain ⟨rfl, rfl⟩ := get_ok hget
  cases hposition : (Operation.branchTarget before.position offset).toNat? with
  | none =>
      simp only [hposition] at h
      cases h
  | some position =>
      simp only [hposition] at h
      obtain ⟨_, _, hread, h⟩ := bind_ok h
      obtain ⟨rfl, rfl⟩ := read_ok hread
      split at h
      · rename_i hlt
        cases h
        exact ⟨rfl, hlt, Int.mem_toNat?.mp hposition, stays_of_leavesTrap hposition⟩
      · cases h

theorem targetsAt_of_single {position : Nat} {offset : Int} {target : Nat}
    (hoffsets : op.branchOffsets = [offset])
    (h : Operation.branchTarget position offset = target) :
    op.targetsAt position = [(target : Int)] := by
  rw [Operation.targetsAt, hoffsets, List.map_singleton, h]

theorem jump_becomes {offset : Int} {result : Unit}
    (hopcode : op.opcode ≠ .trap ∧ op.opcode ≠ .endTrap)
    (hoffsets : op.branchOffsets = [offset])
    (h : jump offset scope before = .ok result after) : Becomes typed scope op before after := by
  obtain ⟨target, middle, hlabel, h⟩ := bind_ok h
  obtain ⟨rfl, htarget, hleads, hstays⟩ := branchLabel_ok hlabel
  have hsource := targetsAt_of_single hoffsets hleads
  obtain ⟨_, _, hget, h⟩ := bind_ok h
  obtain ⟨rfl, rfl⟩ := get_ok hget
  have hmark (label : Label) : Instr.markLabel label
      ≠ if leavesTrap before offset then .leave target else .br target := by
    split <;> nofun
  obtain ⟨happends, hlabels⟩ := emit_ok h hmark
  have hstands : before.Stands op after := ⟨hopcode, happends.traps, happends.exit⟩
  refine ⟨_, happends.toExtends, ?_⟩
  split
  · exact .leave hstands hlabels htarget hsource
  · rename_i hinside
    exact .jump hstands hlabels htarget (hstays (by simpa using hinside)) hsource

theorem branch_becomes {offset : Int} {make : Label → Instr} {operands : Nat} {load : List Instr}
    {middle : Progress} {result : Unit} (hopcode : op.opcode ≠ .trap ∧ op.opcode ≠ .endTrap)
    (hoffsets : op.branchOffsets = [offset]) (hmake : Test make operands)
    (hbefore : before.Appends middle load)
    (hload : Fragment typed scope.registry.target before.builder.labels.length 0 load operands
      middle.builder.labels.length)
    (h : branch offset make scope middle = .ok result after) :
    Becomes typed scope op before after := by
  obtain ⟨target, p₁, hlabel, h⟩ := bind_ok h
  obtain ⟨rfl, htarget, hleads, hstays⟩ := branchLabel_ok hlabel
  rw [hbefore.position] at hleads
  have hsource := targetsAt_of_single hoffsets hleads
  obtain ⟨_, _, hget, h⟩ := bind_ok h
  obtain ⟨rfl, rfl⟩ := get_ok hget
  split at h
  · obtain ⟨taken, p₁, h₁, h⟩ := bind_ok h
    obtain ⟨skip, p₂, h₂, h⟩ := bind_ok h
    obtain ⟨_, p₃, h₃, h⟩ := bind_ok h
    obtain ⟨_, p₄, h₄, h⟩ := bind_ok h
    obtain ⟨_, p₅, h₅, h⟩ := bind_ok h
    obtain ⟨_, p₆, h₆, h₇⟩ := bind_ok h
    obtain ⟨rfl, a₁, l₁⟩ := newLabel_ok h₁
    obtain ⟨rfl, a₂, l₂⟩ := newLabel_ok h₂
    obtain ⟨a₃, l₃⟩ := emit_ok h₃ hmake.ne_mark
    obtain ⟨a₄, l₄⟩ := emit_ok h₄ (Instr.ne_mark rfl)
    obtain ⟨a₅, l₅⟩ := mark_ok h₅ (by omega)
    obtain ⟨a₆, l₆⟩ := emit_ok h₆ (Instr.ne_mark rfl)
    obtain ⟨a₇, l₇⟩ := mark_ok h₇ (by omega)
    have hall := (((((((hbefore.trans a₁).trans a₂).trans a₃).trans a₄).trans a₅).trans a₆).trans a₇)
    have hstands : before.Stands op after := ⟨hopcode, hall.traps, hall.exit⟩
    have hlabels : after.builder.labels.length = middle.builder.labels.length + 2 := by omega
    refine ⟨_, ?_, .testOut hstands hmake hload hlabels htarget hsource⟩
    simpa [l₁] using hall.toExtends
  · rename_i hinside
    obtain ⟨happends, hlabels⟩ := emit_ok h hmake.ne_mark
    have hall := hbefore.trans happends
    refine ⟨_, hall.toExtends, .test ⟨hopcode, hall.traps, hall.exit⟩ hmake ?_ htarget ?_ hsource⟩
    · rw [hlabels]
      exact hload
    · have hstays := hstays (by simpa using hinside)
      rwa [Progress.Stays, hbefore.traps] at hstays

/-! ## Jump tables -/

/-- An entry of a jump table stays inside, or goes to a new label from which
control leaves. -/
def EntrySound (scope : Scope) (progress : Progress) (first next : Nat)
    (entry : Label × Option (Label × Label)) : Prop :=
  match entry.2 with
  | none => entry.1 < scope.function.operations.length ∧ progress.Stays entry.1
  | some (taken, target) =>
      entry.1 = taken ∧ first ≤ taken ∧ taken < next ∧
        target < scope.function.operations.length

def entryTarget (entry : Label × Option (Label × Label)) : Int :=
  match entry.2 with
  | none => entry.1
  | some exit => exit.2

theorem switchEntry_ok {offset : Int} {entry : Label × Option (Label × Label)}
    (h : switchEntry offset scope before = .ok entry after) :
    before.Appends after [] ∧
      Operation.branchTarget before.position offset = entryTarget entry ∧
      EntrySound scope before before.builder.labels.length after.builder.labels.length entry := by
  obtain ⟨target, _, hlabel, h⟩ := bind_ok h
  obtain ⟨rfl, htarget, hleads, hstays⟩ := branchLabel_ok hlabel
  obtain ⟨_, _, hget, h⟩ := bind_ok h
  obtain ⟨rfl, rfl⟩ := get_ok hget
  split at h
  · obtain ⟨taken, middle, hnew, h⟩ := bind_ok h
    obtain ⟨rfl, happends, hlabels⟩ := newLabel_ok hnew
    cases h
    exact ⟨happends, hleads, rfl, Nat.le_refl _,
      Nat.lt_of_lt_of_eq (Nat.lt_succ_self _) hlabels.symm, htarget⟩
  · rename_i hinside
    cases h
    exact ⟨.refl _, hleads, htarget, hstays (by simpa using hinside)⟩

theorem EntrySound.weaken {progress other : Progress} {first next low high : Nat}
    {entry : Label × Option (Label × Label)} (h : EntrySound scope progress first next entry)
    (htraps : other.traps = progress.traps) (hlow : low ≤ first) (hhigh : next ≤ high) :
    EntrySound scope other low high entry := by
  obtain ⟨label, exit⟩ := entry
  cases exit with
  | none => exact ⟨h.1, by rw [Progress.Stays, htraps]; exact h.2⟩
  | some exit =>
      obtain ⟨hsame, hfirst, hnext, htarget⟩ := h
      exact ⟨hsame, Nat.le_trans hlow hfirst, Nat.lt_of_lt_of_le hnext hhigh, htarget⟩

theorem exits_sound {progress : Progress} {first next : Nat}
    {entries : List (Label × Option (Label × Label))}
    (h : ∀ entry ∈ entries, EntrySound scope progress first next entry) :
    ∀ exit ∈ entries.filterMap Prod.snd, first ≤ exit.1 ∧ exit.1 < next ∧
      exit.2 < scope.function.operations.length := by
  intro exit hexit
  obtain ⟨⟨label, found⟩, hentry, hfound⟩ := List.mem_filterMap.mp hexit
  obtain rfl : found = some exit := hfound
  obtain ⟨-, hfirst, hnext, htarget⟩ := h _ hentry
  exact ⟨hfirst, hnext, htarget⟩

theorem switchEntries_ok {offsets : List Int} {entries : List (Label × Option (Label × Label))}
    (h : offsets.mapM switchEntry scope before = .ok entries after) :
    before.Appends after [] ∧
      offsets.map (Operation.branchTarget before.position) = entries.map entryTarget ∧
      ((entries.filterMap Prod.snd).map Prod.fst).Nodup ∧
      ∀ entry ∈ entries,
        EntrySound scope before before.builder.labels.length after.builder.labels.length entry := by
  induction offsets generalizing before entries with
  | nil =>
      cases h
      exact ⟨.refl _, rfl, List.nodup_nil, nofun⟩
  | cons offset offsets ih =>
      rw [List.mapM_cons] at h
      obtain ⟨entry, p₁, hentry, h⟩ := bind_ok h
      obtain ⟨others, p₂, hothers, h⟩ := bind_ok h
      cases h
      obtain ⟨happends, hleads, hsound⟩ := switchEntry_ok hentry
      obtain ⟨hmore, hmoreLeads, hdistinct, hall⟩ := ih hothers
      refine ⟨happends.trans hmore, ?_, ?_, ?_⟩
      · rw [List.map_cons, List.map_cons, hleads, ← hmoreLeads, happends.position]
      · obtain ⟨label, exit⟩ := entry
        cases exit with
        | none => exact hdistinct
        | some exit =>
            refine List.nodup_cons.mpr ⟨?_, hdistinct⟩
            -- the labels of later entries are handed out later
            intro hexit
            obtain ⟨other, hother, hsame⟩ := List.mem_map.mp hexit
            have hlater := (exits_sound hall other hother).1
            have hearlier : exit.1 < p₁.builder.labels.length := hsound.2.2.1
            rw [hsame] at hlater
            exact absurd hearlier (Nat.not_lt_of_le hlater)
      · intro other hother
        rcases List.mem_cons.mp hother with rfl | hother
        · exact hsound.weaken rfl (Nat.le_refl _) hmore.grows
        · exact (hall other hother).weaken happends.traps.symm happends.grows (Nat.le_refl _)

theorem emitExits_ok {exits : List (Label × Label)} {result : PUnit}
    (hexits : ∀ exit ∈ exits, exit.1 < before.builder.labels.length)
    (h : exits.forM emitExit scope before = .ok result after) :
    before.Appends after (exitsCode exits) ∧
      after.builder.labels.length = before.builder.labels.length := by
  induction exits generalizing before with
  | nil =>
      cases h
      exact ⟨.refl _, rfl⟩
  | cons exit exits ih =>
      obtain ⟨_, p₁, hexit, h⟩ := bind_ok h
      obtain ⟨_, p₂, hmark, hleave⟩ := bind_ok hexit
      obtain ⟨a₂, l₂⟩ := mark_ok hmark (hexits exit List.mem_cons_self)
      obtain ⟨a₁, l₁⟩ := emit_ok hleave (Instr.ne_mark rfl)
      have hothers : ∀ other ∈ exits, other.1 < p₁.builder.labels.length := by
        intro other hother
        rw [l₁, l₂]
        exact hexits other (List.mem_cons_of_mem _ hother)
      obtain ⟨hmore, hlabels⟩ := ih hothers h
      refine ⟨?_, by omega⟩
      simpa [exitsCode] using (a₂.trans a₁).trans hmore

theorem mem_labels_or_exits {progress : Progress} {first next : Nat}
    {entries : List (Label × Option (Label × Label))}
    (h : ∀ entry ∈ entries, EntrySound scope progress first next entry) :
    ∀ label ∈ entries.map Prod.fst,
      label < scope.function.operations.length ∧ progress.Stays label ∨
        label ∈ (entries.filterMap Prod.snd).map Prod.fst := by
  intro label hlabel
  obtain ⟨⟨_, exit⟩, hentry, rfl⟩ := List.mem_map.mp hlabel
  have hsound := h _ hentry
  cases exit with
  | none => exact Or.inl hsound
  | some exit =>
      have hsame : _ = exit.1 := hsound.1
      exact Or.inr (List.mem_map.mpr ⟨exit, List.mem_filterMap.mpr ⟨_, hentry, rfl⟩, hsame.symm⟩)

theorem routes_of_sound {progress : Progress} {first next : Nat} {exits : List (Label × Label)}
    {entries : List (Label × Option (Label × Label))}
    (h : ∀ entry ∈ entries, EntrySound scope progress first next entry)
    (hexits : ∀ exit ∈ entries.filterMap Prod.snd, exit ∈ exits) :
    Routes exits (entries.map Prod.fst) (entries.map entryTarget) := by
  induction entries with
  | nil => exact .nil
  | cons entry entries ih =>
      obtain ⟨label, exit⟩ := entry
      have hsound := h _ List.mem_cons_self
      have hrest := ih (fun other hother => h other (List.mem_cons_of_mem _ hother))
      cases exit with
      | none => exact .direct (hrest hexits)
      | some exit =>
          obtain rfl : label = exit.1 := hsound.1
          exact .leave (hexits exit List.mem_cons_self)
            (hrest fun other hother => hexits other (List.mem_cons_of_mem _ hother))

theorem entryTarget_mem {entries : List (Label × Option (Label × Label))} :
    ∀ exit ∈ entries.filterMap Prod.snd, (exit.2 : Int) ∈ entries.map entryTarget := by
  intro exit hexit
  obtain ⟨⟨label, found⟩, hentry, hfound⟩ := List.mem_filterMap.mp hexit
  obtain rfl : found = some exit := hfound
  exact List.mem_map.mpr ⟨_, hentry, rfl⟩

theorem switch_becomes {offsets : List Int} {load : List Instr} {middle : Progress}
    {result : Unit} (hopcode : op.opcode ≠ .trap ∧ op.opcode ≠ .endTrap)
    (hoffsets : op.branchOffsets = offsets) (hbefore : before.Appends middle load)
    (hload : Fragment typed scope.registry.target before.builder.labels.length 0 load 1
      middle.builder.labels.length)
    (h : switch offsets scope middle = .ok result after) : Becomes typed scope op before after := by
  obtain ⟨entries, p₁, hentries, h⟩ := bind_ok h
  obtain ⟨_, p₂, hemit, h⟩ := bind_ok h
  obtain ⟨a₁, hleads, hdistinct, hmiddle⟩ := switchEntries_ok hentries
  obtain ⟨a₂, l₂⟩ := emit_ok hemit (Instr.ne_mark rfl)
  have hle := a₁.grows
  have hsound : ∀ entry ∈ entries, EntrySound scope before middle.builder.labels.length
      p₂.builder.labels.length entry := fun entry hentry =>
    (hmiddle entry hentry).weaken hbefore.traps.symm (Nat.le_refl _) (Nat.le_of_eq l₂.symm)
  have hlabels := mem_labels_or_exits hsound
  have hexits := exits_sound hsound
  have hsource : op.targetsAt before.position = entries.map entryTarget := by
    rw [Operation.targetsAt, hoffsets, ← hbefore.position, hleads]
  have hroutes : Routes (entries.filterMap Prod.snd) (entries.map Prod.fst)
      (op.targetsAt before.position) := by
    rw [hsource]
    exact routes_of_sound hsound fun _ hexit => hexit
  dsimp only at h
  split at h
  · obtain ⟨skip, p₃, hskip, h⟩ := bind_ok h
    obtain ⟨_, p₄, hjump, h⟩ := bind_ok h
    obtain ⟨_, p₅, hleave, hmark⟩ := bind_ok h
    obtain ⟨rfl, a₃, l₃⟩ := newLabel_ok hskip
    obtain ⟨a₄, l₄⟩ := emit_ok hjump (Instr.ne_mark rfl)
    have hnew : ∀ exit ∈ entries.filterMap Prod.snd, exit.1 < p₄.builder.labels.length := by
      intro exit hexit
      rw [l₄, l₃]
      exact Nat.lt_succ_of_lt (hexits exit hexit).2.1
    obtain ⟨a₅, l₅⟩ := emitExits_ok hnew hleave
    obtain ⟨a₆, l₆⟩ := mark_ok hmark (by omega)
    have hall := (((((hbefore.trans a₁).trans a₂).trans a₃).trans a₄).trans a₅).trans a₆
    refine ⟨_, ?_, .tableOut ⟨hopcode, hall.traps, hall.exit⟩ hload (by omega)
      (by omega : after.builder.labels.length = p₂.builder.labels.length + 1) hlabels
      hexits hroutes (hsource ▸ entryTarget_mem) hdistinct⟩
    simpa using hall.toExtends
  · rename_i hnone
    have hempty : entries.filterMap Prod.snd = [] := by simpa using hnone
    rw [hempty] at hroutes
    cases h
    have hall := (hbefore.trans a₁).trans a₂
    rw [List.append_nil] at hall
    refine ⟨_, hall.toExtends,
      .table ⟨hopcode, hall.traps, hall.exit⟩ hload (by omega) ?_ hroutes⟩
    intro label hlabel
    simpa [hempty] using hlabels label hlabel

/-! ## Returns -/

theorem returnExit_ok {ret : TargetType} {exit : ReturnExit}
    (h : returnExit ret scope before = .ok exit after) :
    before.Extends after [] ∧ after.traps = before.traps ∧ after.returnExit = some exit ∧
      (before.returnExit = some exit ∧ after = before ∨
        before.returnExit = none ∧ exit.label = before.builder.labels.length ∧
          after.builder.labels.length = before.builder.labels.length + 1 ∧
          exit.slot.toList.length = ret.slots) := by
  obtain ⟨_, _, hget, h⟩ := bind_ok h
  obtain ⟨rfl, rfl⟩ := get_ok hget
  cases hfound : before.returnExit with
  | some found =>
      simp only [hfound] at h
      cases h
      exact ⟨(Progress.Appends.refl before).toExtends, rfl, hfound, Or.inl ⟨rfl, rfl⟩⟩
  | none =>
      simp only [hfound] at h
      obtain ⟨label, p₁, hlabel, h⟩ := bind_ok h
      obtain ⟨rfl, a₁, l₁⟩ := newLabel_ok hlabel
      by_cases hvoid : ret = .void
      · rw [if_pos hvoid] at h
        obtain ⟨slot, p₂, hslot, h⟩ := bind_ok h
        cases hslot
        obtain ⟨_, p₃, hmodify, h⟩ := bind_ok h
        cases hmodify
        cases h
        refine ⟨⟨a₁.body, a₁.marked, a₁.grows⟩, a₁.traps, rfl, Or.inr ⟨rfl, rfl, l₁, ?_⟩⟩
        simp [TargetType.slots, hvoid]
      · rw [if_neg hvoid] at h
        obtain ⟨slot, p₂, hslot, h⟩ := bind_ok h
        cases hslot
        obtain ⟨_, p₃, hmodify, h⟩ := bind_ok h
        cases hmodify
        cases h
        refine ⟨⟨a₁.body, a₁.marked, a₁.grows⟩, a₁.traps, rfl, Or.inr ⟨rfl, rfl, l₁, ?_⟩⟩
        simp [TargetType.slots, hvoid]

theorem returnValue_becomes {load : List Instr} {middle : Progress} {result : Unit}
    (hopcode : op.opcode = .ret) (hbefore : before.Appends middle load)
    (hload : Fragment typed scope.registry.target before.builder.labels.length 0 load
      scope.signature.ret.slots middle.builder.labels.length)
    (h : (do
      if (← get).traps.isEmpty then emit .ret
      else
        let exit ← returnExit scope.signature.ret
        if let some slot := exit.slot then emit (.stLoc slot)
        emit (.leave exit.label) : Emit Unit) scope middle = .ok result after) :
    Becomes typed scope op before after := by
  obtain ⟨_, _, hget, h⟩ := bind_ok h
  obtain ⟨rfl, rfl⟩ := get_ok hget
  split at h
  · rename_i hempty
    obtain ⟨happends, hlabels⟩ := emit_ok h (Instr.ne_mark rfl)
    have hall := hbefore.trans happends
    have hclosed : before.traps = [] := by
      rw [hbefore.traps] at hempty
      simpa using hempty
    rw [← hlabels] at hload
    exact ⟨_, hall.toExtends,
      .ret ⟨by simp [hopcode], hall.traps, hall.exit⟩ hclosed hload
        (by simp [Operation.branchOffsets, hopcode])⟩
  · obtain ⟨exit, p₁, hexit, h⟩ := bind_ok h
    obtain ⟨e₁, t₁, x₁, hsame⟩ := returnExit_ok hexit
    have hstore : ∃ p₂, p₁.Appends p₂ (exit.slot.toList.map .stLoc) ∧
        p₂.builder.labels.length = p₁.builder.labels.length ∧
        emit (.leave exit.label) scope p₂ = .ok result after := by
      cases hslot : exit.slot with
      | none =>
          simp only [hslot] at h
          exact ⟨p₁, .refl p₁, rfl, h⟩
      | some slot =>
          simp only [hslot] at h
          obtain ⟨_, p₂, hemit, h⟩ := bind_ok h
          obtain ⟨a₂, l₂⟩ := emit_ok hemit (Instr.ne_mark rfl)
          exact ⟨p₂, a₂, l₂, h⟩
    obtain ⟨p₂, a₂, l₂, hleave⟩ := hstore
    obtain ⟨a₃, l₃⟩ := emit_ok hleave (Instr.ne_mark rfl)
    have hall := ((hbefore.toExtends.trans e₁).trans a₂.toExtends).trans a₃.toExtends
    have htraps : after.traps = before.traps :=
      ((a₃.traps.trans a₂.traps).trans t₁).trans hbefore.traps
    have hlabels : after.builder.labels.length = p₁.builder.labels.length := l₃.trans l₂
    rw [List.append_nil] at hall
    refine ⟨_, hall, .exit hopcode htraps hload ((a₃.exit.trans a₂.exit).trans x₁) ?_⟩
    rcases hsame with ⟨hfound, rfl⟩ | ⟨hnone, hlabel, hnew, hslot⟩
    · exact Or.inl ⟨hbefore.exit.symm.trans hfound, hlabels⟩
    · exact Or.inr ⟨hbefore.exit.symm.trans hnone, hlabel, hlabels.trans hnew, hslot⟩

theorem ret_becomes (hscope : typed → scope.Sound) {register : Int} {result : Unit}
    (hopcode : op.opcode = .ret) (h : ret register scope before = .ok result after) :
    Becomes typed scope op before after := by
  obtain ⟨_, _, hread, h⟩ := bind_ok h
  obtain ⟨rfl, rfl⟩ := read_ok hread
  dsimp only at h
  split at h
  · rename_i hvalue
    obtain ⟨_, middle, hload, h⟩ := bind_ok h
    have hheld (htyped : typed) : scope.signature.ret.Held :=
      ⟨hvalue, (hscope htyped).signature⟩
    obtain ⟨-, load, happends, hcode⟩ :=
      (emits_loadAs hscope register hheld : Emits typed scope _ 0 1).ok _ _ _ hload
    have hslots : scope.signature.ret.slots = 1 := if_neg hvalue
    refine returnValue_becomes hopcode happends ?_ h
    rw [hslots]
    exact hcode
  · rename_i hvoid
    have hslots : scope.signature.ret.slots = 0 := if_pos (Decidable.not_not.mp hvoid)
    refine returnValue_becomes hopcode (.refl before) ?_ h
    rw [hslots]
    exact .nil

/-! ## Traps and checks -/

theorem trapRegion_ok {region : TrapRegion} (h : trapRegion scope before = .ok region after) :
    scope.flow.regionAt? before.position = some region ∧ before = after := by
  obtain ⟨_, _, hread, h⟩ := bind_ok h
  obtain ⟨rfl, rfl⟩ := read_ok hread
  obtain ⟨_, _, hget, h⟩ := bind_ok h
  obtain ⟨rfl, rfl⟩ := get_ok hget
  cases hfound : scope.flow.regionAt? before.position with
  | none =>
      rw [hfound] at h
      cases h
  | some found =>
      rw [hfound] at h
      cases h
      exact ⟨rfl, rfl⟩

theorem throwValue_becomes (hscope : typed → scope.Sound) {register : Int} {result : Unit}
    (hopcode : op.opcode = .throw) (h : throwValue register scope before = .ok result after) :
    Becomes typed scope op before after := by
  obtain ⟨_, p₁, hload, h⟩ := bind_ok h
  obtain ⟨_, p₂, hcall, hthrow⟩ := bind_ok h
  have hdynamic : TargetType.Held .dynamic := .builtin .dynamic nofun
  obtain ⟨-, load, a₁, hcode⟩ :=
    (emits_loadAs hscope register fun _ => hdynamic : Emits typed scope _ 0 1).ok _ _ _ hload
  obtain ⟨-, make, a₂, hmake⟩ :=
    (emits_callRuntime 0 .exceptionNew : Emits typed scope _ 1 1).ok _ _ _ hcall
  obtain ⟨a₃, l₃⟩ := emit_ok hthrow (Instr.ne_mark rfl)
  have hall := (a₁.trans a₂).trans a₃
  refine ⟨_, hall.toExtends, .thrown ⟨by simp [hopcode], hall.traps, hall.exit⟩ ?_
    (by simp [Operation.branchOffsets, hopcode])⟩
  rw [l₃]
  exact hcode.append hmake

theorem nullCheck_becomes {register : Int} {result : Unit}
    (hopcode : op.opcode = .nullCheck) (h : nullCheck register scope before = .ok result after) :
    Becomes typed scope op before after := by
  have hstands : op.opcode ≠ .trap ∧ op.opcode ≠ .endTrap := by simp [hopcode]
  have hoffsets : op.branchOffsets = [] := by simp [Operation.branchOffsets, hopcode]
  obtain ⟨type, _, htype, h⟩ := bind_ok h
  obtain ⟨rfl, -⟩ := registerType_ok htype
  split at h
  · obtain ⟨present, p₁, h₁, h⟩ := bind_ok h
    obtain ⟨_, p₂, h₂, h⟩ := bind_ok h
    obtain ⟨_, p₃, h₃, h⟩ := bind_ok h
    obtain ⟨_, p₄, h₄, h⟩ := bind_ok h
    obtain ⟨_, p₅, h₅, h₆⟩ := bind_ok h
    obtain ⟨rfl, a₁, l₁⟩ := newLabel_ok h₁
    obtain ⟨-, load, a₂, hload⟩ :=
      (emits_load register : Emits typed scope _ 0 1 _).ok _ _ _ h₂
    obtain ⟨a₃, l₃⟩ := emit_ok h₃ (Instr.ne_mark rfl)
    obtain ⟨-, make, a₄, hmake⟩ :=
      (emits_callRuntime 0 .nullCheckErrorNew : Emits typed scope _ 0 1).ok _ _ _ h₄
    obtain ⟨a₅, l₅⟩ := emit_ok h₅ (Instr.ne_mark rfl)
    have hgrows := (a₂.trans (a₃.trans (a₄.trans a₅))).grows
    obtain ⟨a₆, l₆⟩ := mark_ok h₆ (by omega)
    have hall := ((((a₁.trans a₂).trans a₃).trans a₄).trans a₅).trans a₆
    rw [l₁] at hload
    rw [l₃, ← l₅, ← l₆] at hmake
    refine ⟨_, ?_, .check ⟨hstands, hall.traps, hall.exit⟩ hload hmake hoffsets⟩
    simpa using hall.toExtends
  · exact (Emits.pure trivial).becomes hstands hoffsets h

theorem openTrap_becomes {register offset : Int} {result : Unit} (hopcode : op.opcode = .trap)
    (hoffsets : op.branchOffsets = [offset])
    (h : openTrap register offset scope before = .ok result after) :
    Becomes typed scope op before after := by
  obtain ⟨type, _, htype, h⟩ := bind_ok h
  obtain ⟨rfl, -⟩ := registerType_ok htype
  obtain ⟨handler, _, hhandler, h⟩ := bind_ok h
  obtain ⟨rfl, hlt, hleads, -⟩ := branchLabel_ok hhandler
  obtain ⟨region, p₁, hregion, h⟩ := bind_ok h
  obtain ⟨hfound, rfl⟩ := trapRegion_ok hregion
  obtain ⟨_, p₂, hpush, hemit⟩ := bind_ok h
  cases hpush
  obtain ⟨happends, hlabels⟩ := emit_ok hemit (Instr.ne_mark rfl)
  exact ⟨_, ⟨happends.body, happends.marked, happends.grows⟩,
    .openTrap hopcode hfound hlt happends.traps happends.exit hlabels
      (targetsAt_of_single hoffsets hleads)⟩

theorem closeTrap_becomes (hscope : typed → scope.Sound) {register : Int} {result : Unit}
    (hopcode : op.opcode = .endTrap) (hregister : typed → scope.Stores register)
    (h : closeTrap register scope before = .ok result after) :
    Becomes typed scope op before after := by
  obtain ⟨popped, p₁, hpop, h⟩ := bind_ok h
  cases hpop
  cases htraps : before.traps with
  | nil =>
      rw [htraps] at h
      cases h
  | cons frame others =>
      rw [htraps] at h
      obtain ⟨_, _, hframe, h⟩ := bind_ok h
      cases hframe
      split at h
      · cases h
      · rename_i hsame
        obtain ⟨label, p₁, h₁, h⟩ := bind_ok h
        obtain ⟨_, p₂, h₂, h⟩ := bind_ok h
        obtain ⟨_, p₃, h₃, h⟩ := bind_ok h
        obtain ⟨_, p₄, h₄, h⟩ := bind_ok h
        obtain ⟨_, p₅, h₅, h⟩ := bind_ok h
        obtain ⟨_, p₆, h₆, h⟩ := bind_ok h
        obtain ⟨_, p₇, h₇, h₈⟩ := bind_ok h
        obtain ⟨rfl, a₁, l₁⟩ := newLabel_ok h₁
        obtain ⟨a₂, l₂⟩ := emit_ok h₂ (Instr.ne_mark rfl)
        obtain ⟨a₃, l₃⟩ := emit_ok h₃ (Instr.ne_mark rfl)
        obtain ⟨-, value, a₄, hvalue⟩ :=
          (emits_callRuntime 0 .exceptionValue : Emits typed scope _ 1 1).ok _ _ _ h₄
        have hcaught : typed → scope.Stores frame.register := by
          rw [Decidable.not_not.mp hsame]
          exact hregister
        have hdynamic : Emits typed scope (storeFrom frame.register .dynamic) 1 0 :=
          emits_storeFrom hscope hcaught nofun
        obtain ⟨-, store, a₅, hstore⟩ := hdynamic.ok _ _ _ h₅
        obtain ⟨a₆, l₆⟩ := emit_ok h₆ (Instr.ne_mark rfl)
        obtain ⟨a₇, l₇⟩ := emit_ok h₇ (Instr.ne_mark rfl)
        have hgrows := (a₂.trans (a₃.trans (a₄.trans (a₅.trans (a₆.trans a₇))))).grows
        obtain ⟨a₈, l₈⟩ := mark_ok h₈ (Nat.lt_of_lt_of_le (by omega) hgrows)
        have hall := ((((((a₁.trans a₂).trans a₃).trans a₄).trans a₅).trans a₆).trans a₇).trans a₈
        have hafter : after.traps = others := by
          rw [hall.traps]
          simp
        have hcode : Fragment typed scope.registry.target (before.builder.labels.length + 1) 1
            (value ++ store) 0 after.builder.labels.length := by
          rw [l₃, l₂, l₁] at hvalue
          rw [← l₆, ← l₇, ← l₈] at hstore
          exact hvalue.append hstore
        refine ⟨_, ?_, .closeTrap hopcode (hafter ▸ htraps) hall.exit hcode⟩
        have hextends : before.Extends after _ := ⟨hall.body, hall.marked, hall.grows⟩
        simpa using hextends

/-! ## Every instruction -/

def storesValue (opcode : Opcode) : Bool :=
  opcode.writes &&
    match opcode with
    | .null | .call0 | .call1 | .call2 | .call3 | .call4 | .callN | .callMethod | .callThis
    | .callClosure => false
    | _ => true

theorem stores_of_admits (h : scope.Admits op) (hstores : storesValue op.opcode = true) :
    scope.Stores (op.param 0) := by
  obtain ⟨hwrites, hother⟩ := Bool.and_eq_true_iff.mp hstores
  have hresult : scope.calledResult? op = none := by
    unfold Scope.calledResult?
    split
    case h_10 => rfl
    all_goals
      rename_i hop
      rw [hop] at hother
      cases hother
  refine h.stores hwrites ?_ (by simp [hresult])
  intro hnull
  rw [hnull] at hother
  cases hother

def goesOn : Opcode → Bool
  | .jTrue | .jFalse | .jNull | .jNotNull | .jSLt | .jSGte | .jSGt | .jSLte | .jULt | .jUGte
  | .jNotLt | .jNotGte | .jEq | .jNotEq | .jAlways | .ret | .throw | .switch | .nullCheck | .trap
  | .endTrap => false
  | _ => true

theorem branchOffsets_of_goesOn (h : goesOn op.opcode = true) : op.branchOffsets = [] := by
  unfold Operation.branchOffsets
  split <;> first | rfl | simp_all [goesOn]

theorem operation_emits (hscope : typed → scope.Sound) (hadmits : typed → scope.Admits op)
    (hgoes : goesOn op.opcode = true) : Emits typed scope (operation op) 0 0 := by
  have hstores (hstores : storesValue op.opcode = true) : typed → scope.Stores (op.param 0) :=
    fun htyped => stores_of_admits (hadmits htyped) hstores
  unfold operation
  dsimp only
  match hop : op.opcode with
  | .mov | .toDyn => exact emits_move hscope _ (hstores (by rw [hop]; rfl))
  | .int => exact emits_intConstant hscope _ (hstores (by rw [hop]; rfl))
  | .float => exact emits_floatConstant hscope _ (hstores (by rw [hop]; rfl))
  | .bool => exact emits_boolConstant hscope _ (hstores (by rw [hop]; rfl))
  | .bytes => exact emits_bytesConstant hscope _ (hstores (by rw [hop]; rfl))
  | .string => exact emits_stringConstant hscope _ (hstores (by rw [hop]; rfl))
  | .null => exact emits_nullConstant _
  | .neg => exact emits_negate hscope _ _
  | .not => exact emits_complement hscope _ _
  | .incr | .decr => exact emits_stepRegister _ _
  | .add | .sub | .mul | .sDiv | .uDiv | .sMod | .uMod | .shl | .sShr | .uShr | .and | .or
  | .xor => exact emits_arithmetic hscope _ _ _ _
  | .call0 | .call1 | .call2 | .call3 | .call4 | .callN =>
      refine emits_directCall hscope _ fun htyped entry hentry hvalue => ?_
      exact (hadmits htyped).stores (by rw [hop]; rfl) (by simp [hop])
        (by simpa [Scope.calledResult?, hop, hentry] using hvalue)
  | .callMethod =>
      refine emits_receiverCall hscope _ fun htyped receiver hreceiver signature hsignature hvalue => ?_
      have hhead : op.callArguments.head? = some receiver := hreceiver
      exact (hadmits htyped).stores (by rw [hop]; rfl) (by simp [hop])
        (by simpa [Scope.calledResult?, hop, hhead, hsignature] using hvalue)
  | .callThis =>
      refine emits_methodCall hscope _ fun htyped signature hsignature hvalue => ?_
      exact (hadmits htyped).stores (by rw [hop]; rfl) (by simp [hop])
        (by simpa [Scope.calledResult?, hop, hsignature] using hvalue)
  | .callClosure =>
      refine emits_closureCall hscope _ fun htyped ret hret hvalue => ?_
      exact (hadmits htyped).stores (by rw [hop]; rfl) (by simp [hop])
        (by simpa [Scope.calledResult?, hop, hret] using hvalue)
  | .staticClosure => exact emits_staticClosure hscope _ (hstores (by rw [hop]; rfl))
  | .instanceClosure => exact emits_instanceClosure hscope _ _ (hstores (by rw [hop]; rfl))
  | .virtualClosure => exact emits_virtualClosure hscope _ _ (hstores (by rw [hop]; rfl))
  | .getGlobal => exact emits_getGlobal hscope _ (hstores (by rw [hop]; rfl))
  | .setGlobal => exact emits_setGlobal hscope _ _
  | .field | .getThis => exact emits_getField hscope _ _ (hstores (by rw [hop]; rfl))
  | .setField | .setThis => exact emits_setField hscope _ _ _
  | .dynGet => exact emits_getDynamic hscope _ _ (hstores (by rw [hop]; rfl))
  | .dynSet => exact emits_setDynamic hscope _ _ _
  | .toSFloat | .toUFloat => exact emits_toFloat hscope _ _ (hstores (by rw [hop]; rfl))
  | .toInt => exact emits_toInt hscope _ (hstores (by rw [hop]; rfl))
  | .safeCast => exact emits_safeCast hscope _ (hstores (by rw [hop]; rfl))
  | .uncheckedCast => exact emits_cast hscope _ _ (hstores (by rw [hop]; rfl))
  | .toVirtual => exact emits_toVirtual hscope _ (hstores (by rw [hop]; rfl))
  | .label => exact Emits.pure trivial
  | .rethrow => exact emits_rethrowValue hscope _
  | .getI8 | .getI16 => exact emits_getMemory hscope _ _ _ (hstores (by rw [hop]; rfl))
  | .getMem =>
      refine (emits_memoryWidth _).bind fun width _ => ?_
      exact emits_getMemory hscope _ _ width (hstores (by rw [hop]; rfl))
  | .setI8 | .setI16 => exact emits_setMemory hscope _ _ _ _
  | .setMem => exact (emits_memoryWidth _).bind fun width _ => emits_setMemory hscope _ _ _ width
  | .getArray => exact emits_getElement hscope _ _ (hstores (by rw [hop]; rfl))
  | .setArray => exact emits_setElement hscope _ _ _
  | .new => exact emits_newInstance hscope (hstores (by rw [hop]; rfl))
  | .arraySize => exact emits_arraySize hscope _ (hstores (by rw [hop]; rfl))
  | .type => exact emits_typeToken hscope _ (hstores (by rw [hop]; rfl))
  | .getType => exact emits_typeOfValue hscope _ (hstores (by rw [hop]; rfl))
  | .getTID => exact emits_kindOfType hscope _ (hstores (by rw [hop]; rfl))
  | .ref => exact emits_makeBox hscope _ (hstores (by rw [hop]; rfl))
  | .unref => exact emits_getBoxed hscope _ (hstores (by rw [hop]; rfl))
  | .setref => exact emits_setBoxed hscope _ _
  | .makeEnum => exact emits_makeEnum hscope _ _ (hstores (by rw [hop]; rfl))
  | .enumAlloc => exact emits_allocateEnum hscope _ (hstores (by rw [hop]; rfl))
  | .enumIndex => exact emits_enumIndex hscope _ (hstores (by rw [hop]; rfl))
  | .enumField => exact emits_getEnumField hscope _ _ _ (hstores (by rw [hop]; rfl))
  | .setEnumField => exact emits_setEnumField hscope _ _ _
  | .assert => exact emits_callRuntime 0 .assert
  | .nop => exact emits_emit 0 rfl
  | .refData | .refOffset | .prefetch | .asm => exact emits_gap
  | .jTrue | .jFalse | .jNull | .jNotNull | .jSLt | .jSGte | .jSGt | .jSLte | .jULt | .jUGte
  | .jNotLt | .jNotGte | .jEq | .jNotEq | .jAlways | .ret | .throw | .switch | .nullCheck | .trap
  | .endTrap =>
      rw [hop] at hgoes
      cases hgoes

/-! ### Tests -/

theorem truthBranch_becomes {register offset : Int} {make : Label → Instr} {result : Unit}
    (hopcode : op.opcode ≠ .trap ∧ op.opcode ≠ .endTrap) (hoffsets : op.branchOffsets = [offset])
    (hmake : Test make 1)
    (h : truthBranch register offset make scope before = .ok result after) :
    Becomes typed scope op before after := by
  obtain ⟨_, middle, hload, h⟩ := bind_ok h
  obtain ⟨-, load, happends, hcode⟩ :=
    (emits_load register : Emits typed scope _ 0 1 _).ok _ _ _ hload
  exact branch_becomes hopcode hoffsets hmake happends hcode h

theorem comparedAs_cases (a b : TargetType) :
    (a.comparedAs b).Held ∨ a = b ∧ a.comparedAs b = a := by
  unfold TargetType.comparedAs
  split
  · unfold TargetType.join
    split
    · exact Or.inl (.builtin .f64 nofun)
    · split
      · exact Or.inl (.builtin .i64 nofun)
      · exact Or.inl (.builtin .i32 nofun)
  · split
    · rename_i h
      exact Or.inl (.of_isValue h.1)
    · split
      · rename_i h
        exact Or.inl (.of_isValue h.1)
      · split
        · rename_i h
          exact Or.inr ⟨h, rfl⟩
        · exact Or.inl (.builtin .any nofun)

theorem compareBranch_becomes (hscope : typed → scope.Sound) {comparison : Comparison}
    {left right offset : Int} {result : Unit}
    (hopcode : op.opcode ≠ .trap ∧ op.opcode ≠ .endTrap) (hoffsets : op.branchOffsets = [offset])
    (h : compareBranch comparison left right offset scope before = .ok result after) :
    Becomes typed scope op before after := by
  obtain ⟨a, _, ha, h⟩ := bind_ok h
  obtain ⟨rfl, hleft⟩ := registerType_ok ha
  obtain ⟨b, _, hb, h⟩ := bind_ok h
  obtain ⟨rfl, hright⟩ := registerType_ok hb
  dsimp only at h
  split at h
  · cases h
  · have hload {register : Int} {type : TargetType} (htype : scope.typeOf? register = some type)
        (hcommon : type = a ∨ type = b) (depth : Nat) :
        Emits typed scope (loadAs register (a.comparedAs b)) depth (depth + 1) := by
      rcases comparedAs_cases a b with hheld | ⟨rfl, hsame⟩
      · exact emits_loadAs hscope register fun _ => hheld
      · obtain rfl : type = a := hcommon.elim id id
        rw [hsame]
        exact emits_loadAs_self htype
    obtain ⟨_, p₁, h₁, h⟩ := bind_ok h
    obtain ⟨_, p₂, h₂, h⟩ := bind_ok h
    obtain ⟨-, first, a₁, hfirst⟩ := (hload hleft (Or.inl rfl) 0).ok _ _ _ h₁
    obtain ⟨-, second, a₂, hsecond⟩ := (hload hright (Or.inr rfl) 1).ok _ _ _ h₂
    exact branch_becomes hopcode hoffsets (.branch comparison) (a₁.trans a₂) (hfirst.append hsecond) h

theorem nullBranch_becomes {register offset : Int} {result : Unit}
    (hopcode : op.opcode = .jNull) (hoffsets : op.branchOffsets = [offset])
    (h : nullBranch register offset scope before = .ok result after) :
    Becomes typed scope op before after := by
  obtain ⟨type, _, htype, h⟩ := bind_ok h
  obtain ⟨rfl, -⟩ := registerType_ok htype
  split at h
  · exact truthBranch_becomes (by simp [hopcode]) hoffsets .brFalse h
  · cases h
    exact ⟨[], (Progress.Appends.refl _).toExtends,
      .straight ⟨by simp [hopcode], rfl, rfl⟩ .nil (Or.inr ⟨hopcode, rfl⟩)⟩

theorem notNullBranch_becomes {register offset : Int} {result : Unit}
    (hopcode : op.opcode ≠ .trap ∧ op.opcode ≠ .endTrap) (hoffsets : op.branchOffsets = [offset])
    (h : notNullBranch register offset scope before = .ok result after) :
    Becomes typed scope op before after := by
  obtain ⟨type, _, htype, h⟩ := bind_ok h
  obtain ⟨rfl, -⟩ := registerType_ok htype
  split at h
  · exact jump_becomes hopcode hoffsets h
  · exact truthBranch_becomes hopcode hoffsets .brTrue h

theorem switchOn_becomes (hscope : typed → scope.Sound) {register : Int} {offsets : List Int}
    {result : Unit} (hopcode : op.opcode ≠ .trap ∧ op.opcode ≠ .endTrap)
    (hoffsets : op.branchOffsets = offsets)
    (h : switchOn register offsets scope before = .ok result after) :
    Becomes typed scope op before after := by
  obtain ⟨_, middle, hload, h⟩ := bind_ok h
  have hint : TargetType.Held .i32 := .builtin .i32 nofun
  obtain ⟨-, load, happends, hcode⟩ :=
    (emits_loadAs hscope register fun _ => hint : Emits typed scope _ 0 1).ok _ _ _ hload
  exact switch_becomes hopcode hoffsets happends hcode h

/-- Every instruction becomes one of the forms. -/
theorem operation_becomes (hscope : typed → scope.Sound) (hadmits : typed → scope.Admits op)
    {result : Unit} (h : operation op scope before = .ok result after) :
    Becomes typed scope op before after := by
  by_cases hgoes : goesOn op.opcode = true
  · refine (operation_emits hscope hadmits hgoes).becomes ⟨?_, ?_⟩ (branchOffsets_of_goesOn hgoes) h
    · intro hop
      rw [hop] at hgoes
      cases hgoes
    · intro hop
      rw [hop] at hgoes
      cases hgoes
  · unfold operation at h
    cases hop : op.opcode
    all_goals rw [hop] at h
    case jTrue =>
      exact truthBranch_becomes (by simp [hop]) (by simp [Operation.branchOffsets, hop]) .brTrue h
    case jFalse =>
      exact truthBranch_becomes (by simp [hop]) (by simp [Operation.branchOffsets, hop]) .brFalse h
    case jNull => exact nullBranch_becomes hop (by simp [Operation.branchOffsets, hop]) h
    case jNotNull =>
      exact notNullBranch_becomes (by simp [hop]) (by simp [Operation.branchOffsets, hop]) h
    case jSLt | jSGte | jSGt | jSLte | jULt | jUGte | jNotLt | jNotGte | jEq | jNotEq =>
      exact compareBranch_becomes hscope (by simp [hop]) (by simp [Operation.branchOffsets, hop]) h
    case jAlways =>
      exact jump_becomes (by simp [hop]) (by simp [Operation.branchOffsets, hop]) h
    case ret => exact ret_becomes hscope hop h
    case throw => exact throwValue_becomes hscope hop h
    case switch =>
      exact switchOn_becomes hscope (by simp [hop]) (by simp [Operation.branchOffsets, hop]) h
    case nullCheck => exact nullCheck_becomes hop h
    case trap => exact openTrap_becomes hop (by simp [Operation.branchOffsets, hop]) h
    case endTrap =>
      refine closeTrap_becomes hscope hop (fun htyped => ?_) h
      exact stores_of_admits (hadmits htyped) (by rw [hop]; rfl)
    all_goals exact absurd (by rw [hop]; rfl) hgoes

end Emit

end BytecodeLowering
