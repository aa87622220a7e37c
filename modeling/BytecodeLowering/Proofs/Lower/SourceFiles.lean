import BytecodeLowering.Proofs.Lower.SequencePoints

/-!
# The files that source positions name

A compiled module tells the lines of its functions and no others.  The file of a
line was selected by a record of its line table, which is refused where the file
does not exist, or it is the first file, with which every table starts and for
which nothing is asked.  So a position names a missing file in one case alone:
the image has line tables and no files.
-/

namespace BytecodeLowering

/-- A source line that the code of some method tells. -/
def TargetModule.Tells (module : TargetModule) (line : SourceLine) : Prop :=
  ∃ method ∈ module.methods, line.point ∈ method.body

instance decidableTells (module : TargetModule) (line : SourceLine) :
    Decidable (module.Tells line) :=
  inferInstanceAs (Decidable (∃ method ∈ module.methods, line.point ∈ method.body))

/-- Code that tells some lines without repetitions, and that code without them. -/
structure Telling (lines : List SourceLine) (body body' : List Instr) : Prop where
  silenced : body' = withoutPoints body
  told : points body = lines.destutter (· ≠ ·)

namespace Image

/-! ## The lines that are told -/

def told (image : Image) (settings : Settings) (function : FunctionDef) : List SourceLine :=
  if settings.emitSequencePoints then
    (image.lineTable function).take function.operations.length
  else []

section Told

variable {image : Image} {settings : Settings} {function : FunctionDef} {line : SourceLine}
  {target : TargetModule}

theorem of_mem_told (h : line ∈ image.told settings function) :
    settings.emitSequencePoints = true ∧ line ∈ image.lineTable function ∧
      function.operations ≠ [] := by
  unfold told at h
  split at h
  · rename_i hemits
    refine ⟨hemits, List.mem_of_mem_take h, ?_⟩
    intro hnone
    rw [hnone] at h
    cases h
  · cases h

theorem exists_mem_told (hemits : settings.emitSequencePoints = true)
    (hlength : (image.lineTable function).length = function.operations.length)
    (hcode : function.operations ≠ []) : ∃ line, line ∈ image.told settings function := by
  rw [told, if_pos hemits, ← hlength, List.take_length]
  refine List.exists_mem_of_ne_nil _ (List.ne_nil_of_length_pos ?_)
  rw [hlength]
  exact List.length_pos_iff.mpr hcode

theorem hasDebug_of_mem (h : line ∈ image.lineTable function) : image.hasDebug = true := by
  unfold lineTable at h
  split at h
  · assumption
  · cases h

theorem points_of_annotated {registry : Registry} {signature : Signature} {body : List Instr}
    (h : function.Annotated image registry settings signature body) :
    points body = (image.told (settings.withPoints true) function).destutter (· ≠ ·) := by
  obtain ⟨scope, codes, exit, locals, stats, hscope, -, hannotated⟩ := h
  obtain ⟨-, -, -, -, hfunction, -⟩ := FunctionDef.scope_ok hscope
  rw [hannotated.told, hfunction]
  rfl

theorem compileWithStats_told (image : Image) (settings : Settings) :
    (∃ error, image.compileWithStats (settings.withPoints true) = .error error ∧
      image.compileWithStats (settings.withPoints false) = .error error) ∨
    ∃ target target' stats stats',
      image.compileWithStats (settings.withPoints true) = .ok (target, stats) ∧
      image.compileWithStats (settings.withPoints false) = .ok (target', stats') ∧
      target.Parallel (fun function => Telling (image.told (settings.withPoints true) function))
        (Telling []) image.functions target' := by
  have hlower (function : FunctionDef) (_ : function ∈ image.functions) (done : List FunctionDef)
      (registry registry' : Registry) (signature : Signature)
      (_ : image.Prepared (settings.withPoints true) registry)
      (hparallel : registry.Parallel
        (fun function => Telling (image.told (settings.withPoints true) function)) (Telling [])
        done registry') :
      FunctionDef.Abreast (Telling (image.told (settings.withPoints true) function))
        (function.lower image registry (settings.withPoints true) signature)
        (function.lower image registry' (settings.withPoints false) signature) :=
    (function.lower_withPoints (hparallel.within rfl)).imp fun _ _ hbodies =>
      ⟨hbodies.1, points_of_annotated hbodies.2⟩
  have hname : (settings.withPoints false).moduleName = (settings.withPoints true).moduleName := rfl
  have hprepared (registry : Registry)
      (hprepare : image.prepare (image.registry (settings.withPoints true)) = .ok () registry)
      (method : MethodDecl) (hmethod : method ∈ registry.target.methods) :
      Telling [] method.body method.body :=
    have hsilent := prepare_silent hprepare method hmethod
    ⟨(withoutPoints_of_plain hsilent).symm, points_of_plain hsilent⟩
  rcases compileWithStats_parallel hname hprepared hlower with
    hfail | ⟨target, target', stats, hon, hoff, hparallel⟩
  · exact Or.inl hfail
  · exact Or.inr ⟨target, target', _, _, hon, hoff, hparallel⟩

theorem points_of_compileWithStats {stats : CompileStats}
    (h : image.compileWithStats settings = .ok (target, stats)) {id : MethodId}
    {method : MethodDecl} (hmethod : target.method? id = some method) :
    (∀ function ∈ image.functions, function.index = id →
      points method.body = (image.told settings function).destutter (· ≠ ·)) ∧
    ((∀ function ∈ image.functions, function.index ≠ id) → points method.body = []) := by
  have hsettings : settings.withPoints settings.emitSequencePoints = settings := rfl
  cases hemit : settings.emitSequencePoints with
  | true =>
      rw [hemit] at hsettings
      rcases compileWithStats_told image settings with
        ⟨error, hfail, -⟩ | ⟨on, off, found, _, hon, -, hparallel⟩
      · rw [hsettings, h] at hfail
        cases hfail
      · rw [hsettings] at hon hparallel
        rw [h] at hon
        cases hon
        obtain ⟨body, -, hcode, hothers⟩ := hparallel.methods id method hmethod
        exact ⟨fun function hfunction hindex => (hcode function hfunction hindex).told,
          fun hnone => (hothers hnone).told⟩
  | false =>
      rw [hemit] at hsettings
      rcases compileWithStats_told image settings with
        ⟨error, -, hfail⟩ | ⟨on, off, _, found, -, hoff, hparallel⟩
      · rw [hsettings, h] at hfail
        cases hfail
      · rw [hsettings, h] at hoff
        cases hoff
        have hmethods := hparallel.map_methods (fun _ _ _ hcode => hcode.silenced) fun _ _ hcode =>
          hcode.silenced
        have hmem := List.mem_of_getElem? hmethod
        rw [hmethods] at hmem
        obtain ⟨silenced, -, rfl⟩ := List.mem_map.mp hmem
        have hsilent : points (withoutPoints silenced.body) = [] := points_withoutPoints _
        refine ⟨fun function _ _ => ?_, fun _ => hsilent⟩
        rw [hsilent, told, hemit]
        rfl

theorem tells_iff (h : image.compile settings = .ok target) :
    target.Tells line ↔ ∃ function ∈ image.functions, line ∈ image.told settings function := by
  obtain ⟨⟨_, stats⟩, hcompile, rfl⟩ := ok_of_map h
  constructor
  · rintro ⟨method, hmethod, hline⟩
    obtain ⟨id, hid⟩ := List.getElem?_of_mem hmethod
    obtain ⟨hfunctions, hothers⟩ := points_of_compileWithStats hcompile hid
    rw [← mem_points] at hline
    by_cases hfunction : ∃ function ∈ image.functions, function.index = id
    · obtain ⟨function, hmem, hindex⟩ := hfunction
      rw [hfunctions function hmem hindex, mem_destutter] at hline
      exact ⟨function, hmem, hline⟩
    · rw [hothers fun function hmem hindex => hfunction ⟨function, hmem, hindex⟩] at hline
      cases hline
  · rintro ⟨function, hfunction, hline⟩
    obtain ⟨method, hmethod⟩ := method_of_compileWithStats hcompile hfunction
    refine ⟨method, List.mem_of_getElem? hmethod, ?_⟩
    rw [← mem_points, (points_of_compileWithStats hcompile hmethod).1 function hfunction rfl,
      mem_destutter]
    exact hline

end Told

/-! ## Line tables that were read -/

theorem lineTable_of_decode {bytes : Bytes} {image : Image} (h : decode bytes = .ok image)
    {function : FunctionDef} (hfunction : function ∈ image.functions) :
    (image.hasDebug = true →
      (image.lineTable function).length = function.operations.length) ∧
    ∀ line ∈ image.lineTable function, line.file < image.debugFiles.length ∨ line.file = 0 := by
  obtain ⟨read, himage, hrecorded⟩ := recorded_lenient h
  rw [himage] at hfunction ⊢
  have hread := hrecorded.functions function hfunction
  change (read.hasDebug = true → (read.lineTable function).length = _) ∧
    ∀ line ∈ read.lineTable function, line.file < read.debugFiles.length ∨ _
  cases hdebug : read.hasDebug with
  | true =>
      obtain ⟨entries, hentries, hlength, hselectable⟩ := hread.lines hdebug
      have htable : read.lineTable function = entries := by
        rw [lineTable, hdebug, hentries]
        rfl
      rw [htable]
      exact ⟨fun _ => hlength, fun line hline => (hselectable line hline).known.symm⟩
  | false =>
      have htable : read.lineTable function = [] := by
        rw [lineTable, hdebug]
        rfl
      rw [htable]
      exact ⟨by rintro ⟨⟩, List.forall_mem_nil _⟩

/-- Positions are told in an image that has no files. -/
structure Fileless (image : Image) (settings : Settings) : Prop where
  emits : settings.emitSequencePoints = true
  debug : image.hasDebug = true
  files : image.debugFiles = []
  code : ∃ function ∈ image.functions, function.operations ≠ []

end Image

/-! ## The files of source positions -/

/-- Bytes that compile give a module whose positions name files that exist, unless
they are those of an image without files; then a position names the first file,
and there is such a position. -/
theorem sourceFiles_of_compileBytes {settings : Settings} {bytes : Bytes}
    {target : TargetModule} (h : compileBytes settings bytes = .ok target) :
    ∃ image, Image.decode bytes = .ok image ∧
      (∀ line, target.Tells line → line.file < image.debugFiles.length ∨
        image.debugFiles = [] ∧ line.file = 0) ∧
      ((∀ line, target.Tells line → line.file < image.debugFiles.length) ↔
        ¬ image.Fileless settings) := by
  obtain ⟨image, hdecode, hcompile⟩ := compileBytes_ok h
  have htold (line : SourceLine) (hline : target.Tells line) :
      line.file < image.debugFiles.length ∨ image.Fileless settings ∧ line.file = 0 := by
    obtain ⟨function, hfunction, htold⟩ := (Image.tells_iff hcompile).mp hline
    obtain ⟨hemits, hlisted, hcode⟩ := Image.of_mem_told htold
    rcases (Image.lineTable_of_decode hdecode hfunction).2 line hlisted with hfile | hfirst
    · exact Or.inl hfile
    · by_cases hfiles : image.debugFiles = []
      · exact Or.inr ⟨⟨hemits, Image.hasDebug_of_mem hlisted, hfiles, function, hfunction, hcode⟩,
          hfirst⟩
      · rw [hfirst]
        exact Or.inl (List.length_pos_iff.mpr hfiles)
  refine ⟨image, hdecode, fun line hline => ?_, ?_⟩
  · exact (htold line hline).imp_right fun hmissing => ⟨hmissing.1.files, hmissing.2⟩
  · constructor
    · intro hfiles hfileless
      obtain ⟨function, hfunction, hcode⟩ := hfileless.code
      obtain ⟨line, hline⟩ := Image.exists_mem_told hfileless.emits
        ((Image.lineTable_of_decode hdecode hfunction).1 hfileless.debug) hcode
      have hfile := hfiles line ((Image.tells_iff hcompile).mpr ⟨function, hfunction, hline⟩)
      rw [hfileless.files] at hfile
      exact Nat.not_lt_zero _ hfile
    · exact fun hfileless line hline => (htold line hline).resolve_right fun hmissing =>
        hfileless hmissing.1

def oneLine (files records : Bytes) : Bytes :=
  [0x48, 0x4C, 0x42, 4, 1, 0, 0, 0, 2, 0, 0, 1, 0, 0, 0, 0, 0, 0] ++ files
    ++ [0, 10, 0, 0, 1, 0, 1, 1, 0, 67, 0] ++ records ++ [0]

def filed : Bytes := oneLine [1, 2, 0, 0, 0, 97, 0, 1] [0x0C]

def fileless : Bytes := oneLine [0, 0, 0, 0, 0] [0x0C]

theorem sourceFiles_of_compileBytes_filed :
    ∃ target image, compileBytes {} filed = .ok target ∧ target.Tells ⟨0, 1⟩ ∧
      Image.decode filed = .ok image ∧
      (∀ line, target.Tells line → line.file < image.debugFiles.length ∨
        image.debugFiles = [] ∧ line.file = 0) ∧
      ((∀ line, target.Tells line → line.file < image.debugFiles.length) ↔
        ¬ image.Fileless {}) := by
  have hrun : ((compileBytes {} filed).toOption.any fun target => target.Tells ⟨0, 1⟩) = true := by
    decide +kernel
  obtain ⟨target, hcompile, htells⟩ := ok_of_any hrun
  obtain ⟨image, hdecode, hfiles⟩ := sourceFiles_of_compileBytes hcompile
  exact ⟨target, image, hcompile, of_decide_eq_true htells, hdecode, hfiles⟩

/-- The file with which a line table starts is told without having been looked up. -/
theorem fileless_tells :
    ∃ target image, compileBytes {} fileless = .ok target ∧ Image.decode fileless = .ok image ∧
      ∃ line, target.Tells line ∧ ¬ line.file < image.debugFiles.length := by
  have hrun :
      ((compileBytes {} fileless).toOption.any fun target => target.Tells ⟨0, 1⟩) = true := by
    decide +kernel
  have hread : ((Image.decode fileless).toOption.any fun image => image.debugFiles = []) = true := by
    decide +kernel
  obtain ⟨target, hcompile, htells⟩ := ok_of_any hrun
  obtain ⟨image, hdecode, hfiles⟩ := ok_of_any hread
  refine ⟨target, image, hcompile, hdecode, ⟨0, 1⟩, of_decide_eq_true htells, ?_⟩
  rw [of_decide_eq_true hfiles]
  exact Nat.not_lt_zero 0

/-- A record that selects that file is refused. -/
example : Image.decode (oneLine [0, 0, 0, 0, 0] [0x01, 0, 0x0C])
    = .error ⟨36, .invalidDebugFile 0 0⟩ := by
  decide +kernel

end BytecodeLowering
