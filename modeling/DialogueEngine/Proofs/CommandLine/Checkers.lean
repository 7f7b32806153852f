import Mathlib
import DialogueEngine.CommandLine.Check
import DialogueEngine.CommandLine.Play
import DialogueEngine.Proofs.Program.Combining
import DialogueEngine.Proofs.Program.Decoding
import DialogueEngine.Proofs.Program.Targets
import DialogueEngine.Proofs.Session.Operation

/-! # Two checks of the same programs

The command that checks programs reports a file that holds no program and goes on with the others;
the player stops at the first such file, and checks what it has loaded. Both come to the same
verdict, and it depends on nothing but the programs: not on their order, and not on the texts.

* `Program.Playable` — programs that can be put together, with a start node and all targets.
* `PlayerConfig.vet_eq_ok` — what the player accepts.
* `Passes` — all files hold programs, which are playable.
* `checkFiles_hasErrors`, `loadPrograms_within` — the check and the player against that.
* `WorkingFolder.mixed` — a folder with files that pass, and with one that does not.
* `checks_agree` — the check and the player together, for files in a folder.
-/

namespace DialogueEngine

/-! ## What a check depends on -/

namespace Program

variable {p q : Program} {ps qs : List Program} {start : String}

theorem checkLines_hasErrors (p : Program) (t : StringTable) :
    (p.checkLines t).hasErrors = false := by
  rw [Bool.eq_false_iff, ne_eq, Report.hasErrors_iff]
  rintro ⟨d, mem, grave⟩
  obtain ⟨e, -, mem⟩ := List.mem_flatMap.mp mem
  obtain ⟨r, reported, mem⟩ := List.mem_flatten.mp mem
  obtain ⟨index, lt, rfl⟩ := List.mem_mapIdx.mp reported
  unfold checkLine at mem
  split at mem
  · split at mem
    · cases mem
    · cases List.mem_singleton.mp mem
      cases grave
  · cases mem

/-- Texts that are missing are no errors. -/
theorem checkWith_hasErrors (p : Program) (start : String) (t : StringTable) :
    (p.checkWith start t).hasErrors = (p.check start).hasErrors := by
  rw [checkWith, Report.hasErrors_append]
  split
  · rw [Report.hasErrors_nil, Bool.or_false]
  · rw [checkLines_hasErrors, Bool.or_false]

/-- Only the nodes matter for the errors of a check. -/
theorem check_hasErrors_congr (same : p.nodes = q.nodes) (start : String) :
    (p.check start).hasErrors = (q.check start).hasErrors := by
  rw [Bool.eq_iff_iff, check_hasErrors, check_hasErrors]
  unfold defines targets
  rw [same]

/-- The programs can be put together, and a check of the whole finds no error. -/
def Playable (ps : List Program) (start : String) : Prop :=
  ∃ p, combine ps = .ok p ∧ (p.check start).hasErrors = false

theorem Playable.perm (playable : Playable ps start) (perm : qs.Perm ps) : Playable qs start := by
  obtain ⟨p, combined, clean⟩ := playable
  obtain ⟨q, combined', same⟩ := combine_perm combined perm
  exact ⟨q, combined', (check_hasErrors_congr same start).trans clean⟩

end Program

/-- The player accepts what is playable, whatever its texts are. -/
theorem PlayerConfig.vet_eq_ok {c : PlayerConfig} (checks : c.checksProgram = true)
    (ps : List Program) (t : StringTable) :
    c.vet ps t = .ok () ↔ Program.Playable ps c.startNode := by
  unfold PlayerConfig.vet Program.Playable
  rw [if_pos checks]
  cases combined : Program.combine ps with
  | error e => simp
  | ok p =>
    simp only [Program.checkWith_hasErrors, Except.ok.injEq, exists_eq_left']
    cases (p.check c.startNode).hasErrors <;> simp

/-! ## Programs in files -/

def ProgramFile.program? (f : ProgramFile) : Option Program := f.bytes.bind Program.decode?

/-- All files hold programs, which are playable. -/
def Passes (files : List ProgramFile) (start : String) : Prop :=
  (∀ f ∈ files, f.program?.isSome = true) ∧
    Program.Playable (files.filterMap ProgramFile.program?) start

section Files

variable {files files' : List ProgramFile} {start : String}

theorem Passes.perm (passes : Passes files start) (perm : files'.Perm files) :
    Passes files' start :=
  ⟨fun f mem => passes.1 f (perm.mem_iff.mp mem), passes.2.perm (perm.filterMap _)⟩

theorem ProgramFile.failure_hasErrors (f : ProgramFile) (r : Report) :
    Report.hasErrors (f.failure :: r) = true :=
  Report.hasErrors_iff.mpr ⟨_, List.mem_cons_self, rfl⟩

/-- Every file that holds a program is decoded, also behind one that does not. -/
theorem decodeFiles_programs (files : List ProgramFile) :
    (decodeFiles files).2 = files.filterMap ProgramFile.program? := by
  induction files with
  | nil => rfl
  | cons f files ih =>
    rw [decodeFiles, ← ProgramFile.program?]
    cases held : f.program? with
    | none => rw [List.filterMap_cons_none held, ← ih]
    | some p => rw [List.filterMap_cons_some held, ← ih]

theorem decodeFiles_hasErrors :
    (decodeFiles files).1.hasErrors = false ↔ ∀ f ∈ files, f.program?.isSome = true := by
  induction files with
  | nil => exact iff_of_true rfl nofun
  | cons f files ih =>
    rw [decodeFiles, ← ProgramFile.program?, List.forall_mem_cons]
    cases held : f.program? with
    | none => simp [ProgramFile.failure_hasErrors]
    | some p => simpa using ih

/-- The check finds no error if all files hold programs, and these are playable. -/
theorem checkFiles_hasErrors (files : List ProgramFile) (start : String) (t : StringTable) :
    (checkFiles files start t).hasErrors = false ↔ Passes files start := by
  rw [Passes, ← decodeFiles_hasErrors, ← decodeFiles_programs, checkFiles]
  dsimp only
  cases combined : Program.combine (decodeFiles files).2 with
  | error e => simp [Program.Playable, combined, Report.hasErrors_iff, Diagnostic.ofProgram]
  | ok p => simp [Program.Playable, combined, Program.checkWith_hasErrors]

end Files

/-! ## Files in a folder -/

def WorkingFolder.file (w : WorkingFolder) (path : String) : ProgramFile := ⟨path, w.read? path⟩

variable {w : WorkingFolder} {paths programs tables : List String} {start : String}

theorem FileWork.within_bind {α β : Type} (x : FileWork α) (f : α → FileWork β)
    (w : WorkingFolder) :
    (x >>= f).within w = (f (x.within w).1).within (x.within w).2 := by
  change (x.bind f).within w = _
  induction x generalizing w with
  | done a => rfl
  | present path k ih => exact ih _ w
  | read path k ih => exact ih _ w
  | walk path k ih => exact ih _ w
  | save path bytes k ih =>
    rw [bind, within, within]
    cases w.save? path bytes with
    | none => exact ih _ w
    | some w' => exact ih _ w'

theorem programOfFile_eq_ok {path : String} {bytes : Option (List UInt8)} {p : Program} :
    programOfFile path bytes = .ok p ↔ (ProgramFile.mk path bytes).program? = some p := by
  unfold programOfFile ProgramFile.program?
  cases bytes with
  | none => simp
  | some bytes =>
    dsimp only [Option.bind_some]
    cases Program.decode? bytes <;> simp

/-- The player loads all programs if all files hold programs. -/
theorem loadPrograms_within {ps : List Program} :
    (loadPrograms paths).within w = (.ok ps, w) ↔
      (∀ f ∈ paths.map w.file, f.program?.isSome = true) ∧
        ps = (paths.map w.file).filterMap ProgramFile.program? := by
  induction paths generalizing ps with
  | nil =>
    constructor
    · intro done
      cases done
      exact ⟨nofun, rfl⟩
    · rintro ⟨-, rfl⟩
      rfl
  | cons path paths ih =>
    rw [loadPrograms, FileWork.within, List.map_cons, List.forall_mem_cons]
    cases loaded : programOfFile path (w.read? path) with
    | error e =>
      have none : (w.file path).program? = none := by
        refine Option.eq_none_iff_forall_ne_some.mpr fun p held => ?_
        rw [programOfFile_eq_ok.mpr held] at loaded
        cases loaded
      simp [FileWork.within, none]
    | ok p =>
      have held : (w.file path).program? = some p := programOfFile_eq_ok.mp loaded
      dsimp only
      rw [FileWork.within_bind, List.filterMap_cons_some held]
      constructor
      · intro both
        cases rest : (loadPrograms paths).within w with
        | mk r w' =>
          rw [rest] at both
          cases r with
          | error e => cases both
          | ok ps' =>
            cases both
            obtain ⟨all, same⟩ := ih.mp rest
            exact ⟨⟨Option.isSome_of_eq_some held, all⟩, congrArg (p :: ·) same⟩
      · rintro ⟨⟨-, all⟩, rfl⟩
        rw [ih.mpr ⟨all, rfl⟩]
        rfl

/-- Files are read as they are. -/
theorem readFiles_within (paths : List String) (w : WorkingFolder) :
    (CheckOptions.readFiles paths).within w = (paths.map w.file, w) := by
  induction paths with
  | nil => rfl
  | cons path paths ih =>
    rw [CheckOptions.readFiles, FileWork.within, FileWork.within_bind, ih]
    rfl

/-- String tables that are all well formed are read. -/
theorem readTables_within (t : StringTable)
    (parsed : ∀ path ∈ tables, ∃ t, tableOfFile path (w.read? path) = .ok t) :
    ∃ t', (CheckOptions.readTables t tables).within w = (.ok t', w) := by
  induction tables generalizing t with
  | nil => exact ⟨t, rfl⟩
  | cons path paths ih =>
    obtain ⟨⟨t', here⟩, rest⟩ := List.forall_mem_cons.mp parsed
    rw [CheckOptions.readTables, FileWork.within, here]
    cases bytes : w.read? path with
    | none =>
      rw [bytes] at here
      cases here
    | some _ => exact ih _ rest

/-- With well-formed string tables there is a report. -/
theorem examine_within (programs : List String) (start : String)
    (parsed : ∀ path ∈ tables, ∃ t, tableOfFile path (w.read? path) = .ok t) :
    ∃ t, (CheckOptions.examine programs tables start).within w =
      (.ok (checkFiles (programs.map w.file) start t), w) := by
  obtain ⟨t, read⟩ := readTables_within .empty parsed
  refine ⟨t, ?_⟩
  rw [CheckOptions.examine, FileWork.within_bind, readFiles_within, FileWork.within_bind, read]
  rfl

/-! ## A folder with a broken file -/

/-- Names of one part, from the place where the program runs. -/
def FileTree.Plain (name : String) : Prop :=
  parts name = [name] ∧ isUsable name = true ∧ name.isEmpty = false ∧ name.startsWith "/" = false

/-- The path of an entry is its name. -/
theorem WorkingFolder.read?_name (w : WorkingFolder) {name : String}
    (plain : FileTree.Plain name) :
    w.read? name = ((enter? w.root w.here name).bind w.root.at?).bind (·.bytes?) := by
  obtain ⟨parts, usable, named, relative⟩ := plain
  rw [read?, lookup?, resolve?, start, usable, parts, named, relative]
  simp

theorem ProgramFile.program?_encode {path : String} {p : Program} (bare : p.numbers = []) :
    (ProgramFile.mk path (some p.encode)).program? = some p := by
  have legible : Json.Legible p.numbers := by rw [bare]; exact List.forall_mem_nil _
  rw [program?, Option.bind_some, Program.decode?_encode legible, Option.guard, bare]
  rfl

/-- The way in, which leads on to the inn. -/
def Program.gate : Program := .ofNode "Start" [.line "hi" [], .runNode "Inn"]

def Program.inn : Program := .ofNode "Inn" [.stop]

/-- A file that holds no program, two whose programs need each other, and an empty string table. -/
def WorkingFolder.mixed : WorkingFolder :=
  ⟨.folder [("a", .file [0x7b]), ("b", .file Program.gate.encode), ("c", .file Program.inn.encode),
    ("t", .file [0x7b, 0x7d])], []⟩

/-- The files of the folder are read by their names. -/
theorem WorkingFolder.mixed_read? :
    mixed.read? "a" = some [0x7b] ∧ mixed.read? "b" = some Program.gate.encode ∧
      mixed.read? "c" = some Program.inn.encode ∧ mixed.read? "t" = some [0x7b, 0x7d] := by
  have plain : ∀ name ∈ ["a", "b", "c", "t"], FileTree.Plain name := by
    have parts : ∀ name ∈ ["a", "b", "c", "t"], FileTree.parts name = [name] := by
      simp only [List.forall_mem_cons]
      exact ⟨by cbv, by cbv, by cbv, by cbv, List.forall_mem_nil _⟩
    have bounds : ∀ name ∈ ["a", "b", "c", "t"],
        (name.utf8ByteSize ≤ FileTree.pathLimit ∧ name.utf8ByteSize ≤ FileTree.nameLimit) ∧
          name.toList.all (· != '\x00') = true ∧ name.isEmpty = false ∧
          name.startsWith "/" = false := by decide +kernel
    intro name mem
    obtain ⟨⟨short, short'⟩, whole, named, relative⟩ := bounds name mem
    refine ⟨parts name mem, ?_, named, relative⟩
    rw [FileTree.isUsable, parts name mem, whole]
    simp [short, short']
  exact ⟨(mixed.read?_name (plain "a" (by decide))).trans rfl,
    (mixed.read?_name (plain "b" (by decide))).trans rfl,
    (mixed.read?_name (plain "c" (by decide))).trans rfl,
    (mixed.read?_name (plain "t" (by decide))).trans rfl⟩

/-! ## The verdict of both -/

/-- Whatever files there are, as long as all string tables among them are well formed:
    the check of the programs has a report, which has no error exactly if the player, started with
    the same files and the same start node, loads the programs and then accepts them, whatever its
    own texts are. The same programs in another order, and other texts, lead to the same verdict. -/
theorem checks_agree (w : WorkingFolder) (programs tables : List String) (start : String)
    (parsed : ∀ path ∈ tables, ∃ t, tableOfFile path (w.read? path) = .ok t) :
    ∃ report, (CheckOptions.examine programs tables start).within w = (.ok report, w) ∧
      (∀ c : PlayerConfig, c.checksProgram = true → c.startNode = start → ∀ t,
        report.hasErrors = false ↔
          ∃ ps, (loadPrograms programs).within w = (.ok ps, w) ∧ c.vet ps t = .ok ()) ∧
      ∀ (w' : WorkingFolder) (programs' tables' : List String), programs'.Perm programs →
        (∀ path ∈ programs, w'.read? path = w.read? path) →
        (∀ path ∈ tables', ∃ t, tableOfFile path (w'.read? path) = .ok t) →
        ∃ report', (CheckOptions.examine programs' tables' start).within w' = (.ok report', w') ∧
          report'.hasErrors = report.hasErrors := by
  obtain ⟨t, examined⟩ := examine_within programs start parsed
  refine ⟨_, examined, ?_, ?_⟩
  · rintro c checks rfl t'
    simp only [checkFiles_hasErrors, loadPrograms_within, PlayerConfig.vet_eq_ok checks, Passes]
    exact ⟨fun ⟨all, playable⟩ => ⟨_, ⟨all, rfl⟩, playable⟩,
      fun ⟨_, ⟨all, loaded⟩, playable⟩ => ⟨all, loaded ▸ playable⟩⟩
  · intro w' programs' tables' perm same parsed'
    obtain ⟨t', examined'⟩ := examine_within programs' start parsed'
    have files : programs.map w'.file = programs.map w.file :=
      List.map_congr_left fun path mem => congrArg (ProgramFile.mk path) (same path mem)
    have perm' : (programs'.map w'.file).Perm (programs.map w.file) := files ▸ perm.map w'.file
    refine ⟨_, examined', ?_⟩
    rw [← Bool.not_inj_iff, Bool.eq_iff_iff, Bool.not_eq_true', Bool.not_eq_true',
      checkFiles_hasErrors, checkFiles_hasErrors]
    exact ⟨fun passes => passes.perm perm'.symm, fun passes => passes.perm perm'⟩

/-- The check goes on behind the broken file, whatever the order and the texts, and the player does
    not get any program. The other two files pass both, in any order and with any texts. -/
theorem checks_agree_mixed : ∃ report report' clean clean',
    (CheckOptions.examine ["b", "a"] ["t"] "Start").within .mixed = (.ok report, .mixed) ∧
    (CheckOptions.examine ["a", "b"] [] "Start").within .mixed = (.ok report', .mixed) ∧
    (∀ ps, (loadPrograms ["b", "a"]).within .mixed ≠ (.ok ps, .mixed)) ∧
    report.hasErrors = true ∧ report'.hasErrors = true ∧
    (CheckOptions.examine ["b", "c"] ["t"] "Start").within .mixed = (.ok clean, .mixed) ∧
    (CheckOptions.examine ["c", "b"] [] "Start").within .mixed = (.ok clean', .mixed) ∧
    (loadPrograms ["b", "c"]).within .mixed = (.ok [.gate, .inn], .mixed) ∧
    PlayerConfig.default.vet [.gate, .inn] .empty = .ok () ∧
    clean.hasErrors = false ∧ clean'.hasErrors = false := by
  obtain ⟨broken, gate, inn, table⟩ := WorkingFolder.mixed_read?
  have parsed : ∀ path ∈ ["t"],
      ∃ t, tableOfFile path (WorkingFolder.mixed.read? path) = .ok t := by
    simp only [List.mem_singleton, forall_eq, table]
    exact ⟨_, rfl⟩
  have none : ∀ ps, (loadPrograms ["b", "a"]).within .mixed ≠ (.ok ps, .mixed) := by
    intro ps loaded
    have held := (loadPrograms_within.mp loaded).1 _ (List.mem_cons_of_mem _ List.mem_cons_self)
    change (Option.bind (WorkingFolder.mixed.read? "a") Program.decode?).isSome = true at held
    rw [broken] at held
    cases held
  have both : (loadPrograms ["b", "c"]).within .mixed = (.ok [.gate, .inn], .mixed) := by
    have first : (WorkingFolder.mixed.file "b").program? = some .gate := by
      rw [WorkingFolder.file, gate]
      exact ProgramFile.program?_encode rfl
    have second : (WorkingFolder.mixed.file "c").program? = some .inn := by
      rw [WorkingFolder.file, inn]
      exact ProgramFile.program?_encode rfl
    refine loadPrograms_within.mpr ⟨?_, ?_⟩
    · simp [first, second]
    · simp [first, second]
  have accepted : PlayerConfig.default.vet [.gate, .inn] .empty = .ok () := by
    refine (PlayerConfig.vet_eq_ok rfl _ _).mpr ⟨_, rfl, ?_⟩
    rw [Bool.eq_false_iff, ne_eq, Program.check_hasErrors]
    decide +kernel
  obtain ⟨report, examined, agree, same⟩ :=
    checks_agree .mixed ["b", "a"] ["t"] "Start" parsed
  obtain ⟨report', examined', verdict⟩ :=
    same .mixed ["a", "b"] [] (.swap _ _ _) (fun _ _ => rfl)
      (List.forall_mem_nil _)
  have errors : report.hasErrors = true := by
    refine eq_true_of_ne_false fun clean => ?_
    obtain ⟨ps, loaded, -⟩ := (agree .default rfl rfl .empty).mp clean
    exact none ps loaded
  obtain ⟨clean, passed, agree, same⟩ :=
    checks_agree .mixed ["b", "c"] ["t"] "Start" parsed
  obtain ⟨clean', passed', verdict'⟩ :=
    same .mixed ["c", "b"] [] (.swap _ _ _) (fun _ _ => rfl)
      (List.forall_mem_nil _)
  have faultless : clean.hasErrors = false :=
    (agree .default rfl rfl .empty).mpr ⟨_, both, accepted⟩
  exact ⟨report, report', clean, clean', examined, examined', none, errors, verdict.trans errors,
    passed, passed', both, accepted, faultless, verdict'.trans faultless⟩

end DialogueEngine
