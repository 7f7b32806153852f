import DialogueEngine.Proofs.Bare.Extension
import DialogueEngine.Proofs.Program.Warnings

/-! # The texts that a machine asks for

A machine shows lines and options of its program only, so that a table which the check of the lines
finds complete has a text for everything that is shown.

* `Yield.lines` — what a yield shows.
* `Machine.Speaks` — the lines that a machine holds have a property.
* `Machine.Speaks.steps`, `Machine.serve_speaks` — a step, and any request.
* `Program.checkLines_exact` — what the check reports, and what it promises.
-/

namespace DialogueEngine

def Yield.lines : Yield → List Line
  | .line l => [l]
  | .choices cs => cs.options.map (·.line)
  | _ => []

namespace Machine

/-- The machine has a program, and the key of every line that it holds has a property. -/
structure Speaks (p : Program) (Q : String → Prop) (m : Machine) : Prop where
  program : m.program = some p
  pending : ∀ c ∈ m.pending, Q c.line.id
  queued : ∀ y ∈ m.queue, y.lines = []

/-- The step shows only keys with the property, and ends in a machine that speaks so. -/
def Says (p : Program) (Q : String → Prop) (r : Stepped) : Prop :=
  (∀ y, r.1 = .ok y → ∀ l ∈ y.lines, Q l.id) ∧ r.2.Speaks p Q

variable {p : Program} {Q : String → Prop} {m m' : Machine} {i : Instruction}
  {is : List Instruction} {r : Stepped}

theorem speaks_stop (program : m.program = some p) : m.stop.Speaks p Q := ⟨program, nofun, nofun⟩

/-- The end of a node shows nothing. -/
theorem leaving_lines (m : Machine) : ∀ y ∈ m.leaving, y.lines = [] := by
  intro y hy
  cases m.leaving_marks y hy <;> rfl

theorem says_error {e : EngineError} (speaks : m.Speaks p Q) : Says p Q (.error e, m) :=
  ⟨nofun, speaks⟩

theorem says_ok {y : Yield} (shown : ∀ l ∈ y.lines, Q l.id) (speaks : m.Speaks p Q) :
    Says p Q (.ok y, m) :=
  ⟨fun _ same => by cases same; exact shown, speaks⟩

namespace Speaks

theorem enter {node : String} (program : m.program = some p) (entered : m.enter node = .ok m') :
    m'.Speaks p Q := by
  obtain ⟨_, rfl⟩ := enter_eq entered
  refine ⟨program, nofun, fun y hy => ?_⟩
  cases List.mem_singleton.mp hy
  rfl

theorem advance (speaks : m.Speaks p Q) : m.advance.Speaks p Q :=
  ⟨speaks.program, speaks.pending, speaks.queued⟩

theorem finish (speaks : m.Speaks p Q) : m.finish.Speaks p Q := by
  refine ⟨speaks.program, nofun, fun y hy => ?_⟩
  rcases List.mem_append.mp hy with hy | hy
  · rcases List.mem_append.mp hy with hy | hy
    · exact speaks.queued y hy
    · exact m.leaving_lines y hy
  · cases List.mem_singleton.mp hy
    rfl

theorem moveTo {target : String} (speaks : m.Speaks p Q) (moved : m.moveTo target = .ok m') :
    m'.Speaks p Q := by
  rw [moveTo_eq moved]
  refine ⟨speaks.program, nofun, fun y hy => ?_⟩
  rcases List.mem_append.mp hy with hy | hy
  · rcases List.mem_append.mp hy with hy | hy
    · exact speaks.queued y hy
    · exact m.leaving_lines y hy
  · cases List.mem_singleton.mp hy
    rfl

/-- What is queued shows nothing. -/
theorem pop (speaks : m.Speaks p Q) : Says p Q (.ok m.pop.1, m.pop.2) := by
  unfold Machine.pop
  cases queue : m.queue with
  | nil => exact says_ok nofun speaks
  | cons y rest =>
    have shown : ∀ z ∈ y :: rest, z.lines = [] := queue ▸ speaks.queued
    refine says_ok ?_
      ⟨speaks.program, speaks.pending, fun z hz => shown z (List.mem_cons_of_mem _ hz)⟩
    rw [shown y List.mem_cons_self]
    nofun

theorem choose {id : Nat} (speaks : m.Speaks p Q) (chosen : m.choose id = .ok m') :
    m'.Speaks p Q := by
  obtain ⟨_, m₁, moved, rfl⟩ := choose_eq chosen
  have arrived := speaks.moveTo moved
  exact ⟨arrived.program, arrived.pending, arrived.queued⟩

/-! ## A step -/

theorem passes (speaks : m.Speaks p Q) (shows : ∀ id, i.Shows id → Q id) (passes : m.Passes i m') :
    m'.Speaks p Q := by
  cases passes with
  | addOption texts =>
    refine ⟨speaks.program, fun c hc => ?_, speaks.queued⟩
    rcases List.mem_append.mp hc with hc | hc
    · exact speaks.pending c hc
    · cases List.mem_singleton.mp hc
      exact shows _ (.addOption ..)
  | showOptions | set | jumpIf => exact speaks.advance

theorem ends (speaks : m.Speaks p Q) (shows : ∀ id, i.Shows id → Q id) (ends : m.Ends i r) :
    Says p Q r := by
  cases ends with
  | line texts =>
    refine says_ok (fun l hl => ?_) speaks.advance
    cases List.mem_singleton.mp hl
    exact shows _ (.line _)
  | showOptions =>
    refine says_ok (fun l hl => ?_) ⟨speaks.program, nofun, speaks.queued⟩
    obtain ⟨c, hc, rfl⟩ := List.mem_map.mp hl
    exact speaks.pending c hc
  | command => exact says_ok nofun speaks.advance
  | jump jumps moved => exact (speaks.advance.moveTo moved).pop
  | stop => exact speaks.advance.finish.pop
  | lost | failed => exact says_error speaks.advance

theorem executes (speaks : m.Speaks p Q) (shows : ∀ i ∈ is, ∀ id, i.Shows id → Q id)
    (executes : m.Executes is r) : Says p Q r := by
  induction executes with
  | finish m => exact speaks.finish.pop
  | pass passes _ ih =>
    apply ih (speaks.passes (shows _ List.mem_cons_self) passes)
    exact fun i hi => shows i (List.mem_cons_of_mem _ hi)
  | ends ends => exact speaks.ends (shows _ List.mem_cons_self) ends

/-- If the keys of all instructions have a property, so have those that a step shows. -/
theorem steps (speaks : m.Speaks p Q)
    (shows : ∀ name node, p.find? name = some node → ∀ i ∈ node.instructions, ∀ id, i.Shows id → Q id)
    (steps : m.Steps r) : Says p Q r := by
  cases steps with
  | queued waiting => exact speaks.pop
  | awaiting | stopped | unplaced => exact says_error speaks
  | executes ready remaining executes =>
    obtain ⟨p', f, node, program, _, found, rfl⟩ := remaining_eq_ok remaining
    cases program.symm.trans speaks.program
    apply speaks.executes _ executes
    exact fun i hi => shows f.node node found i (List.mem_of_mem_drop hi)

end Speaks

/-! ## Requests -/

/-- Whatever a machine is asked for that keeps its program, it shows only keys of the program. -/
theorem serve_speaks
    (shows : ∀ name node, p.find? name = some node → ∀ i ∈ node.instructions, ∀ id, i.Shows id → Q id)
    (m : Machine) (request : Request) (keeps : request.keepsProgram = true)
    (speaks : m.Speaks p Q) :
    (m.serve request).All fun r =>
      (∀ y, r.1 = .ok (some y) → ∀ l ∈ y.lines, Q l.id) ∧ r.2.Speaks p Q := by
  cases request with
  | load | add | unload => cases keeps
  | enter node =>
    exact attempt_all (fun _ entered => ⟨nofun, .enter speaks.program entered⟩)
      fun _ _ => ⟨nofun, speaks⟩
  | next =>
    apply m.next_steps.bind
    intro r steps
    obtain ⟨shown, speaks⟩ := speaks.steps shows steps
    refine ⟨fun y handed => ?_, speaks⟩
    obtain ⟨e | z, m'⟩ := r
    · cases handed
    · cases handed
      exact shown _ rfl
  | choose id =>
    exact attempt_all (fun _ chosen => ⟨nofun, speaks.choose chosen⟩) fun _ _ => ⟨nofun, speaks⟩
  | stop => exact ⟨nofun, speaks_stop speaks.program⟩

end Machine

/-! ## The check of the lines -/

/-- If the check of the lines reports nothing, then the table has a text for every line and every
    option that a machine shows in this program, whatever node it is started at, whatever the store
    answers, whatever is chosen and whatever fails; so each of them is filled in from its own text.
    What the check reports are exactly the instructions that show a missing text, with node, place
    and key, and each of these is reported once. -/
theorem Program.checkLines_exact (p : Program) (t : StringTable) :
    (p.checkLines t = [] →
      ∀ (m m' : Machine) (start : String), m.program = some p → m.enter start = .ok m' →
      ∀ requests : List Machine.Request, (∀ q ∈ requests, q.keepsProgram = true) →
        (m'.serveAll requests).All fun r =>
          ∀ y, .ok (some y) ∈ r.1 → ∀ l ∈ y.lines, ∃ text, t.find? l.id = some text ∧
            t.resolve l = String.ofList (StringTable.fill 0 l.substitutions text.toList)) ∧
    (∀ d, d ∈ p.checkLines t ↔
      ∃ node index n i id, p.find? node = some n ∧ n.instructions[index]? = some i ∧ i.Shows id ∧
        t.contains id = false ∧ d = p.missingText node index id) ∧
    ∀ node index n i id, p.find? node = some n → n.instructions[index]? = some i → i.Shows id →
      t.contains id = false →
      (p.checkLines t).filter (·.isAt node index) = [p.missingText node index id] := by
  refine ⟨fun clean m m' start program entered requests keep => ?_, fun d => mem_checkLines,
    fun node index n i id found fetched shows missing =>
      checkLines_missing found fetched shows missing⟩
  have complete : ∀ name node, p.find? name = some node → ∀ i ∈ node.instructions, ∀ id,
      i.Shows id → t.contains id = true := by
    intro name node found i hi id shows
    obtain ⟨index, within, rfl⟩ := List.getElem_of_mem hi
    by_contra missing
    have reported : p.missingText name index id ∈ p.checkLines t :=
      mem_checkLines.mpr ⟨name, index, node, _, id, found, List.getElem?_eq_getElem within, shows,
        Bool.eq_false_iff.mpr missing, rfl⟩
    rw [clean] at reported
    cases reported
  have served := Machine.serveAll_all
    (A := fun reply => ∀ y, reply = .ok (some y) → ∀ l ∈ y.lines, t.contains l.id = true)
    (Machine.serve_speaks complete) (.enter program entered) requests keep
  apply served.imp
  intro r told y handed l hl
  obtain ⟨text, found⟩ := Option.isSome_iff_exists.mp (told.1 _ handed y rfl l hl)
  exact ⟨text, found, by rw [StringTable.resolve, show t.find? l.id = _ from found]⟩

/-- A line and an option, and a line whose variable is not set. -/
def Program.spoken : Program :=
  .ofNode "Start" [.addOption "stay" [] "Start", .line "who" [.reference "name"], .showOptions]

/-- With both texts nothing is missing, whatever comes of the variable; without that of the option
    this is the one report. -/
theorem Program.checkLines_exact_spoken :
    let whole : StringTable := .ofList [("stay", "Stay."), ("who", "I am {0}.")]
    let part : StringTable := .ofList [("who", "I am {0}.")]
    let requests : List Machine.Request := [.next, .next, .next, .choose 0, .next, .stop]
    spoken.checkLines whole = [] ∧
      (∃ m, (Machine.empty.load spoken).enter "Start" = .ok m ∧
        (m.serveAll requests).All fun r =>
          ∀ y, .ok (some y) ∈ r.1 → ∀ l ∈ y.lines, ∃ text, whole.find? l.id = some text ∧
            whole.resolve l = String.ofList (StringTable.fill 0 l.substitutions text.toList)) ∧
      spoken.missingText "Start" 0 "stay" ∈ spoken.checkLines part ∧
      (spoken.checkLines part).filter (·.isAt "Start" 0) = [spoken.missingText "Start" 0 "stay"] := by
  intro whole part requests
  have clean : spoken.checkLines whole = [] := rfl
  have entered : (Machine.empty.load spoken).enter "Start" = .ok _ := rfl
  obtain ⟨found, _⟩ := checkLines_exact spoken whole
  obtain ⟨_, reported, once⟩ := checkLines_exact spoken part
  refine ⟨clean, ⟨_, entered, found clean _ _ _ rfl entered requests (by decide)⟩, ?_, ?_⟩
  · exact (reported _).mpr ⟨"Start", 0, _, _, "stay", rfl, rfl, .addOption [] "Start", rfl, rfl⟩
  · exact once "Start" 0 _ _ "stay" rfl rfl (.addOption [] "Start") rfl

end DialogueEngine
