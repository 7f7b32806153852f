import DialogueEngine.Proofs.Bare.Deeds

/-! # Instructions one at a time

A step of the machine carries out one instruction after the other until one of them hands something
out or fails. Each is carried out in a state of its own, and all of them are known afterwards.

* `Machine.perform`, `Machine.execute_cons` — one instruction, and a step made of such.
* `Machine.Performs` — what one instruction can do.
* `Bare.carried` — the instructions that a deed carries out, each with the state it is carried
  out in.
* `Bare.carries_carry`, `Bare.run_next` — they are those that a step of the machine executes.
* `Chapter`, `Bare.chapter` — what a run has done since it has last begun a node.
-/

namespace DialogueEngine

variable {σ α β γ : Type}

namespace Machine

/-- A step that ends here, as an answer. -/
def handOut (x : Access Stepped) : Access (Reply × Machine) :=
  x.bind fun r => .done (r.1.map some, r.2)

/-- Carries out one instruction. If it hands nothing out the machine goes on with the next one. -/
def perform (m : Machine) (i : Instruction) : Access (Reply × Machine) :=
  let m := m.advance
  match i with
  | .line id substitutions => (Operand.texts substitutions).bind fun r =>
    match r with
    | .error e => .done (.error e, m)
    | .ok ts => .done (.ok (some (.line ⟨id, ts⟩)), m)
  | .addOption id substitutions destination => (Operand.texts substitutions).bind fun r =>
    match r with
    | .error e => .done (.error e, m)
    | .ok ts => .done (.ok none, m.addChoice ⟨id, ts⟩ destination)
  | .showOptions =>
    if m.pending.isEmpty then .done (.ok none, m)
    else .done (.ok (some (.choices ⟨m.pending⟩)), m.offer)
  | .command text => .done (.ok (some (.command ⟨text⟩)), m)
  | .set name operand => operand.evaluate.bind fun r =>
    match r with
    | .error e => .done (.error e, m)
    | .ok value => .write name value fun r =>
      match r with
      | .error e => .done (.error (.capability e), m)
      | .ok () => .done (.ok none, m)
  | .jumpIf name node => .read name fun r =>
    match r with
    | .error e => .done (.error (.capability e), m)
    | .ok flag =>
      if flag.bind Value.bool? = some true then handOut (m.jump node) else .done (.ok none, m)
  | .runNode node => handOut (m.jump node)
  | .stop => handOut m.finish.yieldQueued

def resume (rest : List Instruction) (r : Reply × Machine) : Access Stepped :=
  match r.1 with
  | .ok none => r.2.execute rest
  | .ok (some y) => r.2.yield y
  | .error e => r.2.fail e

variable {m : Machine}

theorem handOut_resume (x : Access Stepped) (rest : List Instruction) :
    (handOut x).bind (resume rest) = x := by
  unfold handOut
  rw [Access.bind_assoc]
  induction x with
  | done r =>
    obtain ⟨e | y, m⟩ := r <;> rfl
  | read name k ih => exact congrArg (Access.read name) (funext ih)
  | write name value k ih => exact congrArg (Access.write name value) (funext ih)

/-- A step carries out the first instruction, and goes on with the others. -/
theorem execute_cons (m : Machine) (i : Instruction) (rest : List Instruction) :
    m.execute (i :: rest) = (m.perform i).bind (resume rest) := by
  cases i with
  | line id substitutions =>
    unfold execute perform
    dsimp only
    rw [Access.bind_assoc]
    refine congrArg _ (funext fun r => ?_)
    cases r <;> rfl
  | addOption id substitutions destination =>
    unfold execute perform
    dsimp only
    rw [Access.bind_assoc]
    refine congrArg _ (funext fun r => ?_)
    cases r <;> rfl
  | showOptions =>
    unfold execute perform
    dsimp only
    split <;> rfl
  | command text => rfl
  | set name operand =>
    unfold execute perform
    dsimp only
    rw [Access.bind_assoc]
    refine congrArg _ (funext fun r => ?_)
    cases r with
    | error e => rfl
    | ok value =>
      refine congrArg (Access.write name value) (funext fun r => ?_)
      cases r <;> rfl
  | jumpIf name node =>
    unfold execute perform
    refine congrArg (Access.read name) (funext fun r => ?_)
    cases r with
    | error e => rfl
    | ok flag =>
      dsimp only
      split
      · exact (handOut_resume _ rest).symm
      · rfl
  | runNode node => exact (handOut_resume _ rest).symm
  | stop => exact (handOut_resume _ rest).symm

/-- What one instruction can do. -/
inductive Performs (m : Machine) (i : Instruction) : Reply × Machine → Prop
  | passes {m' : Machine} (passes : m.Passes i m') : Performs m i (.ok none, m')
  | ends {r : Stepped} (ends : m.Ends i r) : Performs m i (r.1.map some, r.2)

theorem handOut_performs {x : Access Stepped} {i : Instruction} (ends : x.All (m.Ends i)) :
    (handOut x).All (m.Performs i) :=
  ends.bind fun _ ends => .ends ends

theorem perform_performs (m : Machine) (i : Instruction) : (m.perform i).All (m.Performs i) := by
  cases i with
  | line id substitutions =>
    refine (Operand.texts_answered substitutions).bind fun r hr => ?_
    cases r with
    | error e => exact .ends (.failed (hr e rfl))
    | ok ts => exact .ends (.line ts)
  | addOption id substitutions destination =>
    refine (Operand.texts_answered substitutions).bind fun r hr => ?_
    cases r with
    | error e => exact .ends (.failed (hr e rfl))
    | ok ts => exact .passes (.addOption ts)
  | showOptions =>
    unfold perform
    dsimp only
    split
    · rename_i none
      exact .passes (.showOptions (List.isEmpty_iff.mp none))
    · rename_i some
      exact .ends (.showOptions (m := m) fun none => some (List.isEmpty_iff.mpr none))
  | command text => exact .ends .command
  | set name operand =>
    refine operand.evaluate_answered.bind fun r hr => ?_
    cases r with
    | error e => exact .ends (.failed (hr e rfl))
    | ok value =>
      intro r
      cases r with
      | error e => exact .ends (.failed (.capability e))
      | ok u => exact .passes .set
  | jumpIf name node =>
    intro r
    cases r with
    | error e => exact .ends (.failed (.capability e))
    | ok flag =>
      dsimp only
      split
      · exact handOut_performs (jump_ends (.jumpIf name))
      · exact .passes .jumpIf
  | runNode node => exact handOut_performs (jump_ends .runNode)
  | stop => exact .ends .stop

end Machine

/-! ## The instructions of a deed -/

namespace Bare

def perform (b : Bare σ) (i : Instruction) : Machine.Reply × Bare σ :=
  b.run (b.machine.perform i)

theorem run_execute_cons (b : Bare σ) (i : Instruction) (rest : List Instruction) :
    b.run (b.machine.execute (i :: rest)) =
      match b.perform i with
      | (.ok none, b') => b'.run (b'.machine.execute rest)
      | (.ok (some y), b') => (.ok y, b')
      | (.error e, b') => (.error e, b') := by
  rw [Machine.execute_cons, run_bind]
  change (b.perform i).2.run (Machine.resume rest ((b.perform i).1, (b.perform i).2.machine)) = _
  obtain ⟨e | _ | y, b'⟩ := b.perform i <;> rfl

/-- The first of the instructions, and the others as long as nothing is handed out and none fails,
    each with the state that it is carried out in. -/
def carry (b : Bare σ) : List Instruction → List (Bare σ × Instruction)
  | [] => []
  | i :: rest =>
    match b.perform i with
    | (.ok none, b') => (b, i) :: b'.carry rest
    | _ => [(b, i)]

/-- Instructions are carried out one after the other, each in the state that the one before it has
    led to, up to one that hands something out or fails. With them comes the answer: that of the
    last one, or at the end of a node what is handed out when it is left. -/
inductive Carries : Bare σ → List Instruction → List (Bare σ × Instruction) →
    Except EngineError Yield × Bare σ → Prop
  | finish (b : Bare σ) : Carries b [] [] (b.run b.machine.finish.yieldQueued)
  | pass {b b' : Bare σ} {i : Instruction} {is : List Instruction}
      {steps : List (Bare σ × Instruction)} {r : Except EngineError Yield × Bare σ}
      (performed : b.perform i = (.ok none, b')) (rest : Carries b' is steps r) :
      Carries b (i :: is) ((b, i) :: steps) r
  | hand {b b' : Bare σ} {i : Instruction} {is : List Instruction} {y : Yield}
      (performed : b.perform i = (.ok (some y), b')) : Carries b (i :: is) [(b, i)] (.ok y, b')
  | fail {b b' : Bare σ} {i : Instruction} {is : List Instruction} {e : EngineError}
      (performed : b.perform i = (.error e, b')) : Carries b (i :: is) [(b, i)] (.error e, b')

theorem carries_carry (b : Bare σ) (is : List Instruction) :
    b.Carries is (b.carry is) (b.run (b.machine.execute is)) := by
  induction is generalizing b with
  | nil => exact .finish b
  | cons i is ih =>
    rw [run_execute_cons, carry]
    cases performed : b.perform i with
    | mk reply b' =>
      obtain e | _ | y := reply
      · exact .fail performed
      · exact .pass performed (ih b')
      · exact .hand performed

/-- The instructions that a deed carries out. -/
def carried (b : Bare σ) : Deed σ → List (Bare σ × Instruction)
  | .request .next =>
    match b.machine.queue, b.machine.state, b.machine.remaining with
    | [], .running, .ok is => b.carry is
    | _, _, _ => []
  | _ => []

/-- A machine that runs, and has nothing queued, carries out what is left of the node. -/
theorem run_next {b : Bare σ} {is : List Instruction} (queue : b.machine.queue = [])
    (state : b.machine.state = .running) (remaining : b.machine.remaining = .ok is) :
    b.run b.machine.next = b.run (b.machine.execute is) ∧
      b.carried (.request .next) = b.carry is := by
  have next : b.machine.next = b.machine.execute is := by
    simp [Machine.next, queue, state, remaining]
  exact ⟨congrArg b.run next, by simp only [carried, queue, state, remaining]⟩

/-- The option that an instruction adds: a line with its texts as they are at that moment, and the
    node that the option leads to. An instruction that fails adds none. -/
def option? (step : Bare σ × Instruction) : Option (Line × String) :=
  match step.2 with
  | .addOption id substitutions destination =>
    match ((Operand.texts substitutions).run step.1.store step.1.host).1 with
    | .ok ts => some (⟨id, ts⟩, destination)
    | .error _ => none
  | _ => none

end Bare

/-! ## Chapters -/

/-- What a run has come to since it has last handed out the beginning of a node. -/
structure Chapter (σ : Type) where
  /-- What has been handed out last. -/
  handed : Option Yield
  /-- The node. -/
  node : Option String
  /-- The instructions carried out since its beginning. -/
  carried : List (Bare σ × Instruction)

namespace Chapter

def empty : Chapter σ := ⟨none, none, []⟩

def carry (c : Chapter σ) (steps : List (Bare σ × Instruction)) : Chapter σ :=
  { c with carried := c.carried ++ steps }

/-- Goes on with a yield. The beginning of a node is the beginning of a chapter. -/
def hand (c : Chapter σ) (y : Yield) : Chapter σ :=
  match y with
  | .nodeStart node => ⟨some y, some node, []⟩
  | _ => { c with handed := some y }

def hear (c : Chapter σ) : Feedback → Chapter σ
  | .machine (.ok (some y)) => c.hand y
  | _ => c

/-- The options added since the beginning of the node. -/
def added (c : Chapter σ) : List (Line × String) := c.carried.filterMap Bare.option?

theorem added_carry (c : Chapter σ) (steps : List (Bare σ × Instruction)) :
    (c.carry steps).added = c.added ++ steps.filterMap Bare.option? :=
  List.filterMap_append

end Chapter

/-- The chapter that deeds lead to. -/
def Bare.chapter (b : Bare σ) (c : Chapter σ) : List (Deed σ) → Chapter σ
  | [] => c
  | d :: deeds => (b.take d).2.chapter ((c.carry (b.carried d)).hear (b.take d).1) deeds

theorem Bare.chapter_concat (b : Bare σ) (c : Chapter σ) (deeds : List (Deed σ)) (d : Deed σ) :
    b.chapter c (deeds ++ [d]) =
      ((b.chapter c deeds).carry ((b.after deeds).carried d)).hear ((b.after deeds).take d).1 := by
  induction deeds generalizing b c with
  | nil => rfl
  | cons d deeds ih => exact ih _ _

end DialogueEngine
