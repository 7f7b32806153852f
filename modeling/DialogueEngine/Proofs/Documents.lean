import DialogueEngine.Coordinator.Settings
import DialogueEngine.Presenter.Queue
import DialogueEngine.Proofs.Program.Decoding

/-! # Documents of a dialogue

Everything that a dialogue writes as a document is read back as it was.

* `Line.codec`, `Choices.codec`, `Settings.codec` and their like — one for each type.
* `PresentationEvent.options?_dict` — numbers as keys of an object.
* `documents_reread` — all of them together, with programs and their parts.
-/

namespace DialogueEngine

open Json

/-! ## Lines, commands and choices -/

theorem Line.codec :
    Codec (fun _ => True) (fun _ => true) 2 Line.toJson Line.ofJson? where
  written l _ := .record (by simp [Written.text, Written.texts])
  read_write l _ := by
    simp [toJson, ofJson?, Option.guard]
  finite_of_read _ _ _ := rfl

theorem Command.codec :
    Codec (fun _ => True) (fun _ => true) 1 Command.toJson Command.ofJson? where
  written c _ := .record (by simp [Written.text])
  read_write c _ := by
    simp [toJson, ofJson?, Option.guard]
  finite_of_read _ _ _ := rfl

theorem Choice.codec :
    Codec (fun c => c.id < Word.bound) (fun _ => true) 3 Choice.toJson Choice.ofJson? where
  written c small := .record (by simp [Written.text, Written.natural small, Line.codec.written])
  read_write c small := by
    have line := Line.codec.read_write c.line trivial
    simp [toJson, ofJson?, line, small, Option.guard]
  finite_of_read _ _ _ := rfl

theorem Choices.codec :
    Codec (fun cs => ∀ c ∈ cs.options, c.id < Word.bound) (fun _ => true) 5 Choices.toJson
      Choices.ofJson? where
  written cs small := .record (by simp [Choice.codec.list.written cs.options small])
  read_write cs small := by
    have options := Choice.codec.list.read_write cs.options small
    simp [toJson, ofJson?, options, Option.guard]
  finite_of_read _ _ _ := rfl

/-! ## Phases, paces and events -/

theorem Phase.codec :
    Codec (fun _ => True) (fun _ => true) 0 Phase.toJson Phase.ofJson? where
  written p _ := .text p.text
  read_write p _ := by
    cases p <;> simp [toJson, ofJson?, text, unit?, Option.guard]
  finite_of_read _ _ _ := rfl

theorem Pace.codec :
    Codec (fun _ => True) (fun _ => true) 0 Pace.toJson Pace.ofJson? where
  written p _ := by cases p <;> exact .text _
  read_write p _ := by
    cases p <;> simp [toJson, ofJson?, unit?, Option.guard]
  finite_of_read _ _ _ := rfl

theorem LifecycleEvent.codec :
    Codec (fun _ => True) (fun _ => true) 1 LifecycleEvent.toJson LifecycleEvent.ofJson? where
  written e _ := by
    cases e with
    | dialogueComplete => exact .text _
    | _ => exact .record (by simp [Written.text])
  read_write e _ := by
    cases e <;> simp [toJson, ofJson?, unit?, Option.guard]
  finite_of_read _ _ _ := rfl

namespace PresentationEvent

def ids : PresentationEvent → List Nat
  | .displayOptions options => options.keys
  | _ => []

/-- A key of digits is read as the number that the digits write. -/
theorem keyIndex?_digits {n : Nat} (small : n < Word.bound) :
    keyIndex? (lexemeOf (String.ofList (Nat.toDigits 10 n))) = some n := by
  rw [lexemeOf_digits, keyIndex?, Number.ofLexeme?_natural small]

theorem options?_dict {options : Dict Nat String} (small : ∀ n ∈ options.keys, n < Word.bound) :
    options? (.dict .text
      (options.entries.map fun e => (String.ofList (Nat.toDigits 10 e.1), e.2))) =
      some options := by
  unfold options? dict record
  dsimp only
  rw [List.map_map, List.map_map, mapM_guard (P := fun _ => true)]
  · simp [Option.guard, Dict.ofList_entries]
  · intro e mem
    simp [keyIndex?_digits (small e.1 (List.mem_map_of_mem mem)), Option.guard]

theorem codec :
    Codec (fun e => ∀ n ∈ e.ids, n < Word.bound) (fun _ => true) 3 toJson ofJson? where
  written e small := by
    cases e with
    | dialogueComplete => exact .text _
    | displayOptions options =>
      refine .record (List.forall_mem_singleton.mpr (.record (List.forall_mem_singleton.mpr ?_)))
      exact .dict fun e _ => .text e.2
    | _ => exact .record (List.forall_mem_singleton.mpr (.record (by simp [Written.text])))
  read_write e small := by
    cases e with
    | displayOptions options =>
      simp [toJson, ofJson?, options?_dict small,
        Option.guard]
    | _ =>
      simp [toJson, ofJson?, unit?, Option.guard]
  finite_of_read _ _ _ := rfl

end PresentationEvent

/-! ## Settings -/

def Settings.numbers (s : Settings) : List Float := s.initialVariables.values.flatMap Value.numbers

theorem Settings.codec :
    Codec (fun s => Legible s.numbers) (allFinite ·.numbers) 2 Settings.toJson Settings.ofJson? := by
  have values := (Value.codec 0).dict
  constructor
  case written =>
    intro s legible
    refine .record ?_
    simp [Written.text, Written.bool, values.written s.initialVariables legible.of_values]
  case read_write =>
    intro s legible
    have given := values.read_write s.initialVariables legible.of_values
    calc ofJson? s.toJson
      _ = (dict? Value.ofJson? (.dict Value.toJson s.initialVariables.entries)).bind
            fun values => some ⟨s.startNode, s.startAutomatically, values⟩ := by
        simp [toJson, ofJson?, bool?]
      _ = _ := by
        rw [given]
        exact guard_bind (allFinite_values s.initialVariables Value.numbers)
  case finite_of_read =>
    intro j s read
    obtain ⟨fields, -, read⟩ := Option.bind_eq_some_iff.mp read
    obtain ⟨startNode, -, read⟩ := Option.bind_eq_some_iff.mp read
    obtain ⟨startAutomatically, -, read⟩ := Option.bind_eq_some_iff.mp read
    obtain ⟨given, found, read⟩ := Option.bind_eq_some_iff.mp read
    cases read
    refine (allFinite_values given Value.numbers).trans ?_
    exact of_fieldD? values.finite_of_read rfl found

/-! ## All documents -/

/-- Documents survive being written and read, as far as their doubles do. Writing never fails: even
    a program with a literal that is not finite becomes a document, but one that is refused.
    Numbers of options are words, as they are wherever documents come from. -/
theorem documents_reread :
    (∀ p : Program, Legible p.numbers →
      parse? p.encode = some p.toJson ∧
      Program.decode p.encode = if allFinite p.numbers then .ok p else .error .undecodable) ∧
    (∀ (bytes : List UInt8) (p : Program), Program.decode bytes = .ok p →
      allFinite p.numbers = true ∧
      (Legible p.numbers → Program.decode p.encode = .ok p ∧
        (Program.decode p.encode).map Program.encode = .ok p.encode)) ∧
    (∀ n : Node, Legible n.numbers →
      reread (Node.ofJson? 0) n.toJson = if allFinite n.numbers then some n else none) ∧
    (∀ i : Instruction, Legible i.numbers →
      reread (Instruction.ofJson? 0) i.toJson = if allFinite i.numbers then some i else none) ∧
    (∀ o : Operand, Legible o.numbers →
      reread Operand.ofJson? o.toJson = if allFinite o.numbers then some o else none) ∧
    (∀ s : Settings, Legible s.numbers →
      reread Settings.ofJson? s.toJson = if allFinite s.numbers then some s else none) ∧
    (∀ l : Line, reread Line.ofJson? l.toJson = some l) ∧
    (∀ c : Command, reread Command.ofJson? c.toJson = some c) ∧
    (∀ c : Choice, c.id < Word.bound → reread Choice.ofJson? c.toJson = some c) ∧
    (∀ cs : Choices, (∀ c ∈ cs.options, c.id < Word.bound) →
      reread Choices.ofJson? cs.toJson = some cs) ∧
    (∀ p : Phase, reread Phase.ofJson? p.toJson = some p) ∧
    (∀ e : LifecycleEvent, reread LifecycleEvent.ofJson? e.toJson = some e) ∧
    (∀ p : Pace, reread Pace.ofJson? p.toJson = some p) ∧
    ∀ e : PresentationEvent, (∀ n ∈ e.ids, n < Word.bound) →
      reread PresentationEvent.ofJson? e.toJson = some e := by
  refine ⟨fun p legible => ⟨?_, Program.decode_encode legible⟩, fun bytes p decoded => ?_,
    fun _ => (Node.codec 0 (by decide)).reread, fun _ => (Instruction.codec 0 (by decide)).reread,
    fun _ => (Operand.codec 0).reread, fun _ => Settings.codec.reread,
    fun _ => Line.codec.reread trivial, fun _ => Command.codec.reread trivial,
    fun _ => Choice.codec.reread, fun _ => Choices.codec.reread,
    fun _ => Phase.codec.reread trivial, fun _ => LifecycleEvent.codec.reread trivial,
    fun _ => Pace.codec.reread trivial, fun _ => PresentationEvent.codec.reread⟩
  · exact parse?_write (Program.codec.written p legible)
  · have finite := Program.finite_of_decode decoded
    refine ⟨finite, fun legible => ?_⟩
    rw [Program.decode_encode legible, if_pos finite]
    exact ⟨rfl, rfl⟩

/-- A program with characters that have to be escaped, and with one literal. -/
def Program.escaping (x : Float) : Program :=
  empty.withNode "a\t\"é\"" ⟨["\x00"],
    [.set "gold" (.literal (.number x)), .line "\\n" [.reference "gold"], .stop]⟩

/-- A tab, quotes, a null and a backslash come back, and a half does; an infinite literal is
    refused. -/
theorem documents_reread_escaping :
    Program.decode (Program.escaping 0.5).encode = .ok (.escaping 0.5) ∧
    Program.decode (Program.escaping (1.0 / 0.0)).encode = .error .undecodable ∧
    (Program.decode (Program.escaping 0.5).encode).map Program.encode =
      .ok (Program.escaping 0.5).encode ∧
    reread (Node.ofJson? 0) (Node.mk ["\x00"] [.stop]).toJson = some ⟨["\x00"], [.stop]⟩ ∧
    reread (Instruction.ofJson? 0) (Instruction.set "gold" (.literal (.number 0.5))).toJson =
      some (.set "gold" (.literal (.number 0.5))) ∧
    reread Operand.ofJson? (Operand.literal (.number (1.0 / 0.0))).toJson = none ∧
    reread Settings.ofJson? Settings.default.toJson = some .default ∧
    reread Choice.ofJson? (Choice.mk 7 ⟨"é", ["\t"]⟩ "Start").toJson =
      some ⟨7, ⟨"é", ["\t"]⟩, "Start"⟩ ∧
    reread Choices.ofJson? (Choices.mk [⟨7, ⟨"é", ["\t"]⟩, "Start"⟩]).toJson =
      some ⟨[⟨7, ⟨"é", ["\t"]⟩, "Start"⟩]⟩ ∧
    reread PresentationEvent.ofJson?
      (PresentationEvent.displayOptions (Dict.empty.insert 10 "ten")).toJson =
      some (.displayOptions (Dict.empty.insert 10 "ten")) := by
  have half : Legible [0.5] ∧ allFinite [0.5] = true := by decide +kernel
  have beyond : Legible [1.0 / 0.0] ∧ allFinite [1.0 / 0.0] = false := by decide +kernel
  have infinite := ne_true_of_eq_false beyond.2
  obtain ⟨programs, decoded, nodes, instructions, operands, settings, -, -, choices, sets, -, -, -,
    events⟩ := documents_reread
  have same : Program.decode (Program.escaping 0.5).encode = .ok (.escaping 0.5) :=
    (programs (.escaping 0.5) half.1).2.trans (if_pos half.2)
  refine ⟨same, ?_, ((decoded _ _ same).2 half.1).2, nodes _ (by decide), ?_, ?_,
    settings _ (by decide), choices _ (by decide), sets _ (by decide), events _ (by decide)⟩
  · exact (programs (.escaping (1.0 / 0.0)) beyond.1).2.trans (if_neg infinite)
  · exact (instructions (.set "gold" (.literal (.number 0.5))) half.1).trans (if_pos half.2)
  · exact (operands (.literal (.number (1.0 / 0.0))) beyond.1).trans (if_neg infinite)

end DialogueEngine
