import DialogueEngine.Program.Codec
import DialogueEngine.Proofs.Json.Codec

/-! # Programs that are stored

A program is read back from its bytes if all its literals are finite, and refused otherwise: an
infinite literal is written as null, and null is no value.

* `Program.numbers` — the doubles of all literals.
* `Instruction.codec`, `Node.codec`, `Program.codec` — writer and reader agree, from the inside
  out; an instruction is only read where it does not nest too deep.
* `Program.decode_encode` — programs that are written and read.
* `Program.finite_of_decode` — whatever bytes a program is read from, its literals are finite.
-/

namespace DialogueEngine

open Json

/-! ## Numbers -/

def Value.numbers : Value → List Float
  | .number x => [x]
  | _ => []

def Operand.numbers : Operand → List Float
  | .literal value => value.numbers
  | .reference _ => []

def Instruction.numbers : Instruction → List Float
  | .line _ substitutions => substitutions.flatMap Operand.numbers
  | .addOption _ substitutions _ => substitutions.flatMap Operand.numbers
  | .set _ value => value.numbers
  | _ => []

def Node.numbers (n : Node) : List Float := n.instructions.flatMap Instruction.numbers

def Program.numbers (p : Program) : List Float := p.nodes.values.flatMap Node.numbers

def allFinite (xs : List Float) : Bool := xs.all Decimal.isFinite

theorem allFinite_values {α : Type} (d : Dict String α) (numbers : α → List Float) :
    allFinite (d.values.flatMap numbers) = d.entries.all fun e => allFinite (numbers e.2) := by
  unfold allFinite Dict.values
  rw [List.all_flatMap, List.all_map]
  rfl

theorem Json.Legible.of_values {α : Type} {d : Dict String α} {numbers : α → List Float}
    (legible : Legible (d.values.flatMap numbers)) : ∀ e ∈ d.entries, Legible (numbers e.2) :=
  fun _ mem => legible.of_flatMap (List.mem_map_of_mem mem)

/-! ## Values and operands -/

theorem Value.codec (depth : Nat) :
    Codec (fun v => Legible v.numbers) (allFinite ·.numbers) depth Value.toJson Value.ofJson? where
  written v legible := by
    cases v with
    | bool b => exact .bool b
    | number x => exact .float (legible x (List.mem_singleton_self x))
    | string s => exact .text s
  read_write v legible := by
    cases v with
    | bool b => rfl
    | number x =>
      change ofJson? ((ofFloat? x).elim .null .number) = _
      cases finite : Decimal.isFinite x with
      | false =>
        rw [ofFloat?_eq_none finite]
        simp [ofJson?, Option.guard, numbers, allFinite, finite]
      | true =>
        obtain ⟨lexeme, r, written, value, double⟩ :=
          (legible x (List.mem_singleton_self x) finite).lexeme
        rw [written]
        simp [ofJson?, value, double, Option.guard, numbers, allFinite, finite]
    | string s => simp [toJson, Json.text, ofJson?, Option.guard, numbers, allFinite]
  finite_of_read j v read := by
    cases j with
    | number lexeme =>
      obtain ⟨r, value, rfl⟩ := Option.map_eq_some_iff.mp read
      simp [numbers, allFinite, Number.isFinite_ofLexeme? value]
    | bool b =>
      cases read
      rfl
    | string lexeme =>
      obtain ⟨s, -, rfl⟩ := Option.map_eq_some_iff.mp read
      rfl
    | _ => cases read

theorem Operand.codec (depth : Nat) :
    Codec (fun o => Legible o.numbers) (allFinite ·.numbers) (depth + 1) Operand.toJson
      Operand.ofJson? where
  written o legible := by
    cases o with
    | literal v =>
      exact .record (List.forall_mem_singleton.mpr ((Value.codec depth).written v legible))
    | reference name => exact .record (List.forall_mem_singleton.mpr (.text name))
  read_write o legible := by
    cases o with
    | literal v =>
      simp only [toJson, ofJson?, variant?_record]
      rw [(Value.codec depth).read_write v legible]
      rw [Option.map_eq_bind]
      refine guard_bind ?_
      rfl
    | reference name => simp [toJson, ofJson?, Option.guard, numbers, allFinite]
  finite_of_read j o read := by
    unfold ofJson? at read
    split at read
    · obtain ⟨v, value, rfl⟩ := Option.map_eq_some_iff.mp read
      exact (Value.codec depth).finite_of_read _ v value
    · obtain ⟨s, -, rfl⟩ := Option.map_eq_some_iff.mp read
      rfl
    · cases read


/-! ## Instructions -/

namespace Instruction

theorem split?_record {op : String} {members : List (String × Json)}
    (others : ∀ m ∈ members, m.1 ≠ "op") :
    split? (.record (("op", .text op) :: members)) = some (op, .record members) := by
  have apart : ∀ m ∈ lexemes members, (textOf? m.1 == some "op") = false := by
    intro m mem
    obtain ⟨m, given, rfl⟩ := List.mem_map.mp mem
    simp [others m given]
  have marked : (lexemes members).filter (fun m => textOf? m.1 == some "op") = [] :=
    List.filter_eq_nil_iff.mpr fun m mem => by simp [apart m mem]
  have rest : (lexemes members).filter (fun m => !(textOf? m.1 == some "op")) = lexemes members :=
    List.filter_eq_self.mpr fun m mem => by simp [apart m mem]
  change split? (.object ((lexemeOf "op", .text op) :: lexemes members)) =
    some (op, .object (lexemes members))
  unfold split?
  dsimp only
  rw [List.filter_cons, List.filter_cons, marked, rest]
  simp

/-- An instruction holds a list of records of leaves at most. -/
theorem written (i : Instruction) (legible : Legible i.numbers) : Written 3 i.toJson := by
  have operands {substitutions : List Operand}
      (legible : Legible (substitutions.flatMap Operand.numbers)) :
      Written 2 (.list Operand.toJson substitutions) :=
    (Operand.codec 0).list.written _ fun o mem => legible.of_flatMap mem
  cases i with
  | line id substitutions =>
    refine .record ?_
    simp [Written.text, operands legible]
  | addOption id substitutions destination =>
    refine .record ?_
    simp [Written.text, operands legible]
  | set name value =>
    refine .record ?_
    simp [Written.text, (Operand.codec 1).written value legible]
  | _ =>
    refine .record ?_
    simp [Written.text]

theorem ofParts?_toJson (i : Instruction) (legible : Legible i.numbers) :
    ((split? i.toJson).bind fun (op, body) => ofParts? op body) =
      Option.guard (allFinite ·.numbers) i := by
  have operands {substitutions : List Operand}
      (legible : Legible (substitutions.flatMap Operand.numbers)) :
      items? Operand.ofJson? (.list Operand.toJson substitutions) =
        Option.guard (·.all (allFinite ·.numbers)) substitutions :=
    (Operand.codec 0).list.read_write _ fun o mem => legible.of_flatMap mem
  cases i with
  | line id substitutions =>
    rw [toJson, split?_record (by simp)]
    calc ofParts? "line" _
      _ = (items? Operand.ofJson? (.list Operand.toJson substitutions)).bind
            fun operands => some (line id operands) := by
        simp [ofParts?, substitutions?]
      _ = _ := by
        rw [operands legible]
        exact guard_bind (by simp [numbers, allFinite])
  | addOption id substitutions destination =>
    rw [toJson, split?_record (by simp)]
    calc ofParts? "add_option" _
      _ = (items? Operand.ofJson? (.list Operand.toJson substitutions)).bind
            fun operands => some (addOption id operands destination) := by
        simp [ofParts?, substitutions?]
      _ = _ := by
        rw [operands legible]
        exact guard_bind (by simp [numbers, allFinite])
  | set name value =>
    rw [toJson, split?_record (by simp)]
    calc ofParts? "set" _
      _ = (Operand.ofJson? value.toJson).bind fun operand => some (set name operand) := by
        simp [ofParts?]
      _ = _ := by
        rw [(Operand.codec 0).read_write value legible]
        exact guard_bind (by rfl)
  | _ =>
    rw [toJson, split?_record (by simp)]
    simp [ofParts?, Option.guard, numbers, allFinite]

theorem substitutions?_finite {fields : List (String × Json)} {operands : List Operand}
    (read : substitutions? fields = some operands) :
    allFinite (operands.flatMap Operand.numbers) = true := by
  have each : operands.all (allFinite ·.numbers) = true :=
    of_fieldD? (Operand.codec 0).list.finite_of_read rfl read
  unfold allFinite
  rwa [List.all_flatMap]

theorem ofParts?_finite {op : String} {body : Json} {i : Instruction}
    (read : ofParts? op body = some i) : allFinite i.numbers = true := by
  unfold ofParts? at read
  -- one case for each name; lines, options and assignments carry operands
  split at read
  · obtain ⟨fields, -, read⟩ := Option.bind_eq_some_iff.mp read
    obtain ⟨id, -, read⟩ := Option.bind_eq_some_iff.mp read
    obtain ⟨substitutions, given, read⟩ := Option.bind_eq_some_iff.mp read
    cases read
    exact substitutions?_finite given
  · obtain ⟨fields, -, read⟩ := Option.bind_eq_some_iff.mp read
    obtain ⟨id, -, read⟩ := Option.bind_eq_some_iff.mp read
    obtain ⟨substitutions, given, read⟩ := Option.bind_eq_some_iff.mp read
    obtain ⟨destination, -, read⟩ := Option.bind_eq_some_iff.mp read
    cases read
    exact substitutions?_finite given
  · obtain ⟨fields, -, rfl⟩ := Option.map_eq_some_iff.mp read
    rfl
  · obtain ⟨fields, -, read⟩ := Option.bind_eq_some_iff.mp read
    obtain ⟨text, -, read⟩ := Option.bind_eq_some_iff.mp read
    cases read
    rfl
  · obtain ⟨fields, -, read⟩ := Option.bind_eq_some_iff.mp read
    obtain ⟨name, -, read⟩ := Option.bind_eq_some_iff.mp read
    obtain ⟨value, given, read⟩ := Option.bind_eq_some_iff.mp read
    cases read
    exact of_field? (Operand.codec 0).finite_of_read given
  · obtain ⟨fields, -, read⟩ := Option.bind_eq_some_iff.mp read
    obtain ⟨name, -, read⟩ := Option.bind_eq_some_iff.mp read
    obtain ⟨node, -, read⟩ := Option.bind_eq_some_iff.mp read
    cases read
    rfl
  · obtain ⟨fields, -, read⟩ := Option.bind_eq_some_iff.mp read
    obtain ⟨node, -, read⟩ := Option.bind_eq_some_iff.mp read
    cases read
    rfl
  · obtain ⟨fields, -, rfl⟩ := Option.map_eq_some_iff.mp read
    rfl
  · cases read

theorem codec (level : Nat) (shallow : level + 3 ≤ depthLimit) :
    Codec (fun i => Legible i.numbers) (allFinite ·.numbers) 3 toJson (ofJson? level) where
  written := written
  read_write i legible := by
    have doc := written i legible
    have depth := doc.depth_le
    have whole : (i.toJson.isSound && decide (level + i.toJson.depth ≤ depthLimit)) = true := by
      rw [doc.isSound, Bool.true_and, decide_eq_true_eq]
      omega
    unfold ofJson?
    rw [if_pos whole]
    exact ofParts?_toJson i legible
  finite_of_read j i read := by
    unfold ofJson? at read
    split at read
    · obtain ⟨parts, -, read⟩ := Option.bind_eq_some_iff.mp read
      exact ofParts?_finite read
    · cases read

end Instruction

/-! ## Nodes and programs -/

theorem Node.codec (level : Nat) (shallow : level + 5 ≤ depthLimit) :
    Codec (fun n => Legible n.numbers) (allFinite ·.numbers) 5 Node.toJson (Node.ofJson? level) := by
  have instructions := (Instruction.codec (level + 2) (by omega)).list
  constructor
  case written =>
    intro n legible
    refine .record ?_
    simp [Written.texts, instructions.written n.instructions fun i mem => legible.of_flatMap mem]
  case read_write =>
    intro n legible
    have given := instructions.read_write n.instructions fun i mem => legible.of_flatMap mem
    calc ofJson? level n.toJson
      _ = (items? (Instruction.ofJson? (level + 2)) (.list Instruction.toJson n.instructions)).bind
            fun instructions => some ⟨n.tags, instructions⟩ := by
        simp [toJson, ofJson?]
      _ = _ := by
        rw [given]
        exact guard_bind (by simp [numbers, allFinite])
  case finite_of_read =>
    intro j n read
    obtain ⟨fields, -, read⟩ := Option.bind_eq_some_iff.mp read
    obtain ⟨tags, -, read⟩ := Option.bind_eq_some_iff.mp read
    obtain ⟨given, found, read⟩ := Option.bind_eq_some_iff.mp read
    cases read
    have each : given.all (allFinite ·.numbers) = true :=
      of_fieldD? instructions.finite_of_read rfl found
    unfold allFinite numbers
    rwa [List.all_flatMap]

theorem Program.codec :
    Codec (fun p => Legible p.numbers) (allFinite ·.numbers) 7 Program.toJson Program.ofJson? := by
  have nodes := (Node.codec 2 (by decide)).dict
  constructor
  case written =>
    intro p legible
    refine .record ?_
    simp [Written.text, nodes.written p.nodes legible.of_values]
  case read_write =>
    intro p legible
    have given := nodes.read_write p.nodes legible.of_values
    calc ofJson? p.toJson
      _ = (dict? (Node.ofJson? 2) (.dict Node.toJson p.nodes.entries)).bind
            fun nodes => some ⟨p.name, nodes⟩ := by
        simp [toJson, ofJson?]
      _ = _ := by
        rw [given]
        exact guard_bind (allFinite_values p.nodes Node.numbers)
  case finite_of_read =>
    intro j p read
    obtain ⟨fields, -, read⟩ := Option.bind_eq_some_iff.mp read
    obtain ⟨name, -, read⟩ := Option.bind_eq_some_iff.mp read
    obtain ⟨given, found, read⟩ := Option.bind_eq_some_iff.mp read
    cases read
    refine (allFinite_values given Node.numbers).trans ?_
    exact of_field? nodes.finite_of_read found

namespace Program

theorem decode?_encode {p : Program} (legible : Legible p.numbers) :
    decode? p.encode = Option.guard (allFinite ·.numbers) p :=
  codec.reread legible

/-- A program is read as it has been written if its numbers are finite, and refused otherwise. -/
theorem decode_encode {p : Program} (legible : Legible p.numbers) :
    decode p.encode = if allFinite p.numbers then .ok p else .error .undecodable := by
  unfold decode
  rw [decode?_encode legible, Option.guard]
  cases allFinite p.numbers <;> rfl

theorem finite_of_decode {bytes : List UInt8} {p : Program} (read : decode bytes = .ok p) :
    allFinite p.numbers = true := by
  unfold decode at read
  split at read
  · rename_i given
    cases read
    obtain ⟨j, -, read⟩ := Option.bind_eq_some_iff.mp given
    exact codec.finite_of_read j p read
  · cases read

end Program

end DialogueEngine
