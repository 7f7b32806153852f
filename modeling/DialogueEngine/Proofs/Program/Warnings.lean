import DialogueEngine.Proofs.Program.Paths
import Mathlib.Data.List.Nodup

/-! # Warnings of instructions

What the check of a program and the check of its lines warn of, instruction by instruction.

* `Program.addedIn`, `Program.mem_check_emptyOptions` — sets of options that are empty, by the
  number of options that the check has counted.
* `Instruction.Shows` — the instruction shows the text of a key.
* `Program.mem_checkLines`, `Program.checkLines_at` — texts that are missing, each reported once.
-/

namespace DialogueEngine

/-- Where only one element has something to keep, this is all that is kept. -/
theorem filter_flatMap_of_mem {α β : Type} {l : List α} {f : α → List β} {q : β → Bool} {a : α}
    (nodup : l.Nodup) (mem : a ∈ l) (others : ∀ x ∈ l, x ≠ a → (f x).filter q = []) :
    (l.flatMap f).filter q = (f a).filter q := by
  induction l with
  | nil => cases mem
  | cons x l ih =>
    obtain ⟨fresh, nodup⟩ := List.nodup_cons.mp nodup
    rw [List.flatMap_cons, List.filter_append]
    by_cases same : x = a
    · subst same
      have rest : (l.flatMap f).filter q = [] := by
        rw [List.filter_flatMap, List.flatMap_eq_nil_iff]
        exact fun y hy => others y (List.mem_cons_of_mem _ hy) fun same => fresh (same ▸ hy)
      rw [rest, List.append_nil]
    · have here := (List.mem_cons.mp mem).resolve_left (Ne.symm same)
      rw [others x List.mem_cons_self same, List.nil_append]
      exact ih nodup here fun y hy => others y (List.mem_cons_of_mem _ hy)

namespace Program

variable {p : Program} {start node : String} {index added : Nat} {is : List Instruction}

/-! ## Sets of options without options -/

/-- The warning that options are shown although none has been added. -/
def emptyOptions (p : Program) (node : String) (index : Nat) : Diagnostic :=
  (Diagnostic.ofProgram .warn p.name "显示选项前没有添加任何选项").at' node (some index)

/-- The number of options that the check has counted behind the first instructions of a node. -/
def addedIn (is : List Instruction) : Nat := is.foldl addedAfter 0

theorem addedIn_concat (is : List Instruction) (i : Instruction) :
    addedIn (is ++ [i]) = addedAfter (addedIn is) i :=
  List.foldl_append

theorem emptyOptions_inj {node' : String} {index' : Nat} :
    p.emptyOptions node index = p.emptyOptions node' index' ↔ node = node' ∧ index = index' := by
  simp [emptyOptions, Diagnostic.at', Diagnostic.ofProgram]

/-- An error is no warning. -/
theorem emptyOptions_not_mem_checkTarget {here : String} {place : Nat} {i : Instruction} :
    p.emptyOptions node index ∉ p.checkTarget here place i := by
  intro h
  unfold checkTarget at h
  split at h
  · split at h
    · cases h
    · cases congrArg Diagnostic.level (List.mem_singleton.mp h)
  · cases h

theorem mem_checkOptions {here : String} {place : Nat} {i : Instruction} :
    p.emptyOptions node index ∈ p.checkOptions here place added i ↔
      node = here ∧ index = place ∧ i = .showOptions ∧ added = 0 := by
  unfold checkOptions
  split
  · rename_i empty
    exact List.mem_singleton.trans (emptyOptions_inj.trans (by simp [empty]))
  · rename_i filled
    simp only [List.not_mem_nil, false_iff]
    exact fun ⟨_, _, empty⟩ => filled empty

/-- Of instructions from an index on, those are warned of that show options where none has been
    counted. -/
theorem mem_checkInstructions_emptyOptions {here : String} {first : Nat} :
    p.emptyOptions node index ∈ p.checkInstructions here first added is ↔
      node = here ∧ ∃ k, index = first + k ∧ is[k]? = some .showOptions ∧
        (is.take k).foldl addedAfter added = 0 := by
  induction is generalizing first added with
  | nil => simp [checkInstructions]
  | cons i rest ih =>
    rw [checkInstructions, List.mem_append, List.mem_append, mem_checkOptions, ih]
    constructor
    · rintro ((h | ⟨rfl, rfl, rfl, rfl⟩) | ⟨rfl, k, rfl, shows, none⟩)
      · exact absurd h emptyOptions_not_mem_checkTarget
      · exact ⟨rfl, 0, rfl, rfl, rfl⟩
      · exact ⟨rfl, k + 1, by omega, shows, none⟩
    · rintro ⟨rfl, k, rfl, shows, none⟩
      cases k with
      | zero =>
        cases shows
        exact .inl (.inr ⟨rfl, rfl, rfl, none⟩)
      | succ k => exact .inr ⟨rfl, k, by omega, shows, none⟩

theorem emptyOptions_not_mem_checkReachable : p.emptyOptions node index ∉ p.checkReachable start := by
  intro h
  unfold checkReachable at h
  split at h
  · obtain ⟨name, _, same⟩ := List.mem_map.mp h
    cases congrArg Diagnostic.index same
  · cases h

theorem emptyOptions_not_mem_checkStart : p.emptyOptions node index ∉ p.checkStart start := by
  intro h
  unfold checkStart at h
  split at h
  · cases h
  · cases congrArg Diagnostic.level (List.mem_singleton.mp h)

/-- The check warns of the instructions that show options where it has counted none. -/
theorem mem_check_emptyOptions :
    p.emptyOptions node index ∈ p.check start ↔
      ∃ n, p.find? node = some n ∧ n.instructions[index]? = some .showOptions ∧
        addedIn (n.instructions.take index) = 0 := by
  rw [check, List.mem_append, List.mem_append, List.mem_flatMap]
  constructor
  · rintro ((h | ⟨⟨name, n⟩, found, h⟩) | h)
    · exact absurd h emptyOptions_not_mem_checkStart
    · obtain ⟨rfl, k, rfl, shows, none⟩ := mem_checkInstructions_emptyOptions.mp h
      rw [Nat.zero_add]
      exact ⟨n, Dict.mem_entries.mp found, shows, none⟩
    · exact absurd h emptyOptions_not_mem_checkReachable
  · rintro ⟨n, found, shows, none⟩
    refine .inl (.inr ⟨(node, n), Dict.mem_entries.mpr found, ?_⟩)
    exact mem_checkInstructions_emptyOptions.mpr
      ⟨rfl, index, (Nat.zero_add index).symm, shows, none⟩

end Program

/-! ## Texts that are missing -/

/-- The instruction shows the text of a key, as a line or as an option. -/
inductive Instruction.Shows (id : String) : Instruction → Prop
  | line (substitutions : List Operand) : Shows id (.line id substitutions)
  | addOption (substitutions : List Operand) (destination : String) :
    Shows id (.addOption id substitutions destination)

/-- The report is about this instruction of this node. -/
def Diagnostic.isAt (d : Diagnostic) (node : String) (index : Nat) : Bool :=
  d.node == some node && d.index == some index

namespace Program

variable {p : Program} {t : StringTable} {node id : String} {index : Nat} {i : Instruction}
  {d : Diagnostic}

/-- The warning that a table lacks the text of a key. -/
def missingText (p : Program) (node : String) (index : Nat) (id : String) : Diagnostic :=
  (Diagnostic.ofProgram .warn p.name s!"字符串表缺少: {id}").at' node (some index)

theorem lineId?_eq_some : lineId? i = some id ↔ i.Shows id := by
  constructor
  · intro shown
    cases i with
    | line other substitutions =>
      cases shown
      exact .line substitutions
    | addOption other substitutions destination =>
      cases shown
      exact .addOption substitutions destination
    | _ => cases shown
  · rintro (_ | _) <;> rfl

theorem mem_checkLine :
    d ∈ p.checkLine t node index i ↔
      ∃ id, i.Shows id ∧ t.contains id = false ∧ d = p.missingText node index id := by
  simp only [← lineId?_eq_some]
  unfold checkLine
  cases lineId? i with
  | none => simp
  | some id =>
    cases known : t.contains id with
    | true => simp [known]
    | false => simp [known, missingText]

/-- A report of the check names an instruction that shows a text, and the text is missing. -/
theorem mem_checkLines :
    d ∈ p.checkLines t ↔
      ∃ node index n i id, p.find? node = some n ∧ n.instructions[index]? = some i ∧ i.Shows id ∧
        t.contains id = false ∧ d = p.missingText node index id := by
  simp only [checkLines, List.mem_flatMap, List.mem_flatten, List.mem_mapIdx]
  constructor
  · rintro ⟨⟨node, n⟩, found, _, ⟨index, within, rfl⟩, reported⟩
    obtain ⟨id, shows, missing, rfl⟩ := mem_checkLine.mp reported
    exact ⟨node, index, n, _, id, Dict.mem_entries.mp found, List.getElem?_eq_getElem within, shows,
      missing, rfl⟩
  · rintro ⟨node, index, n, i, id, found, fetched, shows, missing, rfl⟩
    obtain ⟨within, rfl⟩ := List.getElem?_eq_some_iff.mp fetched
    exact ⟨(node, n), Dict.mem_entries.mpr found, _, ⟨index, within, rfl⟩,
      mem_checkLine.mpr ⟨id, shows, missing, rfl⟩⟩

/-! ### Reports by place -/

theorem isAt_missingText {here : String} {place : Nat} :
    (p.missingText here place id).isAt node index = (here == node && place == index) := by
  simp [missingText, Diagnostic.isAt, Diagnostic.at']

/-- What is reported of an instruction is about its place. -/
theorem checkLine_at {here : String} {place : Nat} :
    (p.checkLine t here place i).filter (·.isAt node index) =
      if here = node ∧ place = index then p.checkLine t here place i else [] := by
  split
  · rename_i same
    refine List.filter_eq_self.mpr fun d hd => ?_
    obtain ⟨id, _, _, rfl⟩ := mem_checkLine.mp hd
    simp [isAt_missingText, same]
  · rename_i other
    refine List.filter_eq_nil_iff.mpr fun d hd => ?_
    obtain ⟨id, _, _, rfl⟩ := mem_checkLine.mp hd
    simpa [isAt_missingText] using other

theorem checkLines_eq (p : Program) (t : StringTable) :
    p.checkLines t = p.nodes.entries.flatMap fun e =>
      e.2.instructions.zipIdx.flatMap fun a => p.checkLine t e.1 a.2 a.1 := by
  simp only [checkLines, List.mapIdx_eq_zipIdx_map, List.flatMap_def]

/-- All that is reported about an instruction of a node is what its own check says. -/
theorem checkLines_at {n : Node} (found : p.find? node = some n)
    (fetched : n.instructions[index]? = some i) :
    (p.checkLines t).filter (·.isAt node index) = p.checkLine t node index i := by
  have places : n.instructions.zipIdx.Nodup := by
    apply List.Nodup.of_map Prod.snd
    rw [List.zipIdx_map_snd]
    exact List.nodup_range'
  rw [checkLines_eq, filter_flatMap_of_mem p.nodes.sorted.nodup (Dict.mem_entries.mpr found),
    filter_flatMap_of_mem places (List.mk_mem_zipIdx_iff_getElem?.mpr fetched), checkLine_at,
    if_pos ⟨rfl, rfl⟩]
  · rintro ⟨other, place⟩ listed different
    rw [checkLine_at, if_neg]
    rintro ⟨_, rfl⟩
    have same := List.mk_mem_zipIdx_iff_getElem?.mp listed
    rw [fetched] at same
    cases same
    exact different rfl
  · rintro ⟨name, other⟩ listed different
    rw [List.filter_flatMap, List.flatMap_eq_nil_iff]
    rintro a _
    rw [checkLine_at, if_neg]
    rintro ⟨rfl, _⟩
    have same := Dict.mem_entries.mp listed
    rw [show p.nodes.find? name = p.find? name from rfl, found] at same
    cases same
    exact different rfl

/-- An instruction whose text is missing is reported once. -/
theorem checkLines_missing {n : Node} (found : p.find? node = some n)
    (fetched : n.instructions[index]? = some i) (shows : i.Shows id)
    (missing : t.contains id = false) :
    (p.checkLines t).filter (·.isAt node index) = [p.missingText node index id] := by
  rw [checkLines_at found fetched, checkLine, lineId?_eq_some.mpr shows]
  simp [missing, missingText]

end Program

end DialogueEngine
