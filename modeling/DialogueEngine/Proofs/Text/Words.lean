import DialogueEngine.Line

/-! # Words and the white space around them

A text is cut into the words that stand in it with white space before, between and after them.
How much white space there is, and which, does not matter.

* `Spaced` — a text with its words.
* `spaced_iff` — the words of a text are those that it is cut into.
* `Spaced.solid` — no word is empty or has white space in it.
* `Command.tokens_of_spaced` — the words of a command.
-/

namespace DialogueEngine

namespace Text

/-- The characters of a text with the words that stand in it. A word goes on until the text ends or
    white space begins. -/
inductive Spaced : List String → List Char → Prop
  | nil : Spaced [] []
  | blank {c : Char} {cs : List Char} {ws : List String} (blank : isBlank c = true)
    (rest : Spaced ws cs) : Spaced ws (c :: cs)
  | word {w cs : List Char} {ws : List String} (nonempty : w ≠ [])
    (solid : ∀ c ∈ w, isBlank c = false) (edge : ∀ d ∈ cs.head?, isBlank d = true)
    (rest : Spaced ws cs) : Spaced (String.ofList w :: ws) (w ++ cs)

section Cut

variable {c : Char} {w cs : List Char} {ws : List (List Char)}

/-- At the end of a word the next character makes a word of its own. -/
theorem joinWord_edge (edge : ∀ d ∈ cs.head?, isBlank d = true) :
    joinWord c cs ws = [c] :: ws := by
  cases cs with
  | nil => cases ws <;> rfl
  | cons d cs =>
    have blank : isBlank d = true := edge d rfl
    cases ws <;> simp [joinWord, blank]

theorem joinWord_solid {d : Char} (solid : isBlank d = false) :
    joinWord c (d :: cs) (w :: ws) = (c :: w) :: ws := by
  simp [joinWord, solid]

theorem wordsOf_append (nonempty : w ≠ []) (solid : ∀ c ∈ w, isBlank c = false)
    (edge : ∀ d ∈ cs.head?, isBlank d = true) : wordsOf (w ++ cs) = w :: wordsOf cs := by
  induction w with
  | nil => exact absurd rfl nonempty
  | cons c w ih =>
    obtain ⟨first, others⟩ := List.forall_mem_cons.mp solid
    rw [List.cons_append, wordsOf, if_neg (by simp [first])]
    cases w with
    | nil => exact joinWord_edge edge
    | cons d w =>
      rw [ih (List.cons_ne_nil d w) others, List.cons_append]
      exact joinWord_solid (others d List.mem_cons_self)

end Cut

theorem Spaced.words {ws : List String} {cs : List Char} (spaced : Spaced ws cs) :
    (wordsOf cs).map String.ofList = ws := by
  induction spaced with
  | nil => rfl
  | blank blank _ ih => rw [wordsOf, if_pos blank, ih]
  | word nonempty solid edge _ ih =>
    rw [wordsOf_append nonempty solid edge, List.map_cons, ih]

/-- A text that does not begin with white space begins with a word. -/
theorem Spaced.begin {ws : List String} {cs : List Char} (spaced : Spaced ws cs) {d : Char}
    (first : cs.head? = some d) (solid : isBlank d = false) :
    ∃ w cs' ws', cs = w ++ cs' ∧ w ≠ [] ∧ (∀ c ∈ w, isBlank c = false) ∧
      (∀ c ∈ cs'.head?, isBlank c = true) ∧ Spaced ws' cs' := by
  cases spaced with
  | nil => cases first
  | blank blank rest =>
    cases first
    rw [blank] at solid
    cases solid
  | word nonempty solid edge rest => exact ⟨_, _, _, rfl, nonempty, solid, edge, rest⟩

theorem spaced_words (cs : List Char) : Spaced ((wordsOf cs).map String.ofList) cs := by
  induction cs with
  | nil => exact .nil
  | cons c cs ih =>
    rw [wordsOf]
    split
    · rename_i blank
      exact .blank blank ih
    · rename_i solid
      rw [Bool.not_eq_true] at solid
      by_cases edge : ∀ d ∈ cs.head?, isBlank d = true
      · rw [joinWord_edge edge]
        exact .word (List.cons_ne_nil c []) (by simp [solid]) edge ih
      · -- The text goes on with a word, which gets one character more.
        obtain ⟨d, first, solid'⟩ : ∃ d, cs.head? = some d ∧ isBlank d = false := by
          simpa using edge
        obtain ⟨w, cs', ws', rfl, nonempty, solids, edge', rest⟩ := ih.begin first solid'
        obtain ⟨d', w', rfl⟩ := List.exists_cons_of_ne_nil nonempty
        rw [wordsOf_append nonempty solids edge', List.cons_append,
          joinWord_solid (solids d' List.mem_cons_self), List.map_cons, ← List.cons_append,
          ← List.cons_append]
        refine .word (List.cons_ne_nil c _) (List.forall_mem_cons.mpr ⟨solid, solids⟩) edge' ?_
        rwa [← rest.words] at rest

/-- The words that a text is cut into are the words that stand in it. -/
theorem spaced_iff {ws : List String} {s : String} : Spaced ws s.toList ↔ words s = ws :=
  ⟨Spaced.words, fun cut => cut ▸ spaced_words s.toList⟩

/-- No word is empty or has white space in it. -/
theorem Spaced.solid {ws : List String} {cs : List Char} (spaced : Spaced ws cs) :
    ∀ w ∈ ws, w ≠ "" ∧ ∀ c ∈ w.toList, isBlank c = false := by
  induction spaced with
  | nil => exact fun w hw => absurd hw List.not_mem_nil
  | blank _ _ ih => exact ih
  | word nonempty solid _ _ ih =>
    refine List.forall_mem_cons.mpr ⟨⟨fun empty => nonempty ?_, ?_⟩, ih⟩
    · simpa using congrArg String.toList empty
    · simpa using solid

end Text

/-- A command has the words that stand in its text. -/
theorem Command.tokens_of_spaced {cmd : Command} {ws : List String}
    (spaced : Text.Spaced ws cmd.text.toList) : cmd.tokens = ws :=
  Text.spaced_iff.mp spaced

end DialogueEngine
