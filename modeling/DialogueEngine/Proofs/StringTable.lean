import Mathlib.Data.List.Basic
import DialogueEngine.StringTable

/-! # How a text is filled

The substitutions of a line are put in one after the other, each into the text that those before it
have made. `StringTable.resolve_rounds` says what this comes to, and when it is the same as
to put all of them in at once.

* `Text.Replaces` — all occurrences of a pattern give way, and nothing else does.
* `StringTable.Reads`, `StringTable.pieces` — a template as its characters and its placeholders.
* `StringTable.substituted` — the text with the placeholders filled at once.
* `StringTable.Clear` — before a round, its placeholder stands only where the template has it.
-/

namespace DialogueEngine

namespace Text

/-- A text in which every occurrence of a pattern gives way to a filler; what stands before,
    between and behind the occurrences is kept. -/
inductive Replaces (pattern filler : List Char) : List Char → List Char → Prop where
  | none {cs : List Char} (free : ¬ pattern <:+: cs) : Replaces pattern filler cs cs
  | next {u cs ds : List Char} (free : ¬ pattern <:+: u) (rest : Replaces pattern filler cs ds) :
      Replaces pattern filler (u ++ (pattern ++ cs)) (u ++ (filler ++ ds))

section Replacing

variable {pattern filler : List Char}

@[simp] theorem replaceAll_nil : replaceAll pattern filler [] = [] := rfl

theorem replaceFrom_eq (pattern filler : List Char) (skip : Nat) (cs : List Char) :
    replaceFrom pattern filler skip cs = replaceAll pattern filler (cs.drop skip) := by
  induction skip generalizing cs with
  | zero => rfl
  | succ skip ih =>
    cases cs with
    | nil => rfl
    | cons c cs => exact ih cs

theorem replaceAll_cons {c : Char} {cs : List Char} (other : ¬ pattern <+: c :: cs) :
    replaceAll pattern filler (c :: cs) = c :: replaceAll pattern filler cs := by
  simp [replaceAll, replaceFrom, other]

theorem replaceAll_pattern (nonempty : pattern ≠ []) (cs : List Char) :
    replaceAll pattern filler (pattern ++ cs) = filler ++ replaceAll pattern filler cs := by
  obtain ⟨c, rest, rfl⟩ := List.exists_cons_of_ne_nil nonempty
  have passed := replaceFrom_eq (c :: rest) filler rest.length (rest ++ cs)
  rw [List.drop_left] at passed
  rw [← passed, replaceAll, List.cons_append, replaceFrom]
  simp

/-- A part in which no occurrence begins is kept. -/
theorem replaceAll_append (filler : List Char) {u v : List Char}
    (free : ∀ a b, u = a ++ b → b ≠ [] → ¬ pattern <+: b ++ v) :
    replaceAll pattern filler (u ++ v) = u ++ replaceAll pattern filler v := by
  induction u with
  | nil => rfl
  | cons c u ih =>
    have other : ¬ pattern <+: c :: (u ++ v) := free [] (c :: u) rfl (by simp)
    rw [List.cons_append, replaceAll_cons other, ih, List.cons_append]
    intro a b split
    exact free (c :: a) b (by simp [split])

theorem Replaces.cons {c : Char} {cs ds : List Char} (other : ¬ pattern <+: c :: cs)
    (rest : Replaces pattern filler cs ds) : Replaces pattern filler (c :: cs) (c :: ds) := by
  cases rest with
  | none free =>
    apply Replaces.none
    simp [List.infix_cons_iff, other, free]
  | @next u cs ds free rest =>
    have free' : ¬ pattern <:+: c :: u := by
      intro inside
      rcases List.infix_cons_iff.mp inside with first | inside
      · exact other (first.trans (List.prefix_append (c :: u) _))
      · exact free inside
    exact Replaces.next free' rest

theorem replaces_replaceAll (nonempty : pattern ≠ []) (cs : List Char) :
    Replaces pattern filler cs (replaceAll pattern filler cs) := by
  -- on the length, for a whole occurrence is passed over at once
  induction size : cs.length using Nat.strongRecOn generalizing cs with
  | ind n ih =>
    by_cases here : pattern <+: cs
    · obtain ⟨rest, rfl⟩ := here
      have some : 0 < pattern.length := List.length_pos_iff.mpr nonempty
      rw [List.length_append] at size
      rw [replaceAll_pattern nonempty]
      exact Replaces.next (u := []) (by simpa using nonempty) (ih _ (by omega) rest rfl)
    · cases cs with
      | nil => exact Replaces.none (by simpa using nonempty)
      | cons c cs =>
        rw [List.length_cons] at size
        rw [replaceAll_cons here]
        exact (ih _ (by omega) cs rfl).cons here

/-- Occurrences of a pattern whose first character comes only once in it do not overlap. -/
theorem not_begins {c : Char} {pattern a b v : List Char} (once : c ∉ pattern)
    (free : ¬ c :: pattern <:+: a ++ b) (nonempty : b ≠ [])
    (next : v = [] ∨ ∃ w, v = c :: w) : ¬ c :: pattern <+: b ++ v := by
  rintro ⟨rest, begins⟩
  obtain ⟨x, more, rfl⟩ := List.exists_cons_of_ne_nil nonempty
  obtain ⟨rfl, tails⟩ := List.cons_eq_cons.mp begins
  -- the occurrence lies within `b`, or it runs into `v` and has its first character there again
  rcases List.append_eq_append_iff.mp tails with ⟨w, split, -⟩ | ⟨w, split, behind⟩
  · exact free ⟨a, w, by simp [split]⟩
  · rcases next with rfl | ⟨v, rfl⟩
    · simp at behind
      exact free ⟨a, [], by simp [split, behind]⟩
    · cases w with
      | nil => exact free ⟨a, [], by simp [split]⟩
      | cons y w =>
        obtain ⟨rfl, -⟩ := List.cons_eq_cons.mp behind
        exact once (by simp [split])

/-- There is one text at most that comes of it, for a pattern whose occurrences do not overlap. -/
theorem replaces_iff {c : Char} {pattern cs ds : List Char} (once : c ∉ pattern) :
    Replaces (c :: pattern) filler cs ds ↔ ds = replaceAll (c :: pattern) filler cs := by
  constructor
  · intro replaces
    induction replaces with
    | @none cs free =>
      have apart : ∀ a b, cs = a ++ b → b ≠ [] → ¬ c :: pattern <+: b ++ [] :=
        fun a b split nonempty => not_begins (a := a) once (split ▸ free) nonempty (.inl rfl)
      simpa using (replaceAll_append filler apart).symm
    | @next u cs ds free rest ih =>
      have apart : ∀ a b, u = a ++ b → b ≠ [] → ¬ c :: pattern <+: b ++ (c :: pattern ++ cs) :=
        fun a b split nonempty =>
          not_begins (a := a) once (split ▸ free) nonempty (.inr ⟨_, rfl⟩)
      rw [replaceAll_append filler apart, replaceAll_pattern (List.cons_ne_nil c pattern), ih]
  · rintro rfl
    exact replaces_replaceAll (List.cons_ne_nil c pattern) cs

end Replacing

end Text

namespace StringTable

/-- A character of a template, or one of its placeholders. -/
inductive Piece where
  | char (c : Char)
  | slot (i : Nat)
  deriving DecidableEq

/-- The pieces of a template that is read from left to right, with the placeholders of the numbers
    below `n`; `skip` characters of a placeholder are still to be passed over. -/
def piecesFrom (n : Nat) : Nat → List Char → List Piece
  | _, [] => []
  | skip + 1, _ :: cs => piecesFrom n skip cs
  | 0, c :: cs =>
    match (List.range n).find? fun i => (placeholder i).isPrefixOf (c :: cs) with
    | some i => .slot i :: piecesFrom n ((placeholder i).length - 1) cs
    | none => .char c :: piecesFrom n 0 cs

def pieces (n : Nat) (template : List Char) : List Piece := piecesFrom n 0 template

/-- What is shown for a piece: a placeholder without a substitution is shown as it stands. -/
def Piece.shown (subs : List String) : Piece → List Char
  | .char c => [c]
  | .slot i =>
    match subs[i]? with
    | some s => s.toList
    | none => placeholder i

/-- The text of a template whose placeholders are filled at once. -/
def substituted (ps : List Piece) (subs : List String) : List Char := ps.flatMap (Piece.shown subs)

/-- Before the round of number `k` its placeholder stands only where the template has it. -/
def Clear (ps : List Piece) (subs : List String) (k : Nat) : Prop :=
  ∀ a b, substituted ps (subs.take k) = a ++ placeholder k ++ b →
    ∃ before after, ps = before ++ .slot k :: after ∧ a = substituted before (subs.take k)

section Placeholders

variable {i k : Nat} {a b cs : List Char}

/-- A placeholder without its opening brace. -/
def placeholderRest (i : Nat) : List Char := Nat.toDigits 10 i ++ ['\x7d']

theorem placeholder_eq (i : Nat) : placeholder i = '\x7b' :: placeholderRest i := rfl

theorem placeholder_ne_nil (i : Nat) : placeholder i ≠ [] := List.cons_ne_nil _ _

theorem digit_toDigits {c : Char} (mem : c ∈ Nat.toDigits 10 i) : c.isDigit = true :=
  Nat.isDigit_of_mem_toDigits (by decide) (by decide) mem

theorem opening_not_mem (i : Nat) : '\x7b' ∉ placeholderRest i := by
  intro mem
  rcases List.mem_append.mp mem with mem | mem
  · exact absurd (digit_toDigits mem) (by decide)
  · exact absurd (List.mem_singleton.mp mem) (by decide)

theorem takeWhile_placeholderRest (i : Nat) (a : List Char) :
    (placeholderRest i ++ a).takeWhile Char.isDigit = Nat.toDigits 10 i := by
  rw [placeholderRest, List.append_assoc, List.takeWhile_append_of_pos fun c => digit_toDigits]
  simp

theorem placeholder_inj (same : placeholder i ++ a = placeholder k ++ b) : i = k ∧ a = b := by
  rw [placeholder_eq, placeholder_eq] at same
  have rests : placeholderRest i ++ a = placeholderRest k ++ b := (List.cons_eq_cons.mp same).2
  -- the digits in front of the closing brace tell the number
  have digits := congrArg (List.takeWhile Char.isDigit) rests
  rw [takeWhile_placeholderRest, takeWhile_placeholderRest] at digits
  have number := congrArg (Nat.ofDigitChars 10 · 0) digits
  simp only [Nat.ofDigitChars_toDigits (b := 10) (by decide) (by decide)] at number
  subst number
  exact ⟨rfl, List.append_cancel_left rests⟩

/-- Two placeholders at different places do not overlap. -/
theorem placeholder_apart (same : placeholder i ++ cs = a ++ placeholder k ++ b) (later : a ≠ []) :
    ∃ u, a = placeholder i ++ u ∧ cs = u ++ placeholder k ++ b := by
  rw [List.append_assoc] at same
  rcases List.append_eq_append_iff.mp same with ⟨u, split, behind⟩ | ⟨u, split, behind⟩
  · exact ⟨u, split, by simpa using behind⟩
  · obtain ⟨x, a, rfl⟩ := List.exists_cons_of_ne_nil later
    cases u with
    | nil => exact ⟨[], by simpa using split.symm, by simpa using behind.symm⟩
    | cons y u =>
      -- the second would begin within the first, which has no other opening brace
      obtain ⟨rfl, -⟩ := List.cons_eq_cons.mp behind
      have rest : placeholderRest i = a ++ '\x7b' :: u := (List.cons_eq_cons.mp split).2
      have mem : '\x7b' ∈ placeholderRest i := by simp [rest]
      exact absurd mem (opening_not_mem i)

end Placeholders

section Reading

variable {n i k : Nat} {cs : List Char} {ps : List Piece} {subs : List String}

@[simp] theorem substituted_nil : substituted [] subs = [] := rfl

@[simp] theorem substituted_cons (p : Piece) :
    substituted (p :: ps) subs = p.shown subs ++ substituted ps subs := rfl

theorem shown_slot_of_le (le : subs.length ≤ i) : (Piece.slot i).shown subs = placeholder i := by
  simp [Piece.shown, List.getElem?_eq_none le]

/-- The template and its pieces: every placeholder below `n` is a piece of its own. -/
inductive Reads (n : Nat) : List Char → List Piece → Prop where
  | nil : Reads n [] []
  | char {c : Char} {cs : List Char} {ps : List Piece}
      (other : ∀ i < n, ¬ placeholder i <+: c :: cs) (rest : Reads n cs ps) :
      Reads n (c :: cs) (.char c :: ps)
  | slot {i : Nat} {cs : List Char} {ps : List Piece} (lt : i < n) (rest : Reads n cs ps) :
      Reads n (placeholder i ++ cs) (.slot i :: ps)

theorem piecesFrom_eq (skip : Nat) (cs : List Char) :
    piecesFrom n skip cs = pieces n (cs.drop skip) := by
  induction skip generalizing cs with
  | zero => rfl
  | succ skip ih =>
    cases cs with
    | nil => rfl
    | cons c cs => exact ih cs

theorem reads_pieces (n : Nat) (cs : List Char) : Reads n cs (pieces n cs) := by
  induction size : cs.length using Nat.strongRecOn generalizing cs with
  | ind m ih =>
    cases cs with
    | nil => exact .nil
    | cons c cs =>
      rw [List.length_cons] at size
      rw [pieces, piecesFrom]
      split
      · rename_i i found
        have first : (placeholder i).isPrefixOf (c :: cs) = true := by
          simpa using List.find?_some found
        obtain ⟨rest, begins⟩ := List.isPrefixOf_iff_prefix.mp first
        have lt : i < n := List.mem_range.mp (List.mem_of_find?_eq_some found)
        have behind : placeholderRest i ++ rest = cs := (List.cons_eq_cons.mp begins).2
        have passed : cs.drop ((placeholder i).length - 1) = rest := by
          rw [← behind]
          exact List.drop_left' rfl
        have shorter : rest.length < m := by
          rw [← behind, List.length_append] at size
          omega
        rw [piecesFrom_eq, passed, ← begins]
        exact .slot lt (ih _ shorter rest rfl)
      · rename_i found
        refine .char (fun i lt begins => ?_) (ih _ (by omega) cs rfl)
        have := List.find?_eq_none.mp found i (List.mem_range.mpr lt)
        simp [begins] at this

/-- Without substitutions the template is shown as it stands. -/
theorem Reads.substituted_nil (reads : Reads n cs ps) : substituted ps [] = cs := by
  induction reads with
  | nil => rfl
  | char other rest ih => simp [Piece.shown, ih]
  | slot lt rest ih => simp [Piece.shown, ih]

/-- Where a template has a placeholder below `n`, a piece of it begins. -/
theorem Reads.slot_of_occurrence (reads : Reads n cs ps) (lt : i < n) {a b : List Char}
    (occurs : cs = a ++ placeholder i ++ b) :
    ∃ before after, ps = before ++ .slot i :: after ∧ a = substituted before [] := by
  induction reads generalizing a with
  | nil => simp [placeholder_ne_nil] at occurs
  | @char c cs ps other rest ih =>
    cases a with
    | nil => exact absurd ⟨b, occurs.symm⟩ (other i lt)
    | cons x a =>
      obtain ⟨rfl, within⟩ := List.cons_eq_cons.mp occurs
      obtain ⟨before, after, rfl, rfl⟩ := ih within
      exact ⟨.char c :: before, after, rfl, rfl⟩
  | @slot j cs ps _ rest ih =>
    -- the occurrence is this placeholder, or it begins behind it
    by_cases first : a = []
    · subst first
      obtain ⟨rfl, -⟩ := placeholder_inj occurs
      exact ⟨[], ps, rfl, rfl⟩
    · obtain ⟨u, rfl, within⟩ := placeholder_apart occurs first
      obtain ⟨before, after, rfl, rfl⟩ := ih within
      exact ⟨.slot j :: before, after, rfl, rfl⟩

end Reading

section Rounds

variable {ps : List Piece} {subs : List String} {k : Nat}

/-- The first round meets the template itself, so it is always clear. -/
theorem clear_zero {n : Nat} (pos : 0 < n) (template : List Char) (subs : List String) :
    Clear (pieces n template) subs 0 := by
  intro a b occurs
  have reads := reads_pieces n template
  rw [List.take_zero] at occurs ⊢
  exact reads.slot_of_occurrence pos (reads.substituted_nil.symm.trans occurs)

theorem Clear.tail {p : Piece} (clear : Clear (p :: ps) subs k) : Clear ps subs k := by
  intro a b occurs
  obtain ⟨before, after, split, shown⟩ :=
    clear (p.shown (subs.take k) ++ a) b (by simp [occurs])
  cases before with
  | nil =>
    -- a placeholder that begins the text would leave nothing before it
    obtain ⟨rfl, -⟩ := List.cons_eq_cons.mp split
    rw [shown_slot_of_le (List.length_take_le _ _)] at shown
    simp [placeholder_ne_nil] at shown
  | cons q before =>
    obtain ⟨rfl, rfl⟩ := List.cons_eq_cons.mp split
    exact ⟨before, after, rfl, List.append_cancel_left shown⟩

/-- No occurrence begins within another piece than its placeholder. -/
theorem Clear.not_begins {p : Piece} (clear : Clear (p :: ps) subs k) (other : p ≠ .slot k)
    {a b : List Char} (split : p.shown (subs.take k) = a ++ b) (nonempty : b ≠ []) :
    ¬ placeholder k <+: b ++ substituted ps (subs.take k) := by
  rintro ⟨rest, begins⟩
  obtain ⟨before, after, pieces, shown⟩ := clear a rest (by simp [split, begins])
  cases before with
  | nil => exact other (List.cons_eq_cons.mp pieces).1
  | cons q before =>
    obtain ⟨rfl, -⟩ := List.cons_eq_cons.mp pieces
    have := congrArg List.length shown
    have := List.length_pos_iff.mpr nonempty
    simp only [substituted_cons, split, List.length_append] at *
    omega

theorem shown_take_succ {p : Piece} (other : p ≠ .slot k) :
    p.shown (subs.take (k + 1)) = p.shown (subs.take k) := by
  cases p with
  | char c => rfl
  | slot i =>
    have ne : i ≠ k := fun same => other (same ▸ rfl)
    by_cases below : i < k
    · simp [Piece.shown, below, Nat.lt_succ_of_lt below]
    · have above : ¬ i < k + 1 := by omega
      simp only [Piece.shown, List.getElem?_take, if_neg below, if_neg above]

/-- A clear round fills the placeholders of its number, and nothing else happens. -/
theorem replaceAll_substituted {s : String} (here : subs[k]? = some s) (clear : Clear ps subs k) :
    Text.replaceAll (placeholder k) s.toList (substituted ps (subs.take k)) =
      substituted ps (subs.take (k + 1)) := by
  induction ps with
  | nil => rfl
  | cons p ps ih =>
    rw [substituted_cons, substituted_cons]
    by_cases slot : p = .slot k
    · subst slot
      have filled : (Piece.slot k).shown (subs.take (k + 1)) = s.toList := by
        simp [Piece.shown, here]
      rw [filled, shown_slot_of_le (List.length_take_le _ _),
        Text.replaceAll_pattern (placeholder_ne_nil k), ih clear.tail]
    · rw [Text.replaceAll_append _ fun a b => clear.not_begins slot, ih clear.tail,
        shown_take_succ slot]

theorem fill_append (i : Nat) (xs ys : List String) (cs : List Char) :
    fill i (xs ++ ys) cs = fill (i + xs.length) ys (fill i xs cs) := by
  induction xs generalizing i cs with
  | nil => rfl
  | cons x xs ih =>
    rw [List.cons_append, fill, ih, fill, List.length_cons, Nat.add_right_comm, Nat.add_assoc]

theorem fill_take_succ {s : String} (here : subs[k]? = some s) (cs : List Char) :
    fill 0 (subs.take (k + 1)) cs =
      Text.replaceAll (placeholder k) s.toList (fill 0 (subs.take k) cs) := by
  obtain ⟨lt, -⟩ := List.getElem?_eq_some_iff.mp here
  rw [List.take_add_one, here, fill_append, List.length_take, Nat.min_eq_left (Nat.le_of_lt lt),
    Nat.zero_add]
  rfl

/-- As long as the rounds are clear, the placeholders are filled as if at once. -/
theorem fill_eq_substituted {template : List Char} (reads : Reads subs.length template ps)
    (le : k ≤ subs.length) (clear : ∀ j < k, Clear ps subs j) :
    fill 0 (subs.take k) template = substituted ps (subs.take k) := by
  induction k with
  | zero => simpa [fill] using reads.substituted_nil.symm
  | succ k ih =>
    have here : subs[k]? = some subs[k] := List.getElem?_eq_getElem le
    rw [fill_take_succ here, ih (by omega) fun j lt => clear j (by omega),
      replaceAll_substituted here (clear k (by omega))]

/-- An opening brace in a text is one of the template, or comes from a substitution. -/
theorem exists_of_opening {a w : List Char} (occurs : substituted ps subs = a ++ '\x7b' :: w) :
    ∃ before p after u v, ps = before ++ p :: after ∧ p.shown subs = u ++ '\x7b' :: v ∧
      a = substituted before subs ++ u ∧ w = v ++ substituted after subs := by
  induction ps generalizing a with
  | nil => simp at occurs
  | cons p ps ih =>
    rw [substituted_cons] at occurs
    rcases List.append_eq_append_iff.mp occurs with ⟨a, rfl, within⟩ | ⟨u, split, behind⟩
    · obtain ⟨before, q, after, u, v, rfl, shown, rfl, rfl⟩ := ih within
      exact ⟨p :: before, q, after, u, v, rfl, shown, by simp, rfl⟩
    · cases u with
      | nil =>
        -- the first piece ends in front of the brace
        obtain ⟨before, q, after, u, v, rfl, shown, empty, rfl⟩ := ih (a := []) behind.symm
        refine ⟨p :: before, q, after, u, v, rfl, shown, ?_, rfl⟩
        rw [substituted_cons, List.append_assoc, ← empty, split]
        simp
      | cons c u =>
        obtain ⟨rfl, rfl⟩ := List.cons_eq_cons.mp behind
        exact ⟨[], p, ps, a, u, rfl, split, rfl, rfl⟩

theorem Piece.eq_slot_of_opening {p : Piece} {u v : List Char} (other : p ≠ .char '\x7b')
    (texts : ∀ s ∈ subs, '\x7b' ∉ s.toList) (shown : p.shown subs = u ++ '\x7b' :: v) :
    ∃ i, p = .slot i ∧ u = [] ∧ v = placeholderRest i := by
  cases p with
  | char c =>
    have same : '\x7b' ∈ [c] := by
      rw [show [c] = u ++ '\x7b' :: v from shown]
      simp
    exact absurd (List.mem_singleton.mp same ▸ rfl) other
  | slot i =>
    cases here : subs[i]? with
    | some s =>
      simp only [Piece.shown, here] at shown
      exact absurd (by simp [shown]) (texts s (List.mem_of_getElem? here))
    | none =>
      simp only [Piece.shown, here, placeholder_eq] at shown
      cases u with
      | nil => exact ⟨i, rfl, rfl, (List.cons_eq_cons.mp shown).2.symm⟩
      | cons c u =>
        have mem : '\x7b' ∈ placeholderRest i := by simp [(List.cons_eq_cons.mp shown).2]
        exact absurd mem (opening_not_mem i)

/-- All rounds are clear if no opening brace stands outside the placeholders or in a
    substitution. -/
theorem clear_of_plain (chars : Piece.char '\x7b' ∉ ps) (texts : ∀ s ∈ subs, '\x7b' ∉ s.toList)
    (k : Nat) : Clear ps subs k := by
  intro a b occurs
  rw [placeholder_eq, List.append_assoc, List.cons_append] at occurs
  obtain ⟨before, p, after, u, v, rfl, shown, rfl, behind⟩ := exists_of_opening occurs
  have other : p ≠ .char '\x7b' := fun same => chars (by simp [same])
  obtain ⟨i, rfl, rfl, rfl⟩ :=
    Piece.eq_slot_of_opening other (fun s mem => texts s (List.mem_of_mem_take mem)) shown
  have same : placeholder k ++ b = placeholder i ++ substituted after (subs.take k) := by
    rw [placeholder_eq, placeholder_eq, List.cons_append, List.cons_append, behind]
  obtain ⟨rfl, -⟩ := placeholder_inj same
  exact ⟨before, after, rfl, by simp⟩

end Rounds

/-- What the text of a line is: in the round of each substitution, every occurrence of its
    placeholder in the text that the rounds before it have made gives way to it, wherever that
    occurrence comes from. The text is the template with all placeholders filled at once as long as
    no round meets an occurrence that is not a placeholder of the template. -/
theorem resolve_rounds (t : StringTable) (line : Line) {template : String}
    (found : t.find? line.id = some template) :
    ∃ round : Nat → List Char,
      round 0 = template.toList ∧
      (∀ k s, line.substitutions[k]? = some s →
        Text.Replaces (placeholder k) s.toList (round k) (round (k + 1))) ∧
      t.resolve line = String.ofList (round line.substitutions.length) ∧
      ∀ k ≤ line.substitutions.length,
        (∀ j < k, Clear (pieces line.substitutions.length template.toList) line.substitutions j) →
          round k = substituted (pieces line.substitutions.length template.toList)
            (line.substitutions.take k) := by
  refine ⟨fun k => fill 0 (line.substitutions.take k) template.toList, rfl, ?_, ?_, ?_⟩
  · intro k s here
    simp only [fill_take_succ here]
    exact Text.replaces_replaceAll (placeholder_ne_nil k) _
  · simp [resolve, found]
  · intro k le clear
    exact fill_eq_substituted (reads_pieces _ _) le clear

/-- A text with two placeholders, one of which comes twice. -/
def greeting : String := "\x7b0\x7d has \x7b1\x7d gold, \x7b0\x7d!"

theorem resolve_rounds_greeting :
    (∀ j < 2, Clear (pieces 2 greeting.toList) ["Mae", "3"] j) ∧
      (ofList [("line:greet", greeting)]).resolve ⟨"line:greet", ["Mae", "3"]⟩ =
        "Mae has 3 gold, Mae!" := by
  have clear (j : Nat) : Clear (pieces 2 greeting.toList) ["Mae", "3"] j := by
    apply clear_of_plain
    · decide
    · simp
  refine ⟨fun j _ => clear j, ?_⟩
  have found : (ofList [("line:greet", greeting)]).find? "line:greet" = some greeting := by decide
  obtain ⟨round, -, -, text, filled⟩ := resolve_rounds (ofList [("line:greet", greeting)])
    ⟨"line:greet", ["Mae", "3"]⟩ found
  have last : round 2 = _ := filled 2 (Nat.le_refl 2) fun j _ => clear j
  rw [text]
  change String.ofList (round 2) = _
  rw [last]
  decide

/-- What a substitution brings in is taken for the placeholder of a later round. -/
example :
    (ofList [("line:owns", "\x7b0\x7d has \x7b1\x7d")]).resolve
      ⟨"line:owns", ["\x7b1\x7d", "gold"]⟩ = "gold has gold" := by decide

section Filled

variable {t : StringTable} {line : Line} {template : String}

theorem resolve_of_clear (found : t.find? line.id = some template)
    (clear : ∀ j < line.substitutions.length,
      Clear (pieces line.substitutions.length template.toList) line.substitutions j) :
    t.resolve line = String.ofList
      (substituted (pieces line.substitutions.length template.toList) line.substitutions) := by
  have filled := fill_eq_substituted (reads_pieces _ template.toList) (Nat.le_refl _) clear
  rw [List.take_length] at filled
  simp [resolve, found, filled]

/-- A line with one substitution is always filled as its template says. -/
theorem resolve_single (found : t.find? line.id = some template)
    (single : line.substitutions.length = 1) :
    t.resolve line = String.ofList (substituted (pieces 1 template.toList) line.substitutions) := by
  have filled := resolve_of_clear found
  rw [single] at filled
  apply filled
  intro j lt
  obtain rfl : j = 0 := by omega
  exact clear_zero Nat.one_pos _ _

/-- So is a line without an opening brace but for those of its placeholders. -/
theorem resolve_plain (found : t.find? line.id = some template)
    (chars : Piece.char '\x7b' ∉ pieces line.substitutions.length template.toList)
    (texts : ∀ s ∈ line.substitutions, '\x7b' ∉ s.toList) :
    t.resolve line = String.ofList
      (substituted (pieces line.substitutions.length template.toList) line.substitutions) :=
  resolve_of_clear found fun j _ => clear_of_plain chars texts j

end Filled

end StringTable

end DialogueEngine
