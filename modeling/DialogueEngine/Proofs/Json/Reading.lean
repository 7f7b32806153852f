import Mathlib.Data.List.Basic
import DialogueEngine.Json.Decode
import DialogueEngine.Proofs.Json.Written

/-! # Values of documents that are written

Each reader against the writer of the same shape, so that a type's own reader and writer are
compared member by member. What a reader makes of an item may depend on the item: it then gives
`Option.guard P x` for the items `x`, and the reader of the list gives the list if all of them
pass.

* `items?_list`, `dict?_dict` — lists and dictionaries.
* `fields?_record` — the fields of a record are its members.
* `of_items?`, `of_dict?`, `of_field?` — what holds of all that a reader gives holds
  of what it gives inside a larger document.
-/

namespace DialogueEngine.Json

variable {α : Type} {f : Json → Option α} {g : α → Json} {P : α → Bool}

/-! ## Leaves and cases -/

@[simp] theorem text?_text (s : String) : (Json.text s).text? = some s := textOf?_lexemeOf s

@[simp] theorem index?_natural {n : Nat} (small : n < Word.bound) :
    (Json.natural n).index? = some n := by
  simp [index?, number?, Json.natural, Number.ofLexeme?_natural small]

@[simp] theorem variant?_text (s : String) : (Json.text s).variant? = some (s, none) := by
  simp [variant?, Json.text]

@[simp] theorem variant?_record (k : String) (j : Json) :
    (record [(k, j)]).variant? = some (k, some j) := by
  simp [variant?, record]

/-- Digits need no escapes, so that a number as a key has the lexeme that it has as a number. -/
theorem lexemeOf_digits (n : Nat) :
    lexemeOf (String.ofList (Nat.toDigits 10 n)) = (Nat.toDigits 10 n).map ascii := by
  have plain : ∀ b < 256, isDigit (.ofNat b) = true →
      escapeByte (.ofNat b) = [UInt8.ofNat b] := by decide +kernel
  have char {c : Char} (digit : c.isDigit = true) :
      (String.utf8EncodeChar c).flatMap escapeByte = [ascii c] := by
    have high : c.val.toNat ≤ 127 :=
      Nat.le_trans (Char.isDigit_iff_toNat.mp digit).2 (by decide)
    have byte := plain (ascii c).toNat (ascii c).toNat_lt
    rw [UInt8.ofNat_toNat] at byte
    have encoded : String.utf8EncodeChar c = [ascii c] := by
      unfold String.utf8EncodeChar
      exact if_pos high
    rw [encoded, List.flatMap_cons, List.flatMap_nil, List.append_nil, byte (isDigit_ascii digit)]
  have digits : ∀ c ∈ Nat.toDigits 10 n, c.isDigit = true := fun c =>
    Nat.isDigit_of_mem_toDigits (by decide) (by decide)
  change (List.flatMap String.utf8EncodeChar _).toByteArray.data.toList.flatMap escapeByte = _
  rw [List.toList_data_toByteArray, List.flatMap_assoc, List.map_eq_flatMap]
  exact List.flatMap_congr fun c mem => char (digits c mem)

/-! ## Lists and dictionaries -/

/-- What is built from a value passes if the value does. -/
theorem guard_bind {β : Type} {p : α → Bool} {q : β → Bool} {build : α → β} {x : α}
    (same : q (build x) = p x) :
    ((Option.guard p x).bind fun y => some (build y)) = Option.guard q (build x) := by
  cases passes : p x <;> simp [Option.guard, same, passes]

theorem mapM_guard {β : Type} {f : β → Option α} {g : α → β} {xs : List α}
    (each : ∀ x ∈ xs, f (g x) = Option.guard P x) :
    (xs.map g).mapM f = Option.guard (·.all P) xs := by
  induction xs with
  | nil => rfl
  | cons x xs ih =>
    rw [List.map_cons, List.mapM_cons, each x List.mem_cons_self,
      ih fun x mem => each x (List.mem_cons_of_mem _ mem)]
    cases head : P x <;> cases rest : xs.all P <;> simp [Option.guard, head, rest]

theorem items?_list {xs : List α} (each : ∀ x ∈ xs, f (g x) = Option.guard P x) :
    items? f (list g xs) = Option.guard (·.all P) xs :=
  mapM_guard each

@[simp] theorem items?_texts (xs : List String) : items? text? (list text xs) = some xs := by
  rw [items?_list (P := fun _ => true) fun s _ => text?_text s]
  simp [Option.guard]

theorem dict?_dict {d : Dict String α} (each : ∀ e ∈ d.entries, f (g e.2) = Option.guard P e.2) :
    dict? f (dict g d.entries) = Option.guard (·.entries.all (P ·.2)) d := by
  unfold dict? dict record
  dsimp only
  rw [List.map_map, mapM_guard (P := fun e => P e.2)]
  · cases all : d.entries.all (P ·.2) <;> simp [Option.guard, all, Dict.ofList_entries]
  · intro e mem
    simp only [Function.comp_apply, textOf?_lexemeOf, each e mem]
    cases holds : P e.2 <;> simp [Option.guard, holds]

/-! ## Records -/

/-- Members with names of their own are all found, the last first. -/
theorem namedFields?_lexemes {names : List String} {members found : List (String × Json)}
    (known : ∀ m ∈ members, m.1 ∈ names) (nodup : (members.map (·.1)).Nodup)
    (new : ∀ m ∈ members, Entries.find? m.1 found = none) :
    namedFields? names (lexemes members) found = some (members.reverse ++ found) := by
  induction members generalizing found with
  | nil => rfl
  | cons m members ih =>
    obtain ⟨apart, nodup⟩ := List.nodup_cons.mp nodup
    have others : ∀ m' ∈ members, m'.1 ≠ m.1 := fun m' mem same =>
      apart (List.mem_map.mpr ⟨m', mem, same⟩)
    -- the name that has been found is none of those still to come
    have rest : namedFields? names (lexemes members) ((m.1, m.2) :: found) = _ :=
      ih (fun m mem => known m (List.mem_cons_of_mem _ mem)) nodup fun m' mem => by
        rw [Entries.find?, if_neg (others m' mem)]
        exact new m' (List.mem_cons_of_mem _ mem)
    rw [lexemes, List.map_cons, ← lexemes, namedFields?]
    simp [known m List.mem_cons_self, new m List.mem_cons_self, rest]

/-- The fields of a record are its members. -/
@[simp] theorem fields?_record {names : List String} {members : List (String × Json)}
    (exact : members.map (·.1) = names) (nodup : names.Nodup) :
    (record members).fields? names = some members.reverse := by
  subst exact
  have all : namedFields? (members.map (·.1)) (lexemes members) [] = some (members.reverse ++ []) :=
    namedFields?_lexemes (fun m mem => List.mem_map_of_mem mem) nodup fun _ _ => rfl
  rwa [List.append_nil] at all

section

variable {fields : List (String × Json)} {name k : String} {j : Json} {default : α}

@[simp] theorem field?_cons : field? ((name, j) :: fields) name f = f j := by
  simp [field?, Entries.find?]

@[simp] theorem field?_cons_ne (other : name ≠ k) :
    field? ((k, j) :: fields) name f = field? fields name f := by
  simp [field?, Entries.find?, other]

@[simp] theorem fieldD?_cons : fieldD? ((name, j) :: fields) name default f = f j := by
  simp [fieldD?, Entries.find?]

@[simp] theorem fieldD?_cons_ne (other : name ≠ k) :
    fieldD? ((k, j) :: fields) name default f = fieldD? fields name default f := by
  simp [fieldD?, Entries.find?, other]

end

/-! ## What holds of all that is read -/

theorem of_mapM {β : Type} {f : β → Option α} {holds : α → Prop}
    (each : ∀ b x, f b = some x → holds x) {bs : List β} {xs : List α}
    (read : bs.mapM f = some xs) : ∀ x ∈ xs, holds x := by
  induction bs generalizing xs with
  | nil =>
    cases read
    simp
  | cons b bs ih =>
    rw [List.mapM_cons] at read
    obtain ⟨x, head, read⟩ := Option.bind_eq_some_iff.mp read
    obtain ⟨rest, tail, read⟩ := Option.bind_eq_some_iff.mp read
    cases read
    exact List.forall_mem_cons.mpr ⟨each b x head, ih tail⟩

section

variable {holds : α → Prop} (each : ∀ j x, f j = some x → holds x)

include each

theorem of_items? {j : Json} {xs : List α} (read : j.items? f = some xs) : ∀ x ∈ xs, holds x := by
  cases j with
  | array items => exact of_mapM each read
  | _ => cases read

theorem of_dict? {j : Json} {d : Dict String α} (read : j.dict? f = some d) :
    ∀ e ∈ d.entries, holds e.2 := by
  cases j with
  | object members =>
    obtain ⟨entries, all, read⟩ := Option.bind_eq_some_iff.mp read
    cases read
    have values : ∀ e ∈ entries, holds e.2 := of_mapM (fun m e member => by
      obtain ⟨key, -, member⟩ := Option.bind_eq_some_iff.mp member
      obtain ⟨x, value, member⟩ := Option.bind_eq_some_iff.mp member
      cases member
      exact each m.2 x value) all
    intro e mem
    rcases Dict.mem_insertAll mem with mem | mem
    · cases mem
    · exact values e mem
  | _ => cases read

theorem of_field? {fields : List (String × Json)} {name : String} {x : α}
    (read : field? fields name f = some x) : holds x := by
  obtain ⟨j, -, read⟩ := Option.bind_eq_some_iff.mp read
  exact each j x read

theorem of_fieldD? {fields : List (String × Json)} {name : String} {default x : α}
    (otherwise : holds default) (read : fieldD? fields name default f = some x) : holds x := by
  unfold fieldD? at read
  split at read
  · exact each _ x read
  · cases read
    exact otherwise

end

end DialogueEngine.Json
