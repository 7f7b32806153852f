import DialogueEngine.Json.Printer
import DialogueEngine.Proofs.Json.Number
import DialogueEngine.Proofs.Json.Text

/-! # Documents that are written

Documents made of values are read back as they have been written. The printer works on the tree
and the parser on tokens, so both are tied to a third thing: a machine that takes tokens off a
list of bytes.

* `Written` — the documents that values are written as, with a bound on their depth.
* `Reads` — what the machine that builds trees makes of bytes.
* `Written.faithful` — the bytes of a document move the machine as the whole document does.
* `parse?_write` — a document that is written is read as itself.
-/

namespace DialogueEngine.Json

/-- Documents of values: numbers that have a value, texts, and lists and records of documents of
    values, around a leaf no more than so many of them. -/
inductive Written : Nat → Json → Prop where
  | null {depth : Nat} : Written depth .null
  | bool {depth : Nat} (b : Bool) : Written depth (.bool b)
  | number {depth : Nat} {lexeme : List UInt8} {r : Number}
      (value : Number.ofLexeme? lexeme = some r) : Written depth (.number lexeme)
  | text {depth : Nat} (s : String) : Written depth (.text s)
  | array {depth : Nat} {items : List Json} (each : ∀ j ∈ items, Written depth j) :
      Written (depth + 1) (.array items)
  | record {depth : Nat} {members : List (String × Json)}
      (each : ∀ m ∈ members, Written depth m.2) : Written (depth + 1) (.record members)

def lexemes (members : List (String × Json)) : List (List UInt8 × Json) :=
  members.map fun m => (lexemeOf m.1, m.2)

theorem areSound_of_forall {items : List Json} (each : ∀ j ∈ items, j.isSound = true) :
    areSound items = true := by
  induction items with
  | nil => rfl
  | cons j items ih =>
    rw [areSound, each j List.mem_cons_self]
    exact ih fun j mem => each j (List.mem_cons_of_mem _ mem)

theorem areSoundMembers_of_forall {members : List (String × Json)}
    (each : ∀ m ∈ members, m.2.isSound = true) : areSoundMembers (lexemes members) = true := by
  induction members with
  | nil => rfl
  | cons m members ih =>
    rw [lexemes, List.map_cons, areSoundMembers, each m List.mem_cons_self, textOf?_lexemeOf]
    exact ih fun m mem => each m (List.mem_cons_of_mem _ mem)

theorem depthItems_le {n : Nat} {items : List Json} (each : ∀ j ∈ items, j.depth ≤ n) :
    depthItems items ≤ n := by
  induction items with
  | nil => exact Nat.zero_le n
  | cons j items ih =>
    exact Nat.max_le.mpr ⟨each j List.mem_cons_self,
      ih fun j mem => each j (List.mem_cons_of_mem _ mem)⟩

theorem depthMembers_le {n : Nat} {members : List (String × Json)}
    (each : ∀ m ∈ members, m.2.depth ≤ n) : depthMembers (lexemes members) ≤ n := by
  induction members with
  | nil => exact Nat.zero_le n
  | cons m members ih =>
    exact Nat.max_le.mpr ⟨each m List.mem_cons_self,
      ih fun m mem => each m (List.mem_cons_of_mem _ mem)⟩

namespace Written

variable {depth : Nat} {α : Type}

theorem float {x : Float} (legible : Decimal.isFinite x = true → ReadsBack x) :
    Written depth (.float x) := by
  unfold Json.float
  cases finite : Decimal.isFinite x with
  | false =>
    rw [ofFloat?_eq_none finite]
    exact .null
  | true =>
    obtain ⟨lexeme, r, written, value, -⟩ := (legible finite).lexeme
    rw [written]
    exact .number value

theorem natural {n : Nat} (small : n < Word.bound) : Written depth (.natural n) :=
  .number (Number.ofLexeme?_natural small)

theorem list {f : α → Json} {xs : List α} (each : ∀ x ∈ xs, Written depth (f x)) :
    Written (depth + 1) (.list f xs) := by
  refine .array fun j mem => ?_
  obtain ⟨x, given, rfl⟩ := List.mem_map.mp mem
  exact each x given

theorem texts (xs : List String) : Written (depth + 1) (.list .text xs) := .list fun s _ => .text s

theorem dict {f : α → Json} {entries : List (String × α)}
    (each : ∀ e ∈ entries, Written depth (f e.2)) : Written (depth + 1) (.dict f entries) := by
  refine .record fun m mem => ?_
  obtain ⟨e, given, rfl⟩ := List.mem_map.mp mem
  exact each e given

theorem isSound {j : Json} (written : Written depth j) : j.isSound = true := by
  induction written with
  | null => rfl
  | bool b => rfl
  | number value => simp [Json.isSound, value]
  | text s => simp [Json.isSound, Json.text]
  | array _ ih => exact areSound_of_forall ih
  | record _ ih => exact areSoundMembers_of_forall ih

theorem depth_le {j : Json} (written : Written depth j) : j.depth ≤ depth := by
  induction written with
  | null => exact Nat.zero_le _
  | bool b => exact Nat.zero_le _
  | number _ => exact Nat.zero_le _
  | text s => exact Nat.zero_le _
  | array _ ih => exact Nat.succ_le_succ (depthItems_le ih)
  | record _ ih => exact Nat.succ_le_succ (depthMembers_le ih)

end Written

/-! ## Tokens of bytes -/

/-- Bytes that do not go on with a numeral. -/
def Boundary (bytes : List UInt8) : Prop := ∀ b ∈ bytes.head?, isNumeric b = false

theorem Boundary.cons {b : UInt8} {bytes : List UInt8} (other : isNumeric b = false) :
    Boundary (b :: bytes) := by
  intro c head
  cases head
  exact other

/-- The bytes consist of the tokens, whatever number of steps is allowed beyond their length. -/
def Lexes (bytes : List UInt8) (ts : List Token) : Prop :=
  ∀ steps, bytes.length ≤ steps → Token.lexWithin? steps bytes = some ts

theorem Lexes.nil : Lexes [] [] := by
  intro steps _
  cases steps <;> rfl

theorem Lexes.cons {b : UInt8} {w rest : List UInt8} {t : Token} {ts : List Token}
    (solid : isSpace b = false) (first : Token.first? b (w ++ rest) = some (t, rest))
    (lexes : Lexes rest ts) : Lexes (b :: (w ++ rest)) (t :: ts) := by
  intro steps enough
  cases steps with
  | zero => cases enough
  | succ steps =>
    have start : (b :: (w ++ rest)).dropWhile isSpace = b :: (w ++ rest) := by
      rw [List.dropWhile_cons, if_neg (by simp [solid])]
    -- a token takes one byte at least, so the steps that are left suffice for the rest
    have tail : Token.lexWithin? steps rest = some ts := by
      refine lexes steps ?_
      rw [List.length_cons, List.length_append] at enough
      omega
    rw [Token.lexWithin?, start]
    simp [first, tail]

/-- A machine that builds a tree comes from one state to another over bytes. -/
def Reads (m : Builder) (bytes : List UInt8) (m' : Builder) : Prop :=
  ∃ ts, Lexes bytes ts ∧ Builder.run? m ts = some m'

namespace Reads

variable {m m' m'' : Builder} {rest : List UInt8}

theorem nil : Reads m [] m := ⟨[], .nil, rfl⟩

theorem token {b : UInt8} (w : List UInt8) {t : Token} (solid : isSpace b = false)
    (first : Token.first? b (w ++ rest) = some (t, rest)) (step : m.step? t = some m')
    (reads : Reads m' rest m'') : Reads m (b :: (w ++ rest)) m'' := by
  obtain ⟨ts, lexes, run⟩ := reads
  refine ⟨t :: ts, .cons solid first lexes, ?_⟩
  change (m.step? t).bind (Builder.run? · ts) = some m''
  rw [step]
  exact run

/-- A token of one byte. -/
theorem mark {b : UInt8} {t : Token} (solid : isSpace b = false)
    (first : Token.first? b rest = some (t, rest)) (step : m.step? t = some m')
    (reads : Reads m' rest m'') : Reads m (b :: rest) m'' :=
  token [] solid first step reads

/-- The lexeme of a text in quotes. -/
theorem quote (s : String) (step : m.step? (.string (lexemeOf s)) = some m')
    (reads : Reads m' rest m'') : Reads m (Json.quote (lexemeOf s) ++ rest) m'' := by
  have first : Token.first? 0x22 (lexemeOf s ++ [0x22] ++ rest) =
      some (.string (lexemeOf s), rest) := by
    rw [List.append_assoc]
    change (scanString (lexemeOf s ++ 0x22 :: rest)).map _ = _
    rw [scanString_lexemeOf]
    rfl
  exact token _ (by decide) first step reads

end Reads

/-- A machine that takes the first token of a value as one does that waits for a value. -/
def Awaits (m : Builder) (stack : List Frame) : Prop :=
  ∀ t m', Builder.start? stack t = some m' → m.step? t = some m'

theorem awaits_value (stack : List Frame) : Awaits (.value stack) stack := fun _ _ start => start

theorem awaits_firstItem (stack : List Frame) : Awaits (.firstItem stack) (.items [] :: stack) := by
  intro t m' start
  cases t with
  | closeArray => cases start
  | _ => exact start

/-! ## One document -/

/-- The bytes of a document move a machine that waits for a value as the whole document does. -/
def Faithful (j : Json) : Prop :=
  ∀ ⦃m m' : Builder⦄ ⦃stack : List Frame⦄ ⦃rest : List UInt8⦄, Awaits m stack → Boundary rest →
    Reads (.deliver j stack) rest m' → Reads m (j.write ++ rest) m'

/-- The first bytes of the other tokens. -/
def marks : List UInt8 := ['[', ']', '\x7b', '\x7d', ':', ',', '"', 'n', 't', 'f'].map ascii

theorem isNumeric_apart {b : UInt8} (numeric : isNumeric b = true) :
    isSpace b = false ∧ ∀ c ∈ marks, (b == c) = false := by
  have table : ∀ n < 256, isNumeric (.ofNat n) = true →
      isSpace (.ofNat n) = false ∧ ∀ c ∈ marks, (UInt8.ofNat n == c) = false := by decide +kernel
  rw [← @UInt8.ofNat_toNat b] at numeric ⊢
  exact table b.toNat b.toNat_lt numeric

theorem first?_numeral {b : UInt8} {more rest : List UInt8} {m : Numeral}
    (split : Numeral.split? (b :: more) = some m) (boundary : Boundary rest) :
    isSpace b = false ∧ Token.first? b (more ++ rest) = some (.number (b :: more), rest) := by
  have numeric := (Numeral.split?_numeric split).2
  have head : isNumeric b = true := numeric b List.mem_cons_self
  have tail : ∀ c ∈ more, isNumeric c = true := fun c mem => numeric c (List.mem_cons_of_mem _ mem)
  obtain ⟨solid, apart⟩ := isNumeric_apart head
  refine ⟨solid, ?_⟩
  -- the numeral ends where the boundary is, not before and not behind it
  have stop : rest.takeWhile isNumeric = [] ∧ rest.dropWhile isNumeric = rest := by
    cases rest with
    | nil => exact ⟨rfl, rfl⟩
    | cons c rest =>
      have other : isNumeric c = false := boundary c rfl
      simp [other]
  have cut : (more ++ rest).takeWhile isNumeric = more ∧
      (more ++ rest).dropWhile isNumeric = rest := by
    rw [List.takeWhile_append_of_pos tail, List.dropWhile_append_of_pos tail, stop.1, stop.2]
    exact ⟨List.append_nil more, rfl⟩
  simp only [marks, List.map_cons, List.map_nil, List.forall_mem_cons] at apart
  obtain ⟨h₁, h₂, h₃, h₄, h₅, h₆, h₇, h₈, h₉, h₁₀, -⟩ := apart
  simp [Token.first?, h₁, h₂, h₃, h₄, h₅, h₆, h₇, h₈, h₉, h₁₀, head, cut, split]

theorem faithful_number {lexeme : List UInt8} {m : Numeral}
    (split : Numeral.split? lexeme = some m) : Faithful (.number lexeme) := by
  intro m m' stack rest awaits boundary reads
  cases lexeme with
  | nil => cases split
  | cons b more =>
    obtain ⟨solid, first⟩ := first?_numeral split boundary
    exact .token more solid first (awaits _ _ rfl) reads

theorem boundary_items (items : List Json) (rest : List UInt8) :
    Boundary (writeItems false items ++ ascii ']' :: rest) := by
  cases items with
  | nil => exact .cons (by decide)
  | cons j items => exact .cons (by decide)

theorem reads_items {items : List Json} (each : ∀ j ∈ items, Faithful j) {done : List Json}
    {stack : List Frame} {rest : List UInt8} {m : Builder}
    (reads : Reads (.deliver (.array (done.reverse ++ items)) stack) rest m) :
    Reads (.afterItem done stack) (writeItems false items ++ ascii ']' :: rest) m := by
  induction items generalizing done with
  | nil =>
    rw [List.append_nil] at reads
    exact .mark (by decide) rfl rfl reads
  | cons j items ih =>
    -- the comma leads to where a value has to come, and the value to the rest of the items
    rw [List.append_cons, ← List.reverse_cons] at reads
    have tail := ih (fun j mem => each j (List.mem_cons_of_mem _ mem)) reads
    have item := each j List.mem_cons_self (awaits_value (.items done :: stack))
      (boundary_items items rest) tail
    have bytes : writeItems false (j :: items) ++ ascii ']' :: rest =
        ascii ',' :: (j.write ++ (writeItems false items ++ ascii ']' :: rest)) := by
      simp [writeItems]
    rw [bytes]
    exact .mark (by decide) rfl rfl item

theorem faithful_array {items : List Json} (each : ∀ j ∈ items, Faithful j) :
    Faithful (.array items) := by
  intro m m' stack rest awaits _ reads
  cases items with
  | nil => exact .mark (by decide) rfl (awaits _ _ rfl) (.mark (by decide) rfl rfl reads)
  | cons j items =>
    have tail : Reads (.afterItem [j] stack) (writeItems false items ++ ascii ']' :: rest) m' :=
      reads_items (fun j mem => each j (List.mem_cons_of_mem _ mem)) reads
    have item := each j List.mem_cons_self (awaits_firstItem stack) (boundary_items items rest) tail
    have bytes : (Json.array (j :: items)).write ++ rest =
        ascii '[' :: (j.write ++ (writeItems false items ++ ascii ']' :: rest)) := by
      simp [write, writeItems]
    rw [bytes]
    exact .mark (by decide) rfl (awaits _ _ rfl) item

theorem boundary_members (members : List (String × Json)) (rest : List UInt8) :
    Boundary (writeMembers false (lexemes members) ++ ascii '\x7d' :: rest) := by
  cases members with
  | nil => exact .cons (by decide)
  | cons j items => exact .cons (by decide)

/-- A key, a colon and a value, wherever a key may stand. -/
theorem reads_member {k : String} {j : Json} (faithful : Faithful j) {m m' : Builder}
    {done : List (List UInt8 × Json)} {stack : List Frame} {rest : List UInt8}
    (key : m.step? (.string (lexemeOf k)) = some (.colon done (lexemeOf k) stack))
    (boundary : Boundary rest)
    (reads : Reads (.afterMember ((lexemeOf k, j) :: done) stack) rest m') :
    Reads m (quote (lexemeOf k) ++ ascii ':' :: (j.write ++ rest)) m' := by
  have value := faithful (awaits_value (.member done (lexemeOf k) :: stack)) boundary reads
  exact .quote k key (.mark (by decide) rfl rfl value)

theorem reads_members {members : List (String × Json)} (each : ∀ m ∈ members, Faithful m.2)
    {done : List (List UInt8 × Json)} {stack : List Frame} {rest : List UInt8} {m : Builder}
    (reads : Reads (.deliver (.object (done.reverse ++ lexemes members)) stack) rest m) :
    Reads (.afterMember done stack)
      (writeMembers false (lexemes members) ++ ascii '\x7d' :: rest) m := by
  induction members generalizing done with
  | nil =>
    rw [lexemes, List.map_nil, List.append_nil] at reads
    exact .mark (by decide) rfl rfl reads
  | cons e members ih =>
    obtain ⟨k, j⟩ := e
    have tail : Reads (.afterMember ((lexemeOf k, j) :: done) stack)
        (writeMembers false (lexemes members) ++ ascii '\x7d' :: rest) m :=
      ih (fun m mem => each m (List.mem_cons_of_mem _ mem)) (by simpa [lexemes] using reads)
    have member : Reads (.key done stack) _ m :=
      reads_member (each _ List.mem_cons_self) rfl (boundary_members members rest) tail
    have bytes : writeMembers false (lexemes ((k, j) :: members)) ++ ascii '\x7d' :: rest =
        ascii ',' :: (quote (lexemeOf k) ++ ascii ':' ::
          (j.write ++ (writeMembers false (lexemes members) ++ ascii '\x7d' :: rest))) := by
      simp [lexemes, writeMembers]
    rw [bytes]
    exact .mark (by decide) rfl rfl member

theorem faithful_record {members : List (String × Json)} (each : ∀ m ∈ members, Faithful m.2) :
    Faithful (.record members) := by
  intro m m' stack rest awaits _ reads
  cases members with
  | nil => exact .mark (by decide) rfl (awaits _ _ rfl) (.mark (by decide) rfl rfl reads)
  | cons e members =>
    obtain ⟨k, j⟩ := e
    have tail : Reads (.afterMember [(lexemeOf k, j)] stack)
        (writeMembers false (lexemes members) ++ ascii '\x7d' :: rest) m' :=
      reads_members (fun m mem => each m (List.mem_cons_of_mem _ mem)) reads
    have member : Reads (.firstKey stack) _ m' :=
      reads_member (each _ List.mem_cons_self) rfl (boundary_members members rest) tail
    have bytes : (Json.record ((k, j) :: members)).write ++ rest =
        ascii '\x7b' :: (quote (lexemeOf k) ++ ascii ':' ::
          (j.write ++ (writeMembers false (lexemes members) ++ ascii '\x7d' :: rest))) := by
      simp [record, lexemes, write, writeMembers]
    rw [bytes]
    exact .mark (by decide) rfl (awaits _ _ rfl) member

theorem Written.faithful {depth : Nat} {j : Json} (written : Written depth j) : Faithful j := by
  induction written with
  | null =>
    intro m m' stack rest awaits _ reads
    exact .token (word "ull") (by decide) rfl (awaits _ _ rfl) reads
  | bool b =>
    intro m m' stack rest awaits _ reads
    cases b with
    | false => exact .token (word "alse") (by decide) rfl (awaits _ _ rfl) reads
    | true => exact .token (word "rue") (by decide) rfl (awaits _ _ rfl) reads
  | number value =>
    obtain ⟨n, split, -⟩ := Option.bind_eq_some_iff.mp value
    exact faithful_number split
  | text s =>
    intro m m' stack rest awaits _ reads
    exact .quote s (awaits _ _ rfl) reads
  | array _ ih => exact faithful_array ih
  | record _ ih => exact faithful_record ih

/-- A document that is written is read as itself. -/
theorem parse?_write {depth : Nat} {j : Json} (written : Written depth j) :
    parse? j.write = some j := by
  obtain ⟨ts, lexes, run⟩ : Reads (.value []) (j.write ++ []) (.finished j) :=
    written.faithful (awaits_value []) (by simp [Boundary]) .nil
  rw [List.append_nil] at lexes
  have lex : Token.lex? j.write = some ts := lexes _ (Nat.le_refl _)
  simp [parse?, lex, run]

end DialogueEngine.Json
