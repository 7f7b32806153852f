import DialogueEngine.Proofs.Commands.Preorder
import DialogueEngine.Proofs.Text.Words

/-! # Addressing the objects of a tree

A command whose second word is an object is looked up under the name that a search gives to the
marked methods of that object. The name does not tell where the object ends and the command begins.

* `CommandTable.resolve_named`, `CommandTable.resolve_scoped` — the two steps of the look-up.
* `MethodInfo.CalledBy` — a handler that calls a method.
* `HostObject.IsPlain` — an object that provides no commands but those of its marked methods.
* `HostObject.marked`, `CommandTable.scan_plain` — the marked methods of a tree of such objects.
* `CommandTable.addressed` — what a command with an object reaches.
* `scopedName_inj` — names without colons.
-/

namespace DialogueEngine

variable {σ κ : Type}

/-! ## The look-up -/

namespace CommandTable

variable {t : CommandTable σ} {name object arg : String} {args : List String} {h : Handler σ}

theorem resolve_named (found : t.find? name = some h) :
    t.resolve (name :: args) = some ⟨name, h, args⟩ := by
  simp [resolve, found]

theorem resolve_scoped (unnamed : t.find? name = none)
    (found : t.find? (object ++ "::" ++ name) = some h) :
    t.resolve (name :: object :: arg :: args) =
      some ⟨object ++ "::" ++ name, h, arg :: args⟩ := by
  simp [resolve, unnamed, scopedName, found]

theorem resolve_none (unnamed : t.find? name = none)
    (unscoped : ∀ object arg rest, args = object :: arg :: rest →
      t.find? (object ++ "::" ++ name) = none) : t.resolve (name :: args) = none := by
  cases args with
  | nil => simp [resolve, unnamed]
  | cons object args =>
    cases args with
    | nil => simp [resolve, unnamed]
    | cons arg rest => simp [resolve, unnamed, scopedName, unscoped object arg rest rfl]

end CommandTable

/-! ## Marked methods -/

/-- A handler calls a method of an object with words, and with the handle if it holds the dialogue.
    The handle is used if the call fails. -/
inductive MethodInfo.CalledBy (o : HostObject σ κ) (m : MethodInfo) (words : List String) :
    Handler σ → Prop
  | immediate {run : ImmediateHandler σ} (params : m.params = [.array]) (returns : m.returns = .nil)
    (called : run words = (o.call m.name [.strings words]).bind fun _ => .done ()) :
    CalledBy o m words (.immediate run)
  | blocking {run : BlockingHandler σ} (params : m.params = [.array, .callable])
    (returns : m.returns = .nil)
    (called : ∀ k, run words k =
      (o.call m.name [.strings words, .callable (.completion k)]).bind fun r =>
        if r.toBool then .done () else .resume k fun _ => .done ()) :
    CalledBy o m words (.blocking run)

/-- A method has the signature of a command. -/
def MethodInfo.Fits (m : MethodInfo) : Prop :=
  m.returns = .nil ∧ (m.params = [.array] ∨ m.params = [.array, .callable])

namespace HostObject

/-- An object that is no provider and cannot be made into one. -/
structure IsPlain (o : HostObject σ κ) : Prop where
  unprovided : o.provider = none
  lacking : o.hasMethod "command_handlers" = false

/-- The marked methods of objects as handlers, from the first object to the last. -/
def marked (os : List (HostObject σ κ)) : List (String × Handler σ) :=
  os.flatMap fun o => o.methods.filterMap (MethodInfo.handler? o)

variable {calls : HostCalls σ κ} {o : HostObject σ κ} {m : MethodInfo} {command name : String}
  {h : Handler σ}

/-- A method that is made a handler is marked and has the signature of a command. -/
theorem fits_of_handler? (made : MethodInfo.handler? o m = some (name, h)) :
    ∃ command, m.command = some command ∧ m.Fits := by
  by_cases unfit : Unfit m
  · rw [handler?_unfit unfit] at made
    cases made
  · obtain ⟨tagged, returns, params⟩ : m.command ≠ none ∧ m.returns = .nil ∧
        (m.params ≠ [.array] → m.params = [.array, .callable]) := by
      simpa [Unfit] using unfit
    obtain ⟨command, tag⟩ := Option.ne_none_iff_exists'.mp tagged
    exact ⟨command, tag, returns, Classical.or_iff_not_imp_left.mpr params⟩

/-- A handler that is made of a marked method calls it. -/
theorem calledBy_of_handler? (made : MethodInfo.handler? o m = some (name, h))
    (words : List String) :
    ∃ command, m.command = some command ∧ name = o.name ++ "::" ++ command ∧
      m.CalledBy o words h := by
  obtain ⟨command, tag, returns, params | params⟩ := fits_of_handler? made
  · rw [handler?_immediate tag params returns] at made
    cases made
    exact ⟨command, tag, rfl, .immediate params returns rfl⟩
  · rw [handler?_blocking tag params returns] at made
    cases made
    refine ⟨command, tag, rfl, .blocking params returns fun k => Act.bind_congr _ fun r => ?_⟩
    cases r <;> rfl

theorem handler?_of_fits (tag : m.command = some command) (fits : m.Fits) :
    ∃ h, MethodInfo.handler? o m = some (o.name ++ "::" ++ command, h) := by
  obtain ⟨returns, params | params⟩ := fits
  · exact ⟨_, handler?_immediate tag params returns⟩
  · exact ⟨_, handler?_blocking tag params returns⟩

theorem mem_marked {os : List (HostObject σ κ)} :
    (name, h) ∈ marked os ↔
      ∃ o ∈ os, ∃ m ∈ o.methods, MethodInfo.handler? o m = some (name, h) := by
  simp [marked]

end HostObject

/-- Objects without providers contribute their marked methods, and no host code runs. -/
theorem visits_plain (calls : HostCalls σ κ) {os : List (HostObject σ κ)}
    (plain : ∀ o ∈ os, o.IsPlain) : Visits calls os [] (HostObject.marked os) := by
  induction os with
  | nil => exact .nil
  | cons o os ih =>
    obtain ⟨first, others⟩ := List.forall_mem_cons.mp plain
    have here : o.Contributes calls .tagged ([] ++ []) _ :=
      .tagged (.absent first.unprovided) (.lacks first.lacking) (HostObject.tagged_iff.mpr rfl)
    exact .cons here (ih others)

/-- Host code that asks for nothing has its result at once. -/
theorem Act.Comes.at_once {α : Type} {x : Act σ α} {a : α} (comes : x.Comes [] a) : x = .done a := by
  cases comes
  rfl

namespace CommandTable

/-- A search of a tree without providers finds the marked methods, and no host code runs. -/
theorem scan_plain (calls : HostCalls σ κ) {root : HostObject σ κ}
    (plain : ∀ o ∈ root.preorder, o.IsPlain) :
    ∃ n t, (empty : CommandTable σ).scan calls root = .done (n, t) ∧
      ∀ name, t.find? name = (HostObject.marked root.preorder).lookup name := by
  have comes := (HostObject.comes_treeOffers root).mpr (visits_plain calls plain)
  have inserted : (empty : CommandTable σ).scan calls root =
      .done (empty.insertAll (HostObject.marked root.preorder)) := by
    rw [scan_eq, comes.at_once]
    rfl
  exact ⟨_, _, inserted, find?_insertAll empty (HostObject.marked root.preorder)⟩

end CommandTable

/-! ## Joined names -/

/-- The mark between the object and the command stands at one place only in the joined name. -/
def JoinsOnce (object command : String) : Prop :=
  ∀ before after : List Char,
    object.toList ++ ':' :: ':' :: command.toList = before ++ ':' :: ':' :: after →
      before = object.toList

theorem toList_joined (object command : String) :
    (object ++ "::" ++ command).toList = object.toList ++ ':' :: ':' :: command.toList := by
  simp

/-- If there is one place for the mark, the joined name tells object and command. -/
theorem JoinsOnce.split {object command object' command' : String}
    (once : JoinsOnce object command)
    (same : object' ++ "::" ++ command' = object ++ "::" ++ command) :
    object' = object ∧ command' = command := by
  have chars := congrArg String.toList same
  rw [toList_joined, toList_joined] at chars
  have objects : object'.toList = object.toList := once _ _ chars.symm
  rw [objects] at chars
  have commands : command'.toList = command.toList := by simpa using chars
  exact ⟨String.toList_inj.mp objects, String.toList_inj.mp commands⟩

/-- Names without colons are told apart. -/
theorem joinsOnce_of_no_colon {object command : String} (plain : ':' ∉ object.toList)
    (plain' : ':' ∉ command.toList) : JoinsOnce object command := by
  intro before after
  generalize object.toList = o, command.toList = c at plain plain'
  induction o generalizing before with
  | nil =>
    intro same
    cases before with
    | nil => rfl
    | cons x before =>
      -- A mark that stands later is in the command, or shares a colon with the first one.
      cases before with
      | nil =>
        obtain ⟨-, rfl⟩ : ':' = x ∧ c = ':' :: after := by simpa using same
        exact absurd List.mem_cons_self plain'
      | cons y before =>
        obtain ⟨-, -, rfl⟩ : ':' = x ∧ ':' = y ∧ c = before ++ ':' :: ':' :: after := by
          simpa using same
        exact absurd (List.mem_append_right _ List.mem_cons_self) plain'
  | cons x o ih =>
    intro same
    cases before with
    | nil =>
      obtain ⟨rfl, -⟩ := List.cons.inj same
      exact absurd List.mem_cons_self plain
    | cons y before =>
      obtain ⟨rfl, rest⟩ := List.cons.inj same
      rw [ih before (fun colon => plain (List.mem_cons_of_mem _ colon)) rest]

namespace CommandTable

/-- A tree without providers is searched, and a command of three words or more is not found under
    its first word. If it is found under its second word as the object and its first as the command,
    a marked method is called with the other words, and the names of its object and its command are
    joined to the same name; they are the two words if these can be joined in one way only. It is
    found if an object of this name has a marked method for the command. -/
theorem addressed (calls : HostCalls σ κ) {root : HostObject σ κ}
    (plain : ∀ o ∈ root.preorder, o.IsPlain) :
    ∃ n t, (empty : CommandTable σ).scan calls root = .done (n, t) ∧
      ∀ (cmd : Command) (command object arg : String) (args : List String),
        Text.Spaced (command :: object :: arg :: args) cmd.text.toList →
        t.find? command = none →
        (∀ r, t.resolve cmd.tokens = some r → r.args = arg :: args ∧
          ∃ o ∈ root.preorder, ∃ m ∈ o.methods, ∃ tag, m.command = some tag ∧
            o.name ++ "::" ++ tag = object ++ "::" ++ command ∧
            m.CalledBy o r.args r.handler ∧
            (JoinsOnce object command → o.name = object ∧ tag = command)) ∧
        ((∃ o ∈ root.preorder, o.name = object ∧
            ∃ m ∈ o.methods, m.command = some command ∧ m.Fits) →
          ∃ r, t.resolve cmd.tokens = some r) := by
  obtain ⟨n, t, scanned, finds⟩ := scan_plain calls plain
  refine ⟨n, t, scanned, fun cmd command object arg args spaced unnamed => ?_⟩
  have found := finds (object ++ "::" ++ command)
  rw [cmd.tokens_of_spaced spaced]
  cases looked : (HostObject.marked root.preorder).lookup (object ++ "::" ++ command) with
  | some h =>
    rw [looked] at found
    rw [resolve_scoped unnamed found]
    refine ⟨fun r resolved => ?_, fun _ => ⟨_, rfl⟩⟩
    cases resolved
    obtain ⟨l, l', split, -⟩ := List.lookup_eq_some_iff.mp looked
    have mem : (object ++ "::" ++ command, h) ∈ HostObject.marked root.preorder := by
      rw [split]
      exact List.mem_append_right _ List.mem_cons_self
    obtain ⟨o, ho, m, hm, made⟩ := HostObject.mem_marked.mp mem
    obtain ⟨tag, tagged, joined, called⟩ := HostObject.calledBy_of_handler? made (arg :: args)
    exact ⟨rfl, o, ho, m, hm, tag, tagged, joined.symm, called, fun once => once.split joined.symm⟩
  | none =>
    rw [looked] at found
    have unfound : t.resolve (command :: object :: arg :: args) = none :=
      resolve_none unnamed fun object' arg' rest same => by
        cases same
        exact found
    rw [unfound]
    refine ⟨nofun, fun ⟨o, ho, named, m, hm, tagged, fits⟩ => ?_⟩
    obtain ⟨h, made⟩ := HostObject.handler?_of_fits (o := o) tagged fits
    have mem := HostObject.mem_marked.mpr ⟨o, ho, m, hm, made⟩
    rw [named] at mem
    simpa using List.lookup_eq_none_iff.mp looked _ mem

/-- An object with one method, which is marked and writes a number. -/
def noisy (name method command : String) (n : Nat) (children : List (HostObject Nat Unit)) :
    HostObject Nat Unit :=
  ⟨name, fun _ => false, fun _ _ => .write n (.done (.ok .nil)),
    [⟨method, [.array], .nil, some command⟩], none, children⟩

/-- The command `open` of a door in a house. -/
theorem addressed_door :
    let calls : HostCalls Nat Unit := fun _ _ => .done (.ok .nil)
    let house := noisy "house" "light" "shine" 1 [noisy "door" "unlock" "open" 2 []]
    ∃ n t r, (empty : CommandTable Nat).scan calls house = .done (n, t) ∧
      t.resolve (Command.tokens ⟨"open door now"⟩) = some r ∧ r.args = ["now"] ∧
      ∃ o ∈ house.preorder, o.name = "door" ∧
        ∃ m ∈ o.methods, m.command = some "open" ∧ m.CalledBy o r.args r.handler := by
  intro calls house
  have objects : house.preorder = [house, noisy "door" "unlock" "open" 2 []] := rfl
  have plain : ∀ o ∈ house.preorder, o.IsPlain := by
    rw [objects]
    exact List.forall_mem_cons.mpr ⟨⟨rfl, rfl⟩, List.forall_mem_singleton.mpr ⟨rfl, rfl⟩⟩
  obtain ⟨n, t, scanned, reaches⟩ := addressed calls plain
  have unnamed : t.find? "open" = none := by
    obtain ⟨n', t', scanned', finds⟩ := scan_plain calls plain
    cases scanned.symm.trans scanned'
    exact (finds _).trans rfl
  have spaced : Text.Spaced ["open", "door", "now"] "open door now".toList :=
    Text.spaced_iff.mpr (by decide +kernel)
  obtain ⟨called, found⟩ := reaches ⟨"open door now"⟩ _ _ _ _ spaced unnamed
  obtain ⟨r, resolved⟩ := found ⟨noisy "door" "unlock" "open" 2 [], by simp [objects], rfl, _,
    List.mem_singleton_self _, rfl, rfl, .inl rfl⟩
  obtain ⟨args, o, ho, m, hm, tag, tagged, -, runs, apart⟩ := called r resolved
  obtain ⟨named, rfl⟩ := apart (joinsOnce_of_no_colon (by decide) (by decide))
  exact ⟨n, t, r, scanned, resolved, args, o, ho, named, m, hm, tagged, runs⟩

/-- The object `a::b` gets a command that is meant for the object `a`. -/
theorem addressed_ambiguous :
    let calls : HostCalls Nat Unit := fun _ _ => .done (.ok .nil)
    let outer := noisy "a::b" "m" "c" 1 [noisy "a" "n" "b::c" 2 []]
    ∃ n t r, (empty : CommandTable Nat).scan calls outer = .done (n, t) ∧
      t.find? "b::c" = none ∧ t.resolve (Command.tokens ⟨"b::c a x"⟩) = some r ∧
      ¬ ∃ o ∈ outer.preorder, o.name = "a" ∧
        ∃ m ∈ o.methods, m.command = some "b::c" ∧ m.CalledBy o r.args r.handler := by
  intro calls outer
  have objects : outer.preorder = [outer, noisy "a" "n" "b::c" 2 []] := rfl
  have plain : ∀ o ∈ outer.preorder, o.IsPlain := by
    rw [objects]
    exact List.forall_mem_cons.mpr ⟨⟨rfl, rfl⟩, List.forall_mem_singleton.mpr ⟨rfl, rfl⟩⟩
  obtain ⟨n, t, scanned, finds⟩ := scan_plain calls plain
  have unnamed : t.find? "b::c" = none := (finds _).trans rfl
  have found : t.find? ("a" ++ "::" ++ "b::c") =
      some (.immediate (Adapter.immediateHandler (outer.call "m"))) := (finds _).trans rfl
  have tokens : Command.tokens ⟨"b::c a x"⟩ = ["b::c", "a", "x"] := by decide +kernel
  refine ⟨n, t, _, scanned, unnamed, tokens ▸ resolve_scoped unnamed found, ?_⟩
  rintro ⟨o, ho, named, m, hm, tagged, called⟩
  rw [objects, List.mem_pair] at ho
  obtain rfl | rfl := ho
  · exact absurd named (by decide)
  · cases called with
    | immediate _ _ called => cases called

end CommandTable

end DialogueEngine
