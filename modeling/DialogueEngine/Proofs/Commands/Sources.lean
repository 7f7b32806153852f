import DialogueEngine.Proofs.Commands.Inquiries
import DialogueEngine.Proofs.Commands.Offers

/-! # Where the commands of an object come from

An object contributes its commands from one source, the first of three that does not fail.

* `CommandProvider.Exports`, `HostObject.Native` — a provider of the object's own.
* `HostObject.Answers`, `HostObject.Adapted` — an object that has the methods of a provider.
* `HostObject.Tagged` — methods that are marked as commands.
* `HostObject.Contributes` — the source of an object, and what it gives.
* `HostObject.Contributes.unique` — there is only one.
* `HostObject.comes_offers` — what an object offers comes from its source.
-/

namespace DialogueEngine

variable {σ κ β : Type}

/-! ## Providers -/

/-- What comes of a provider: both maps, the handlers that are done at once before those that hold
    the dialogue, or nothing if one of the maps fails. -/
inductive CommandProvider.Exports (p : CommandProvider σ) :
    List (Inquiry σ) → Option (List (String × Handler σ)) → Prop
  | both {l l' : List (Inquiry σ)} {immediate : Dict String (ImmediateHandler σ)}
    {blocking : Dict String (BlockingHandler σ)} (first : p.immediate.Comes l (.ok immediate))
    (second : p.blocking.Comes l' (.ok blocking)) :
    Exports p (l ++ l') (some (immediate.entries.map (fun e => (e.1, .immediate e.2)) ++
      blocking.entries.map fun e => (e.1, .blocking e.2)))
  | immediateFails {l : List (Inquiry σ)} {e : CapabilityError}
    (first : p.immediate.Comes l (.error e)) : Exports p l none
  | blockingFails {l l' : List (Inquiry σ)} {immediate : Dict String (ImmediateHandler σ)}
    {e : CapabilityError} (first : p.immediate.Comes l (.ok immediate))
    (second : p.blocking.Comes l' (.error e)) : Exports p (l ++ l') none

theorem CommandProvider.exports_iff {p : CommandProvider σ} {l : List (Inquiry σ)}
    {hs? : Option (List (String × Handler σ))} :
    p.Exports l hs? ↔ (offers? (some p)).Comes l hs? := by
  constructor
  · intro exported
    cases exported with
    | @both l l' immediate blocking first second =>
      have offered : p.offers.Comes (l ++ l') (.ok _) := first.bind (second.bind_done rfl)
      exact offered.bind_done rfl
    | @immediateFails l e first =>
      have offered : p.offers.Comes l (.error e) := first.bind_done rfl
      exact offered.bind_done rfl
    | @blockingFails l l' immediate e first second =>
      have offered : p.offers.Comes (l ++ l') (.error e) := first.bind (second.bind_done rfl)
      exact offered.bind_done rfl
  · intro comes
    obtain ⟨l, r, l', offered, last, rfl⟩ := Act.comes_bind.mp comes
    obtain ⟨rfl, rfl⟩ := Act.comes_done.mp last
    rw [List.append_nil]
    obtain ⟨l₁, r', l₂, first, next, rfl⟩ := Act.comes_bind.mp offered
    cases r' with
    | error e =>
      obtain ⟨rfl, rfl⟩ := Act.comes_done.mp next
      rw [List.append_nil]
      exact .immediateFails first
    | ok immediate =>
      obtain ⟨l₂, r', l₃, second, last, rfl⟩ := Act.comes_bind.mp next
      cases r' with
      | error e =>
        obtain ⟨rfl, rfl⟩ := Act.comes_done.mp last
        rw [List.append_nil]
        exact .blockingFails first second
      | ok blocking =>
        obtain ⟨rfl, rfl⟩ := Act.comes_done.mp last
        rw [List.append_nil]
        exact .both first second

/-! ## Objects that provide commands -/

namespace HostObject

/-- What an object provides itself. -/
inductive Native (o : HostObject σ κ) :
    List (Inquiry σ) → Option (List (String × Handler σ)) → Prop
  | absent (unprovided : o.provider = none) : Native o [] none
  | provider {p : CommandProvider σ} {l : List (Inquiry σ)}
    {hs? : Option (List (String × Handler σ))} (provided : o.provider = some p)
    (exports : p.Exports l hs?) : Native o l hs?

theorem native_iff {o : HostObject σ κ} {l : List (Inquiry σ)}
    {hs? : Option (List (String × Handler σ))} :
    o.Native l hs? ↔ (CommandProvider.offers? o.provider).Comes l hs? := by
  constructor
  · intro native
    cases native with
    | absent unprovided =>
      rw [unprovided]
      exact .done none
    | provider provided exports =>
      rw [provided]
      exact CommandProvider.exports_iff.mp exports
  · intro comes
    cases provided : o.provider with
    | none =>
      rw [provided] at comes
      obtain ⟨rfl, rfl⟩ := Act.comes_done.mp comes
      exact .absent provided
    | some p =>
      rw [provided] at comes
      exact .provider provided (CommandProvider.exports_iff.mpr comes)

/-- A dictionary of callables. -/
def callableDict (fs : List (String × Callable κ)) : HostValue κ :=
  .dictionary (fs.map fun e => (e.1, .callable e.2))

/-- What comes of a method that is called without arguments: its answer, if this is a dictionary
    of callables. -/
inductive Answers (o : HostObject σ κ) (method : String) :
    List (Inquiry σ) → Option (Dict String (Callable κ)) → Prop
  | callables {l : List (Inquiry σ)} (fs : List (String × Callable κ))
    (called : (o.call method []).Comes l (.ok (callableDict fs))) :
    Answers o method l (some (Dict.ofList fs))
  | other {l : List (Inquiry σ)} {r : Except HostError (HostValue κ)}
    (called : (o.call method []).Comes l r) (different : ∀ fs, r ≠ .ok (callableDict fs)) :
    Answers o method l none

/-- Callables as handlers that are done at once. -/
def immediates (calls : HostCalls σ κ) (fs : Dict String (Callable κ)) :
    List (String × Handler σ) :=
  fs.entries.map fun e =>
    (e.1, .immediate (Adapter.immediateHandler fun args => e.2.call calls args))

/-- Callables as handlers that hold the dialogue. -/
def blockings (calls : HostCalls σ κ) (fs : Dict String (Callable κ)) :
    List (String × Handler σ) :=
  fs.entries.map fun e =>
    (e.1, .blocking (Adapter.blockingHandler fun args => e.2.call calls args))

/-- What an object provides through its methods. Only the first of the two is needed. -/
inductive Adapted (calls : HostCalls σ κ) (o : HostObject σ κ) :
    List (Inquiry σ) → Option (List (String × Handler σ)) → Prop
  | lacks (lacking : o.hasMethod "command_handlers" = false) : Adapted calls o [] none
  | fails {l : List (Inquiry σ)} (has : o.hasMethod "command_handlers" = true)
    (first : o.Answers "command_handlers" l none) : Adapted calls o l none
  | one {l : List (Inquiry σ)} {fs : Dict String (Callable κ)}
    (has : o.hasMethod "command_handlers" = true)
    (first : o.Answers "command_handlers" l (some fs))
    (lacking : o.hasMethod "blocking_command_handlers" = false) :
    Adapted calls o l (some (immediates calls fs))
  | secondFails {l l' : List (Inquiry σ)} {fs : Dict String (Callable κ)}
    (has : o.hasMethod "command_handlers" = true)
    (first : o.Answers "command_handlers" l (some fs))
    (has' : o.hasMethod "blocking_command_handlers" = true)
    (second : o.Answers "blocking_command_handlers" l' none) : Adapted calls o (l ++ l') none
  | both {l l' : List (Inquiry σ)} {fs gs : Dict String (Callable κ)}
    (has : o.hasMethod "command_handlers" = true)
    (first : o.Answers "command_handlers" l (some fs))
    (has' : o.hasMethod "blocking_command_handlers" = true)
    (second : o.Answers "blocking_command_handlers" l' (some gs)) :
    Adapted calls o (l ++ l') (some (immediates calls fs ++ blockings calls gs))

/-- Bindings are taken as callables if they are bindings of callables. -/
theorem callableEntries_eq_ok {a : Adapter .commandProvider σ κ} {method : String}
    {entries : List (String × HostValue κ)} {fs : List (String × Callable κ)} :
    a.callableEntries method entries = .ok fs ↔
      entries = fs.map fun e => (e.1, .callable e.2) := by
  induction entries generalizing fs with
  | nil => cases fs <;> simp [Adapter.callableEntries]
  | cons e entries ih =>
    obtain ⟨name, v⟩ := e
    cases v with
    | callable f =>
      change (a.callableEntries method entries).map ((name, f) :: ·) = .ok fs ↔ _
      cases fs with
      | nil => cases a.callableEntries method entries <;> simp [Except.map]
      | cons e fs =>
        have heads : (name, f) = e ↔
            (name, HostValue.callable f) = (e.1, HostValue.callable e.2) := by
          simp [Prod.ext_iff]
        rw [List.map_cons, List.cons.injEq, ← heads, ← ih]
        cases a.callableEntries method entries <;> simp [Except.map]
    | _ => cases fs <;> simp [Adapter.callableEntries, HostValue.callable?]

/-- What the answer of a method is worth to a provider. -/
theorem callables_eq (a : Adapter .commandProvider σ κ) (method : String) :
    a.callables method = (a.object.call method []).bind fun
      | .error e => .done (.error (.invocation a.object.name method e.message))
      | .ok (.dictionary entries) => .done ((a.callableEntries method entries).map Dict.ofList)
      | .ok v => .done (.error (a.returnType method "dictionary" v)) := by
  change ((a.object.call method []).bind _).bind _ = _
  rw [Act.bind_assoc]
  refine Act.bind_congr _ fun r => ?_
  cases r with
  | error e => rfl
  | ok v => cases v <;> rfl

theorem answers_iff {a : Adapter .commandProvider σ κ} {method : String} {l : List (Inquiry σ)}
    {fs? : Option (Dict String (Callable κ))} :
    a.object.Answers method l fs? ↔ ∃ r, (a.callables method).Comes l r ∧ r.toOption = fs? := by
  rw [callables_eq]
  constructor
  · intro answers
    cases answers with
    | callables fs called =>
      have read : a.callableEntries method _ = .ok fs := callableEntries_eq_ok.mpr rfl
      refine ⟨.ok (Dict.ofList fs), called.bind_done ?_, rfl⟩
      simp only [callableDict, read, Except.map]
    | @other r called different =>
      cases r with
      | error e => exact ⟨_, called.bind_done rfl, rfl⟩
      | ok v =>
        cases v with
        | dictionary entries =>
          cases read : a.callableEntries method entries with
          | ok fs =>
            rw [callableEntries_eq_ok.mp read] at different
            exact absurd rfl (different fs)
          | error e =>
            refine ⟨.error e, called.bind_done ?_, rfl⟩
            simp only [read, Except.map]
        | _ => exact ⟨_, called.bind_done rfl, rfl⟩
  · rintro ⟨r', comes, rfl⟩
    obtain ⟨l, r, l', called, last, rfl⟩ := Act.comes_bind.mp comes
    cases r with
    | error e =>
      obtain ⟨rfl, rfl⟩ := Act.comes_done.mp last
      rw [List.append_nil]
      exact .other called nofun
    | ok v =>
      cases v with
      | dictionary entries =>
        obtain ⟨rfl, rfl⟩ := Act.comes_done.mp last
        rw [List.append_nil]
        cases read : a.callableEntries method entries with
        | ok fs =>
          rw [callableEntries_eq_ok.mp read] at called
          exact .callables fs called
        | error e =>
          refine .other called fun fs same => ?_
          cases same
          have whole : a.callableEntries method _ = .ok fs := callableEntries_eq_ok.mpr rfl
          rw [whole] at read
          cases read
      | _ =>
        obtain ⟨rfl, rfl⟩ := Act.comes_done.mp last
        rw [List.append_nil]
        exact .other called nofun

section Handlers

variable {a : Adapter .commandProvider σ κ} {method : String} {f : Callable κ → β}
  {l : List (Inquiry σ)}

/-- A map of handlers made of the callables that a method answers with. -/
def handlersFrom (a : Adapter .commandProvider σ κ) (method : String) (f : Callable κ → β) :
    Act σ (Except CapabilityError (Dict String β)) :=
  (a.callables method).bind fun r => .done (r.map (·.map f))

theorem handlersFrom_ok {d : Dict String β} : (handlersFrom a method f).Comes l (.ok d) ↔
    ∃ fs, a.object.Answers method l (some fs) ∧ d = fs.map f := by
  rw [handlersFrom, Act.comes_map]
  constructor
  · rintro ⟨r, called, made⟩
    cases r with
    | error e => cases made
    | ok fs =>
      cases made
      exact ⟨fs, answers_iff.mpr ⟨_, called, rfl⟩, rfl⟩
  · rintro ⟨fs, answers, rfl⟩
    obtain ⟨r, called, same⟩ := answers_iff.mp answers
    cases r with
    | error e => cases same
    | ok fs =>
      cases same
      exact ⟨_, called, rfl⟩

theorem handlersFrom_error : (∃ e, (handlersFrom a method f).Comes l (.error e)) ↔
    a.object.Answers method l none := by
  simp only [handlersFrom, Act.comes_map]
  constructor
  · rintro ⟨e, r, called, made⟩
    cases r with
    | error e => exact answers_iff.mpr ⟨_, called, rfl⟩
    | ok fs => cases made
  · intro answers
    obtain ⟨r, called, same⟩ := answers_iff.mp answers
    cases r with
    | error e => exact ⟨e, _, called, rfl⟩
    | ok fs => cases same

end Handlers

theorem missing?_commandProvider (o : HostObject σ κ) :
    Capability.commandProvider.missing? o =
      if o.hasMethod "command_handlers" then none else some "command_handlers" := by
  cases has : o.hasMethod "command_handlers" <;>
    simp [Capability.missing?, Capability.methods, has]

/-- An object that lacks the method cannot be made into a provider. -/
theorem adaptedProvider?_eq (calls : HostCalls σ κ) (o : HostObject σ κ) :
    (o.hasMethod "command_handlers" = false ∧ CommandTable.adaptedProvider? calls o = none) ∨
      (o.hasMethod "command_handlers" = true ∧ ∃ a : Adapter .commandProvider σ κ,
        a.object = o ∧ CommandTable.adaptedProvider? calls o = some (a.provider calls)) := by
  have missing := missing?_commandProvider o
  unfold CommandTable.adaptedProvider? Adapter.of
  cases has : o.hasMethod "command_handlers" with
  | false =>
    rw [has] at missing
    refine .inl ⟨rfl, ?_⟩
    split
    · rename_i made
      split at made
      · simp_all
      · cases made
    · rfl
  | true =>
    rw [has] at missing
    refine .inr ⟨rfl, ⟨o, missing⟩, rfl, ?_⟩
    split
    · rename_i made
      split at made
      · cases made
        rfl
      · cases made
    · rename_i made
      split at made
      · cases made
      · simp_all

theorem entries_immediates (calls : HostCalls σ κ) (fs : Dict String (Callable κ)) :
    ((fs.map fun f => Adapter.immediateHandler fun args => f.call calls args).entries.map
      fun e => (e.1, Handler.immediate e.2)) = immediates calls fs := by
  simp [Dict.map, immediates]

theorem entries_blockings (calls : HostCalls σ κ) (fs : Dict String (Callable κ)) :
    ((fs.map fun f => Adapter.blockingHandler fun args => f.call calls args).entries.map
      fun e => (e.1, Handler.blocking e.2)) = blockings calls fs := by
  simp [Dict.map, blockings]

section Provider

variable {calls : HostCalls σ κ} {a : Adapter .commandProvider σ κ} {l : List (Inquiry σ)}
  {hs? : Option (List (String × Handler σ))}

theorem provider_blocking (optional : a.object.hasMethod "blocking_command_handlers" = true) :
    (a.provider calls).blocking = handlersFrom a "blocking_command_handlers" fun f =>
      Adapter.blockingHandler fun args => f.call calls args := by
  rw [Adapter.provider, if_pos optional]
  rfl

/-- An object without the second method has no handlers that hold the dialogue. -/
theorem provider_blocking_lacking
    (lacking : a.object.hasMethod "blocking_command_handlers" = false) :
    (a.provider calls).blocking = .done (.ok Dict.empty) := by
  rw [Adapter.provider, if_neg (by simp [lacking])]
  rfl

theorem Adapted.exports (adapted : a.object.Adapted calls l hs?)
    (has : a.object.hasMethod "command_handlers" = true) : (a.provider calls).Exports l hs? := by
  cases adapted with
  | lacks lacking => simp [has] at lacking
  | fails _ first =>
    obtain ⟨e, failed⟩ := handlersFrom_error.mpr first
    exact .immediateFails failed
  | one _ first lacking =>
    have none : (a.provider calls).blocking.Comes [] (.ok Dict.empty) := by
      rw [provider_blocking_lacking lacking]
      exact .done _
    have exported := CommandProvider.Exports.both (p := a.provider calls)
      (handlersFrom_ok.mpr ⟨_, first, rfl⟩) none
    simpa [entries_immediates, Dict.empty] using exported
  | secondFails _ first optional second =>
    obtain ⟨e, failed⟩ := handlersFrom_error.mpr second
    exact .blockingFails (handlersFrom_ok.mpr ⟨_, first, rfl⟩)
      (provider_blocking optional ▸ failed)
  | both _ first optional second =>
    have exported := CommandProvider.Exports.both (p := a.provider calls)
      (handlersFrom_ok.mpr ⟨_, first, rfl⟩)
      (provider_blocking optional ▸ handlersFrom_ok.mpr ⟨_, second, rfl⟩)
    rwa [entries_immediates, entries_blockings] at exported

theorem Adapted.of_exports (exported : (a.provider calls).Exports l hs?)
    (has : a.object.hasMethod "command_handlers" = true) : a.object.Adapted calls l hs? := by
  cases optional : a.object.hasMethod "blocking_command_handlers" with
  | true =>
    cases exported with
    | both first second =>
      obtain ⟨fs, answered, rfl⟩ := handlersFrom_ok.mp first
      obtain ⟨gs, answered', rfl⟩ := handlersFrom_ok.mp (provider_blocking optional ▸ second)
      rw [entries_immediates, entries_blockings]
      exact .both has answered optional answered'
    | immediateFails first => exact .fails has (handlersFrom_error.mp ⟨_, first⟩)
    | blockingFails first second =>
      obtain ⟨fs, answered, rfl⟩ := handlersFrom_ok.mp first
      exact .secondFails has answered optional
        (handlersFrom_error.mp ⟨_, provider_blocking optional ▸ second⟩)
  | false =>
    cases exported with
    | both first second =>
      obtain ⟨fs, answered, rfl⟩ := handlersFrom_ok.mp first
      rw [provider_blocking_lacking optional] at second
      cases second
      simpa [entries_immediates, Dict.empty] using Adapted.one has answered optional
    | immediateFails first => exact .fails has (handlersFrom_error.mp ⟨_, first⟩)
    | blockingFails first second =>
      rw [provider_blocking_lacking optional] at second
      cases second

end Provider

theorem adapted_iff {calls : HostCalls σ κ} {o : HostObject σ κ} {l : List (Inquiry σ)}
    {hs? : Option (List (String × Handler σ))} :
    o.Adapted calls l hs? ↔
      (CommandProvider.offers? (CommandTable.adaptedProvider? calls o)).Comes l hs? := by
  obtain ⟨lacking, none⟩ | ⟨has, a, rfl, some⟩ := adaptedProvider?_eq calls o
  · rw [none, CommandProvider.offers?, Act.comes_done]
    constructor
    · intro adapted
      cases adapted with
      | lacks _ => exact ⟨rfl, rfl⟩
      | _ => simp_all
    · rintro ⟨rfl, rfl⟩
      exact .lacks lacking
  · rw [some, ← CommandProvider.exports_iff]
    exact ⟨fun adapted => adapted.exports has, fun exported => .of_exports exported has⟩

/-! ## Objects with marked methods -/

/-- A method that is no command, or does not have the signature of one. -/
def Unfit (m : MethodInfo) : Prop :=
  m.command = none ∨ m.returns ≠ .nil ∨ m.params ≠ [.array] ∧ m.params ≠ [.array, .callable]

/-- The methods that are marked as commands and have the signature of one, as handlers. -/
inductive Tagged (o : HostObject σ κ) : List MethodInfo → List (String × Handler σ) → Prop
  | nil : Tagged o [] []
  | immediate {m : MethodInfo} {ms : List MethodInfo} {hs : List (String × Handler σ)}
    {command : String} (tag : m.command = some command) (params : m.params = [.array])
    (returns : m.returns = .nil) (rest : Tagged o ms hs) :
    Tagged o (m :: ms) ((o.name ++ "::" ++ command,
      .immediate (Adapter.immediateHandler (o.call m.name))) :: hs)
  | blocking {m : MethodInfo} {ms : List MethodInfo} {hs : List (String × Handler σ)}
    {command : String} (tag : m.command = some command) (params : m.params = [.array, .callable])
    (returns : m.returns = .nil) (rest : Tagged o ms hs) :
    Tagged o (m :: ms) ((o.name ++ "::" ++ command,
      .blocking (Adapter.blockingHandler (o.call m.name))) :: hs)
  | other {m : MethodInfo} {ms : List MethodInfo} {hs : List (String × Handler σ)}
    (unfit : Unfit m) (rest : Tagged o ms hs) : Tagged o (m :: ms) hs

section Methods

variable {o : HostObject σ κ} {m : MethodInfo} {command : String}

theorem handler?_immediate (tag : m.command = some command) (params : m.params = [.array])
    (returns : m.returns = .nil) : MethodInfo.handler? o m =
      some (o.name ++ "::" ++ command, .immediate (Adapter.immediateHandler (o.call m.name))) := by
  simp [MethodInfo.handler?, tag, params, returns, CommandTable.scopedName]

theorem handler?_blocking (tag : m.command = some command)
    (params : m.params = [.array, .callable]) (returns : m.returns = .nil) :
    MethodInfo.handler? o m =
      some (o.name ++ "::" ++ command, .blocking (Adapter.blockingHandler (o.call m.name))) := by
  simp [MethodInfo.handler?, tag, params, returns, CommandTable.scopedName]

theorem handler?_unfit (unfit : Unfit m) : MethodInfo.handler? o m = none := by
  unfold MethodInfo.handler?
  split
  · rfl
  · split
    · simp_all [Unfit]
    · simp_all [Unfit]
    · rfl

end Methods

theorem tagged_iff {o : HostObject σ κ} {ms : List MethodInfo} {hs : List (String × Handler σ)} :
    o.Tagged ms hs ↔ hs = ms.filterMap (MethodInfo.handler? o) := by
  constructor
  · intro tagged
    induction tagged with
    | nil => rfl
    | immediate tag params returns _ ih =>
      rw [ih, List.filterMap_cons_some (handler?_immediate tag params returns)]
    | blocking tag params returns _ ih =>
      rw [ih, List.filterMap_cons_some (handler?_blocking tag params returns)]
    | other unfit _ ih => rw [ih, List.filterMap_cons_none (handler?_unfit unfit)]
  · rintro rfl
    induction ms with
    | nil => exact .nil
    | cons m ms ih =>
      by_cases unfit : Unfit m
      · rw [List.filterMap_cons_none (handler?_unfit unfit)]
        exact .other unfit ih
      · obtain ⟨tagged, returns, params⟩ : m.command ≠ none ∧ m.returns = .nil ∧
            (m.params ≠ [.array] → m.params = [.array, .callable]) := by
          simpa [Unfit] using unfit
        obtain ⟨command, tag⟩ := Option.ne_none_iff_exists'.mp tagged
        by_cases short : m.params = [.array]
        · rw [List.filterMap_cons_some (handler?_immediate tag short returns)]
          exact .immediate tag short returns ih
        · rw [List.filterMap_cons_some (handler?_blocking tag (params short) returns)]
          exact .blocking tag (params short) returns ih

/-! ## One source for each object -/

/-- Where the commands of an object come from. -/
inductive Source where
  /-- The object is a provider. -/
  | native
  /-- The object has the methods of a provider. -/
  | adapted
  /-- The object has methods that are marked as commands. -/
  | tagged
  deriving DecidableEq

/-- What an object contributes. A source is only used if those before it come to nothing. -/
inductive Contributes (calls : HostCalls σ κ) (o : HostObject σ κ) :
    Source → List (Inquiry σ) → List (String × Handler σ) → Prop
  | native {l : List (Inquiry σ)} {hs : List (String × Handler σ)}
    (own : o.Native l (some hs)) : Contributes calls o .native l hs
  | adapted {l l' : List (Inquiry σ)} {hs : List (String × Handler σ)}
    (own : o.Native l none) (made : o.Adapted calls l' (some hs)) :
    Contributes calls o .adapted (l ++ l') hs
  | tagged {l l' : List (Inquiry σ)} {hs : List (String × Handler σ)}
    (own : o.Native l none) (made : o.Adapted calls l' none) (marked : o.Tagged o.methods hs) :
    Contributes calls o .tagged (l ++ l') hs

/-- What an object offers, with its source. -/
def sourced (calls : HostCalls σ κ) (o : HostObject σ κ) :
    Act σ (Source × List (String × Handler σ)) :=
  (CommandProvider.offers? o.provider).bind fun
    | some hs => .done (.native, hs)
    | none => (CommandProvider.offers? (CommandTable.adaptedProvider? calls o)).bind fun
      | some hs => .done (.adapted, hs)
      | none => .done (.tagged, o.methods.filterMap (MethodInfo.handler? o))

theorem offers_eq_sourced (calls : HostCalls σ κ) (o : HostObject σ κ) :
    o.offers calls = (o.sourced calls).bind fun r => .done r.2 := by
  change (CommandProvider.offers? o.provider).bind _ = _
  rw [sourced, Act.bind_assoc]
  refine Act.bind_congr _ fun hs? => ?_
  cases hs? with
  | some hs => rfl
  | none =>
    change (CommandProvider.offers? _).bind _ = ((CommandProvider.offers? _).bind _).bind _
    rw [Act.bind_assoc]
    refine Act.bind_congr _ fun hs? => ?_
    cases hs? <;> rfl

theorem contributes_iff {calls : HostCalls σ κ} {o : HostObject σ κ} {source : Source}
    {l : List (Inquiry σ)} {hs : List (String × Handler σ)} :
    o.Contributes calls source l hs ↔ (o.sourced calls).Comes l (source, hs) := by
  constructor
  · intro contributes
    cases contributes with
    | native own => exact (native_iff.mp own).bind_done rfl
    | adapted own made => exact (native_iff.mp own).bind ((adapted_iff.mp made).bind_done rfl)
    | tagged own made marked =>
      rw [tagged_iff.mp marked]
      exact (native_iff.mp own).bind ((adapted_iff.mp made).bind_done rfl)
  · intro comes
    obtain ⟨l, hs?, l', own, next, rfl⟩ := Act.comes_bind.mp comes
    cases hs? with
    | some hs =>
      obtain ⟨rfl, same⟩ := Act.comes_done.mp next
      cases same
      rw [List.append_nil]
      exact .native (native_iff.mpr own)
    | none =>
      obtain ⟨l', hs?, l'', made, last, rfl⟩ := Act.comes_bind.mp next
      cases hs? with
      | some hs =>
        obtain ⟨rfl, same⟩ := Act.comes_done.mp last
        cases same
        rw [List.append_nil]
        exact .adapted (native_iff.mpr own) (adapted_iff.mpr made)
      | none =>
        obtain ⟨rfl, same⟩ := Act.comes_done.mp last
        cases same
        rw [List.append_nil]
        exact .tagged (native_iff.mpr own) (adapted_iff.mpr made) (tagged_iff.mpr rfl)

/-- An object contributes from one source. -/
theorem Contributes.unique {calls : HostCalls σ κ} {o : HostObject σ κ} {source source' : Source}
    {l : List (Inquiry σ)} {hs hs' : List (String × Handler σ)}
    (contributes : o.Contributes calls source l hs)
    (contributes' : o.Contributes calls source' l hs') : source' = source ∧ hs' = hs :=
  Prod.ext_iff.mp ((contributes_iff.mp contributes).unique (contributes_iff.mp contributes'))

theorem comes_offers {calls : HostCalls σ κ} {o : HostObject σ κ} {l : List (Inquiry σ)}
    {hs : List (String × Handler σ)} :
    (o.offers calls).Comes l hs ↔ ∃ source, o.Contributes calls source l hs := by
  rw [offers_eq_sourced, Act.comes_map]
  constructor
  · rintro ⟨r, found, rfl⟩
    exact ⟨r.1, contributes_iff.mpr found⟩
  · rintro ⟨source, contributes⟩
    exact ⟨_, contributes_iff.mp contributes, rfl⟩

end HostObject

end DialogueEngine
