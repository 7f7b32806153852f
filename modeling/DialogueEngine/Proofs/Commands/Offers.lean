import DialogueEngine.Commands.Scan

/-! # Handlers on offer

What a provider, an object or a tree of objects offers does not depend on the table that it is
offered to. The host code is run for it once, and then the handlers are inserted one after the
other.

* `CommandTable.insertAll_cons`, `CommandTable.insertAll_append` — many handlers, in two steps.
* `CommandProvider.offers`, `CommandTable.importAll_eq` — all that a provider exports.
* `HostObject.offers`, `CommandTable.scanObject_eq` — what an object offers, in one way only.
* `HostObject.treeOffers`, `CommandTable.scan_eq` — what a tree offers, an object before its
  children.
-/

namespace DialogueEngine

variable {σ κ α β γ : Type}

/-- Code goes on in the same way if it does so for every result. -/
theorem Act.bind_congr {f g : α → Act σ β} (x : Act σ α) (same : ∀ a, f a = g a) :
    x.bind f = x.bind g :=
  congrArg x.bind (funext same)

/-! ## Many handlers -/

namespace CommandTable

variable {t : CommandTable σ} {name : String} {h : Handler σ}

/-- Inserts a handler and counts it if its name was free. -/
def insertNext (r : Nat × CommandTable σ) (e : String × Handler σ) : Nat × CommandTable σ :=
  (r.1 + (r.2.insert e.1 e.2).1.toNat, (r.2.insert e.1 e.2).2)

theorem insertAll_eq_foldl (t : CommandTable σ) (hs : List (String × Handler σ)) :
    t.insertAll hs = hs.foldl insertNext (0, t) := by
  unfold insertAll
  congr 1
  funext r e
  change (if (r.2.insert e.1 e.2).1 then r.1 + 1 else r.1, (r.2.insert e.1 e.2).2) = insertNext r e
  unfold insertNext
  cases (r.2.insert e.1 e.2).1 <;> rfl

/-- The count that the loop begins with is only added to. -/
theorem foldl_insertNext (hs : List (String × Handler σ)) (n : Nat) (t : CommandTable σ) :
    hs.foldl insertNext (n, t) = (n + (t.insertAll hs).1, (t.insertAll hs).2) := by
  induction hs generalizing n t with
  | nil => rfl
  | cons e hs ih =>
    rw [insertAll_eq_foldl, List.foldl_cons, List.foldl_cons]
    simp only [insertNext, ih, Nat.zero_add, Nat.add_assoc]

theorem insertAll_cons (t : CommandTable σ) (name : String) (h : Handler σ)
    (hs : List (String × Handler σ)) :
    t.insertAll ((name, h) :: hs) =
      ((t.insert name h).1.toNat + ((t.insert name h).2.insertAll hs).1,
        ((t.insert name h).2.insertAll hs).2) := by
  rw [insertAll_eq_foldl, List.foldl_cons, insertNext, foldl_insertNext, Nat.zero_add]

theorem insertAll_append (t : CommandTable σ) (hs hs' : List (String × Handler σ)) :
    t.insertAll (hs ++ hs') =
      ((t.insertAll hs).1 + ((t.insertAll hs).2.insertAll hs').1,
        ((t.insertAll hs).2.insertAll hs').2) := by
  induction hs generalizing t with
  | nil => simp [insertAll]
  | cons e hs ih =>
    obtain ⟨name, h⟩ := e
    simp only [List.cons_append, insertAll_cons, ih, Nat.add_assoc]

end CommandTable

/-! ## Providers -/

namespace CommandProvider

/-- What a provider exports: first the handlers that are done at once, then those that hold the
    dialogue. -/
def offers (p : CommandProvider σ) :
    Act σ (Except CapabilityError (List (String × Handler σ))) := do
  match ← p.immediate with
  | .error e => return .error e
  | .ok immediate =>
    match ← p.blocking with
    | .error e => return .error e
    | .ok blocking =>
      return .ok (immediate.entries.map (fun e => (e.1, .immediate e.2)) ++
        blocking.entries.map fun e => (e.1, .blocking e.2))

/-- What a provider exports, if there is one and it does not fail. -/
def offers? : Option (CommandProvider σ) → Act σ (Option (List (String × Handler σ)))
  | none => .done none
  | some p => p.offers.bind fun r => .done r.toOption

end CommandProvider

namespace CommandTable

/-- A provider is imported by inserting what it exports, if it does not fail. -/
theorem importAll_eq (t : CommandTable σ) (p : CommandProvider σ) :
    t.importAll p = p.offers.bind fun
      | .error e => .done (.error e, t)
      | .ok hs => .done (.ok (t.insertAll hs).1, (t.insertAll hs).2) := by
  change _ = (p.immediate.bind _).bind _
  rw [Act.bind_assoc]
  refine Act.bind_congr p.immediate fun r => ?_
  cases r with
  | error e => rfl
  | ok immediate =>
    change _ = (p.blocking.bind _).bind _
    rw [Act.bind_assoc]
    refine Act.bind_congr p.blocking fun r => ?_
    cases r with
    | error e => rfl
    | ok blocking =>
      have both := t.insertAll_append (immediate.entries.map fun e => (e.1, .immediate e.2))
        (blocking.entries.map fun e => (e.1, .blocking e.2))
      exact congrArg (fun r => Act.done (Except.ok r.1, r.2)) both.symm

theorem tryImport_eq (t : CommandTable σ) (p : Option (CommandProvider σ)) :
    t.tryImport p = (CommandProvider.offers? p).bind fun hs? =>
      .done (hs?.map t.insertAll) := by
  cases p with
  | none => rfl
  | some p =>
    change (t.importAll p).bind _ = (p.offers.bind _).bind _
    rw [importAll_eq, Act.bind_assoc, Act.bind_assoc]
    refine Act.bind_congr p.offers fun r => ?_
    cases r <;> rfl

end CommandTable

/-! ## Objects -/

namespace HostObject

variable (calls : HostCalls σ κ)

/-- What an object offers: what it exports itself as a provider; if this fails, what it exports if
    it is made into a provider; if this fails, its methods that are marked as commands. -/
def offers (o : HostObject σ κ) : Act σ (List (String × Handler σ)) := do
  match ← CommandProvider.offers? o.provider with
  | some hs => return hs
  | none =>
    match ← CommandProvider.offers? (CommandTable.adaptedProvider? calls o) with
    | some hs => return hs
    | none => return o.methods.filterMap (MethodInfo.handler? o)

mutual

/-- What the objects of a tree offer, an object before its children. -/
def treeOffers : HostObject σ κ → Act σ (List (String × Handler σ))
  | ⟨name, hasMethod, call, methods, provider, children⟩ => do
    let hs ← HostObject.offers calls ⟨name, hasMethod, call, methods, provider, children⟩
    let below ← forestOffers children
    return hs ++ below

/-- What the objects of several trees offer, from the first tree to the last. -/
def forestOffers : List (HostObject σ κ) → Act σ (List (String × Handler σ))
  | [] => return []
  | o :: rest => do
    let hs ← treeOffers o
    let others ← forestOffers rest
    return hs ++ others

end

theorem treeOffers_eq (o : HostObject σ κ) :
    o.treeOffers calls = (o.offers calls).bind fun hs =>
      (forestOffers calls o.children).bind fun below => .done (hs ++ below) := by
  cases o
  rw [treeOffers]
  rfl

theorem forestOffers_nil : forestOffers calls [] = .done [] := by
  rw [forestOffers]
  rfl

theorem forestOffers_cons (o : HostObject σ κ) (rest : List (HostObject σ κ)) :
    forestOffers calls (o :: rest) = (o.treeOffers calls).bind fun hs =>
      (forestOffers calls rest).bind fun others => .done (hs ++ others) := by
  rw [forestOffers]
  rfl

theorem forestOffers_append (os rest : List (HostObject σ κ)) :
    forestOffers calls (os ++ rest) = (forestOffers calls os).bind fun hs =>
      (forestOffers calls rest).bind fun others => .done (hs ++ others) := by
  induction os with
  | nil =>
    rw [forestOffers_nil]
    exact (Act.bind_done _).symm
  | cons o os ih =>
    simp only [List.cons_append, forestOffers_cons, ih, Act.bind_assoc, Act.bind,
      List.append_assoc]

end HostObject

namespace CommandTable

/-- The commands of an object are inserted as it offers them. -/
theorem scanObject_eq (calls : HostCalls σ κ) (t : CommandTable σ) (o : HostObject σ κ) :
    t.scanObject calls o = (o.offers calls).bind fun hs => .done (t.insertAll hs) := by
  change (t.tryImport o.provider).bind _ = ((CommandProvider.offers? o.provider).bind _).bind _
  rw [tryImport_eq, Act.bind_assoc, Act.bind_assoc]
  refine Act.bind_congr _ fun hs? => ?_
  cases hs? with
  | some hs => rfl
  | none =>
    change (t.tryImport _).bind _ = ((CommandProvider.offers? _).bind _).bind _
    rw [tryImport_eq, Act.bind_assoc, Act.bind_assoc]
    refine Act.bind_congr _ fun hs? => ?_
    cases hs? <;> rfl

/-- What is on the stack is inserted from the top, each tree as a whole. -/
theorem scanStack_eq (calls : HostCalls σ κ) (t : CommandTable σ) (stack : List (HostObject σ κ)) :
    t.scanStack calls stack =
      (HostObject.forestOffers calls stack).bind fun hs => .done (t.insertAll hs) := by
  induction t, stack using scanStack.induct with
  | case1 t =>
    rw [scanStack, HostObject.forestOffers_nil]
    rfl
  | case2 t o rest ih =>
    rw [scanStack, scanObject_eq, Act.bind_assoc, HostObject.forestOffers_cons,
      HostObject.treeOffers_eq]
    simp only [Act.bind_assoc, Act.bind]
    refine Act.bind_congr _ fun hs => ?_
    simp only [ih (t.insertAll hs), HostObject.forestOffers_append, Act.bind_assoc, Act.bind,
      insertAll_append, Nat.add_assoc]

/-- The commands of a tree are inserted as its objects offer them, an object before its children. -/
theorem scan_eq (calls : HostCalls σ κ) (t : CommandTable σ) (root : HostObject σ κ) :
    t.scan calls root = (root.treeOffers calls).bind fun hs => .done (t.insertAll hs) := by
  rw [scan, scanStack_eq, HostObject.forestOffers_cons, Act.bind_assoc]
  refine Act.bind_congr _ fun hs => ?_
  rw [HostObject.forestOffers_nil]
  simp only [Act.bind, List.append_nil]

end CommandTable

end DialogueEngine
