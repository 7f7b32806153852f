import DialogueEngine.Proofs.Commands.History
import DialogueEngine.Proofs.Commands.Sources

/-! # A tree is searched from the top

The stack of a search comes to the objects of a tree in preorder.

* `HostObject.preorder` — the objects of a tree.
* `Visits` — objects that contribute one after the other.
* `HostObject.comes_treeOffers` — what a tree offers is contributed in preorder.
* `CommandTable.insertAll_eq_iff` — a table after many insertions.
* `CommandTable.scan_preorder` — a search.
-/

namespace DialogueEngine

variable {σ κ : Type}

namespace HostObject

mutual

/-- The objects of a tree, an object before its children and these from first to last. -/
def preorder : HostObject σ κ → List (HostObject σ κ)
  | ⟨name, hasMethod, call, methods, provider, children⟩ =>
    ⟨name, hasMethod, call, methods, provider, children⟩ :: preorders children

/-- The objects of several trees, from the first tree to the last. -/
def preorders : List (HostObject σ κ) → List (HostObject σ κ)
  | [] => []
  | o :: rest => o.preorder ++ preorders rest

end

theorem preorder_eq (o : HostObject σ κ) : o.preorder = o :: preorders o.children := by
  cases o
  rw [preorder]

end HostObject

/-- Objects are visited one after the other, and each contributes from one source. -/
inductive Visits (calls : HostCalls σ κ) :
    List (HostObject σ κ) → List (Inquiry σ) → List (String × Handler σ) → Prop
  | nil : Visits calls [] [] []
  | cons {o : HostObject σ κ} {os : List (HostObject σ κ)} {source : HostObject.Source}
    {l l' : List (Inquiry σ)} {hs hs' : List (String × Handler σ)}
    (here : o.Contributes calls source l hs) (others : Visits calls os l' hs') :
    Visits calls (o :: os) (l ++ l') (hs ++ hs')

namespace Visits

variable {calls : HostCalls σ κ} {o : HostObject σ κ} {os os' : List (HostObject σ κ)}
  {l l' : List (Inquiry σ)} {hs hs' : List (String × Handler σ)}

theorem append (first : Visits calls os l hs) (others : Visits calls os' l' hs') :
    Visits calls (os ++ os') (l ++ l') (hs ++ hs') := by
  induction first with
  | nil => exact others
  | cons here _ ih =>
    rw [List.cons_append, List.append_assoc, List.append_assoc]
    exact .cons here ih

theorem of_append (all : Visits calls (os ++ os') l hs) :
    ∃ l₁ hs₁ l₂ hs₂, Visits calls os l₁ hs₁ ∧ Visits calls os' l₂ hs₂ ∧
      l = l₁ ++ l₂ ∧ hs = hs₁ ++ hs₂ := by
  induction os generalizing l hs with
  | nil => exact ⟨[], [], l, hs, .nil, all, rfl, rfl⟩
  | cons o os ih =>
    cases all with
    | cons here others =>
      obtain ⟨l₁, hs₁, l₂, hs₂, first, second, rfl, rfl⟩ := ih others
      exact ⟨_, _, l₂, hs₂, .cons here first, second, (List.append_assoc ..).symm,
        (List.append_assoc ..).symm⟩

end Visits

namespace HostObject

variable {calls : HostCalls σ κ}

mutual

/-- The objects of a tree are visited in preorder. -/
theorem comes_treeOffers : (o : HostObject σ κ) → {l : List (Inquiry σ)} →
    {hs : List (String × Handler σ)} →
    ((o.treeOffers calls).Comes l hs ↔ Visits calls o.preorder l hs)
  | ⟨name, hasMethod, call, methods, provider, children⟩, l, hs => by
    rw [treeOffers_eq, preorder_eq]
    constructor
    · intro comes
      obtain ⟨l₁, hs₁, l₂, here, next, rfl⟩ := Act.comes_bind.mp comes
      obtain ⟨hs₂, below, rfl⟩ := Act.comes_map.mp next
      obtain ⟨source, contributes⟩ := comes_offers.mp here
      exact .cons contributes ((comes_forestOffers children).mp below)
    · intro visits
      cases visits with
      | cons here others =>
        exact (comes_offers.mpr ⟨_, here⟩).bind
          (((comes_forestOffers children).mpr others).bind_done rfl)

/-- The objects of several trees are visited from the first tree to the last. -/
theorem comes_forestOffers : (os : List (HostObject σ κ)) → {l : List (Inquiry σ)} →
    {hs : List (String × Handler σ)} →
    ((forestOffers calls os).Comes l hs ↔ Visits calls (preorders os) l hs)
  | [], l, hs => by
    rw [forestOffers_nil, preorders, Act.comes_done]
    constructor
    · rintro ⟨rfl, rfl⟩
      exact .nil
    · intro visits
      cases visits
      exact ⟨rfl, rfl⟩
  | o :: os, l, hs => by
    rw [forestOffers_cons, preorders]
    constructor
    · intro comes
      obtain ⟨l₁, hs₁, l₂, first, next, rfl⟩ := Act.comes_bind.mp comes
      obtain ⟨hs₂, others, rfl⟩ := Act.comes_map.mp next
      exact .append ((comes_treeOffers o).mp first) ((comes_forestOffers os).mp others)
    · intro visits
      obtain ⟨l₁, hs₁, l₂, hs₂, first, others, rfl, rfl⟩ := visits.of_append
      exact ((comes_treeOffers o).mpr first).bind
        (((comes_forestOffers os).mpr others).bind_done rfl)

end

end HostObject

/-! ## A search -/

namespace CommandTable

/-- Of many handlers that are inserted a name has the first, unless it is taken. -/
theorem find?_insertAll (t : CommandTable σ) (hs : List (String × Handler σ)) (name : String) :
    (t.insertAll hs).2.find? name = (t.find? name).or (hs.lookup name) := by
  induction hs generalizing t with
  | nil => exact Option.or_none.symm
  | cons e hs ih =>
    obtain ⟨other, h⟩ := e
    rw [insertAll_cons, ih, find?_insert, List.lookup_cons]
    by_cases same : other = name
    · rw [if_pos same, same, beq_self_eq_true, Option.or_assoc, Option.some_or]
    · rw [if_neg same, beq_false_of_ne (Ne.symm same)]

/-- The table and the count after many insertions are known by what the table finds. -/
theorem insertAll_eq_iff {t t' : CommandTable σ} {hs : List (String × Handler σ)} {n : Nat} :
    t.insertAll hs = (n, t') ↔
      (∀ name, t'.find? name = (t.find? name).or (hs.lookup name)) ∧ t'.size = t.size + n := by
  have found := t.find?_insertAll hs
  have counted := t.size_insertAll hs
  constructor
  · intro inserted
    rw [inserted] at found counted
    exact ⟨found, counted⟩
  · rintro ⟨finds, size⟩
    have table : (t.insertAll hs).2 = t' :=
      congrArg mk (Dict.ext_find? fun name => (found name).trans (finds name).symm)
    rw [table] at counted
    have count : (t.insertAll hs).1 = n := by omega
    rw [← table, ← count]

/-- A search of a tree. It ends. It visits the objects of the tree in preorder, each of which
    contributes from one source, and inserts what they contribute in this order: a name that is
    free has the first handler, and these are counted. -/
theorem scan_preorder (calls : HostCalls σ κ) (t : CommandTable σ) (root : HostObject σ κ) :
    (∀ host, ∃ l, (t.scan calls root).Comes l ((t.scan calls root).detached host).1) ∧
      (∀ l n t', (t.scan calls root).Comes l (n, t') ↔
        ∃ hs, Visits calls root.preorder l hs ∧
          (∀ name, t'.find? name = (t.find? name).or (hs.lookup name)) ∧
          t'.size = t.size + n) ∧
      ∀ (o : HostObject σ κ) (source source' : HostObject.Source) (l : List (Inquiry σ))
        (hs hs' : List (String × Handler σ)), o.Contributes calls source l hs →
        o.Contributes calls source' l hs' → source' = source ∧ hs' = hs := by
  refine ⟨fun host => Act.comes_detached _ host, fun l n t' => ?_,
    fun o source source' l hs hs' contributes => contributes.unique⟩
  rw [scan_eq, Act.comes_map]
  constructor
  · rintro ⟨hs, found, same⟩
    exact ⟨hs, (HostObject.comes_treeOffers root).mp found, insertAll_eq_iff.mp same.symm⟩
  · rintro ⟨hs, visits, inserted⟩
    exact ⟨hs, (HostObject.comes_treeOffers root).mpr visits, (insertAll_eq_iff.mpr inserted).symm⟩

/-- A door whose own provider fails, so that its marked method counts, above a lamp that offers a
    handler of the same name. -/
theorem scan_preorder_door :
    let calls : HostCalls Unit Unit := fun _ _ => .done (.ok .nil)
    let body : String → MethodBody Unit Unit := fun _ _ => .done (.ok .nil)
    let run : ImmediateHandler Unit := fun _ => .done ()
    let failing : CommandProvider Unit :=
      ⟨.done (.ok (Dict.ofList [("close", run)])), .done (.error (.invocation "door" "hold" ""))⟩
    let lights : CommandProvider Unit :=
      ⟨.done (.ok (Dict.ofList [("door::open", run), ("light", run)])), .done (.ok Dict.empty)⟩
    let lamp : HostObject Unit Unit := ⟨"lamp", fun _ => false, body, [], some lights, []⟩
    let door : HostObject Unit Unit := ⟨"door", fun _ => false, body,
      [⟨"open", [.array, .callable], .nil, some "open"⟩], some failing, [lamp]⟩
    let holds (t : CommandTable Unit) (name : String) := (t.find? name).map Handler.isBlocking
    ∃ t, (empty.scan calls door).Comes [] (2, t) ∧ holds t "door::open" = some true ∧
      holds t "light" = some false ∧ holds t "close" = none := by
  intro calls body run failing lights lamp door holds
  have above : door.Contributes calls .tagged ([] ++ [] ++ []) _ :=
    .tagged (.provider rfl (.blockingFails (.done _) (.done _))) (.lacks rfl)
      (.blocking rfl rfl rfl .nil)
  have below : lamp.Contributes calls .native ([] ++ []) _ :=
    .native (.provider rfl (.both (.done _) (.done _)))
  have visits : Visits calls door.preorder _ _ := .cons above (.cons below .nil)
  refine ⟨_, ((scan_preorder calls empty door).2.1 [] 2 _).mpr
    ⟨_, visits, find?_insertAll (empty : CommandTable Unit) _, by decide +kernel⟩, ?_⟩
  exact ⟨by decide +kernel, by decide +kernel, by decide +kernel⟩

end CommandTable

end DialogueEngine
