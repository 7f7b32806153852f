import DialogueEngine.Act

/-! # Host code with its answers

What host code asks for while it runs, with the answers, decides what it comes to.

* `Inquiry` — a request and its answer.
* `Act.Comes` — host code comes to a result.
* `Act.comes_bind` — code that goes on with a result makes its requests in two parts.
* `Act.Comes.unique` — the answers decide the result.
* `Act.comes_detached` — without a dialogue there always is a result.
-/

namespace DialogueEngine

variable {σ α β : Type}

/-- A request of host code, with the answer. -/
inductive Inquiry (σ : Type) where
  | read (s : σ)
  | write (s : σ)
  | resume (c : Continuation) (r : Except EngineError Unit)
  | resumeAfter (c : Continuation) (d : Duration) (r : Except EngineError Unit)
  | select (s : Selector) (id : Nat) (r : Except EngineError Unit)
  | isStale (c : Continuation) (stale : Bool)

namespace Act

/-- Host code comes to a result, with the requests that it makes on the way. -/
inductive Comes : Act σ α → List (Inquiry σ) → α → Prop
  | done (a : α) : Comes (.done a) [] a
  | read {k : σ → Act σ α} {l : List (Inquiry σ)} {a : α} (s : σ) (rest : (k s).Comes l a) :
    Comes (.read k) (.read s :: l) a
  | write {k : Act σ α} {l : List (Inquiry σ)} {a : α} (s : σ) (rest : k.Comes l a) :
    Comes (.write s k) (.write s :: l) a
  | resume {k : Except EngineError Unit → Act σ α} {l : List (Inquiry σ)} {a : α}
    (c : Continuation) (r : Except EngineError Unit) (rest : (k r).Comes l a) :
    Comes (.resume c k) (.resume c r :: l) a
  | resumeAfter {k : Except EngineError Unit → Act σ α} {l : List (Inquiry σ)} {a : α}
    (c : Continuation) (d : Duration) (r : Except EngineError Unit) (rest : (k r).Comes l a) :
    Comes (.resumeAfter c d k) (.resumeAfter c d r :: l) a
  | select {k : Except EngineError Unit → Act σ α} {l : List (Inquiry σ)} {a : α}
    (s : Selector) (id : Nat) (r : Except EngineError Unit) (rest : (k r).Comes l a) :
    Comes (.select s id k) (.select s id r :: l) a
  | isStale {k : Bool → Act σ α} {l : List (Inquiry σ)} {a : α} (c : Continuation)
    (stale : Bool) (rest : (k stale).Comes l a) : Comes (.isStale c k) (.isStale c stale :: l) a

@[simp] theorem comes_done {a b : α} {l : List (Inquiry σ)} :
    (Act.done a).Comes l b ↔ l = [] ∧ b = a := by
  constructor
  · intro comes
    cases comes
    exact ⟨rfl, rfl⟩
  · rintro ⟨rfl, rfl⟩
    exact .done b

theorem Comes.bind {x : Act σ α} {f : α → Act σ β} {l l' : List (Inquiry σ)} {a : α} {b : β}
    (first : x.Comes l a) (next : (f a).Comes l' b) : (x.bind f).Comes (l ++ l') b := by
  induction first with
  | done a => exact next
  | read s _ ih => exact .read s (ih next)
  | write s _ ih => exact .write s (ih next)
  | resume c r _ ih => exact .resume c r (ih next)
  | resumeAfter c d r _ ih => exact .resumeAfter c d r (ih next)
  | select s id r _ ih => exact .select s id r (ih next)
  | isStale c stale _ ih => exact .isStale c stale (ih next)

theorem Comes.bind_done {x : Act σ α} {f : α → Act σ β} {l : List (Inquiry σ)} {a : α} {b : β}
    (first : x.Comes l a) (last : f a = .done b) : (x.bind f).Comes l b := by
  have nothing : (f a).Comes [] b := last ▸ .done b
  have comes := first.bind nothing
  rwa [List.append_nil] at comes

/-- Host code that goes on with a result makes its requests in two parts. -/
theorem comes_bind {x : Act σ α} {f : α → Act σ β} {l : List (Inquiry σ)} {b : β} :
    (x.bind f).Comes l b ↔
      ∃ l₁ a l₂, x.Comes l₁ a ∧ (f a).Comes l₂ b ∧ l = l₁ ++ l₂ := by
  constructor
  · intro comes
    induction x generalizing l with
    | done a => exact ⟨[], a, l, .done a, comes, rfl⟩
    | write s k ih =>
      cases comes with
      | write _ rest =>
        obtain ⟨l₁, a, l₂, first, next, rfl⟩ := ih rest
        exact ⟨_, a, l₂, .write s first, next, rfl⟩
    | read k ih =>
      cases comes with
      | read s rest =>
        obtain ⟨l₁, a, l₂, first, next, rfl⟩ := ih s rest
        exact ⟨_, a, l₂, .read s first, next, rfl⟩
    | resume c k ih =>
      cases comes with
      | resume _ r rest =>
        obtain ⟨l₁, a, l₂, first, next, rfl⟩ := ih r rest
        exact ⟨_, a, l₂, .resume c r first, next, rfl⟩
    | resumeAfter c d k ih =>
      cases comes with
      | resumeAfter _ _ r rest =>
        obtain ⟨l₁, a, l₂, first, next, rfl⟩ := ih r rest
        exact ⟨_, a, l₂, .resumeAfter c d r first, next, rfl⟩
    | select s id k ih =>
      cases comes with
      | select _ _ r rest =>
        obtain ⟨l₁, a, l₂, first, next, rfl⟩ := ih r rest
        exact ⟨_, a, l₂, .select s id r first, next, rfl⟩
    | isStale c k ih =>
      cases comes with
      | isStale _ stale rest =>
        obtain ⟨l₁, a, l₂, first, next, rfl⟩ := ih stale rest
        exact ⟨_, a, l₂, .isStale c stale first, next, rfl⟩
  · rintro ⟨l₁, a, l₂, first, next, rfl⟩
    exact first.bind next

/-- A result that is only changed needs no further request. -/
theorem comes_map {x : Act σ α} {f : α → β} {l : List (Inquiry σ)} {b : β} :
    (x.bind fun a => .done (f a)).Comes l b ↔ ∃ a, x.Comes l a ∧ b = f a := by
  constructor
  · intro comes
    obtain ⟨l₁, a, l₂, first, last, rfl⟩ := comes_bind.mp comes
    obtain ⟨rfl, rfl⟩ := comes_done.mp last
    exact ⟨a, (List.append_nil l₁).symm ▸ first, rfl⟩
  · rintro ⟨a, first, rfl⟩
    exact first.bind_done rfl

/-- Host code that is answered in one way comes to one result. -/
theorem Comes.unique {x : Act σ α} {l : List (Inquiry σ)} {a b : α} (first : x.Comes l a)
    (second : x.Comes l b) : b = a := by
  induction first with
  | done a => exact (comes_done.mp second).2
  | read s _ ih | write s _ ih | resume c r _ ih | resumeAfter c d r _ ih | select s id r _ ih
  | isStale c stale _ ih =>
    cases second with
    | _ => exact ih ‹_›

/-- Without a dialogue host code comes to its result. -/
theorem comes_detached (x : Act σ α) (s : σ) : ∃ l, x.Comes l (x.detached s).1 := by
  induction x generalizing s with
  | done a => exact ⟨[], .done a⟩
  | read k ih =>
    obtain ⟨l, comes⟩ := ih s s
    exact ⟨_, .read s comes⟩
  | write s' k ih =>
    obtain ⟨l, comes⟩ := ih s'
    exact ⟨_, .write s' comes⟩
  | resume c k ih =>
    obtain ⟨l, comes⟩ := ih (.ok ()) s
    exact ⟨_, .resume c (.ok ()) comes⟩
  | resumeAfter c d k ih =>
    obtain ⟨l, comes⟩ := ih (.ok ()) s
    exact ⟨_, .resumeAfter c d (.ok ()) comes⟩
  | select c id k ih =>
    obtain ⟨l, comes⟩ := ih (.ok ()) s
    exact ⟨_, .select c id (.ok ()) comes⟩
  | isStale c k ih =>
    obtain ⟨l, comes⟩ := ih true s
    exact ⟨_, .isStale c true comes⟩

end Act

end DialogueEngine
