import DialogueEngine.Proofs.Session.Coherence

/-! # Handles work once

The number of a suspension is never used again, so the handles that are given out in the course of
a session have increasing numbers, and one that has become void stays void.

* `Coordinator.Later` — what can have become of a suspension.
* `handed` — the handles given out.
* `Course.handed_increasing`, `Course.later` — what every course of moves keeps.
* `Move.ended` — what ends a suspension, by whatever way.
* `Session.handles_effective_once` — at most one handle is live, a void one stays void and does
  nothing, wherever it is used.
-/

namespace DialogueEngine

variable {σ α : Type}

namespace Coordinator

/-- From one coordinator to a later one the number of the suspension only grows, and as long as it
    is the same so is the suspension. -/
structure Later (c c' : Coordinator σ) : Prop where
  generation : c.generation ≤ c'.generation
  suspension : c'.generation = c.generation → c'.suspension = c.suspension

namespace Later

variable {c c' c'' : Coordinator σ}

theorem of_same (generation : c'.generation = c.generation)
    (suspension : c'.suspension = c.suspension) : c.Later c' :=
  ⟨Nat.le_of_eq generation.symm, fun _ => suspension⟩

theorem of_lt (grown : c.generation < c'.generation) : c.Later c' :=
  ⟨Nat.le_of_lt grown, fun same => absurd same (Nat.ne_of_gt grown)⟩

theorem refl (c : Coordinator σ) : c.Later c := of_same rfl rfl

theorem trans (h : c.Later c') (h' : c'.Later c'') : c.Later c'' := by
  refine ⟨Nat.le_trans h.generation h'.generation, fun same => ?_⟩
  have hle := h.generation
  have hle' := h'.generation
  have hmid : c'.generation = c.generation := by omega
  have hlast : c''.generation = c'.generation := by omega
  rw [h'.suspension hlast, h.suspension hmid]

/-- A handle that was given out, and has become void, is void ever after. -/
theorem stays_stale (later : c.Later c') {n : Nat} (old : n ≤ c.generation)
    (stale : c.isLive n = false) : c'.isLive n = false := by
  cases live : c'.isLive n with
  | false => rfl
  | true =>
    obtain ⟨hn, suspended⟩ := isLive_iff.mp live
    have hle := later.generation
    have same : c'.generation = c.generation := by omega
    -- the suspension that lasts now would have lasted then
    have present : c.isLive n = true := by
      rw [isLive_iff, ← later.suspension same]
      exact ⟨by omega, suspended⟩
    rw [stale] at present
    cases present

end Later

theorem useContinuation_once {c c' : Coordinator σ} {k : Continuation}
    (resumed : c.useContinuation k = .resumed c') :
    c.isLive k.generation = true ∧ c'.isLive k.generation = false := by
  obtain ⟨live, _, rfl⟩ := useContinuation_resumed resumed
  exact ⟨live, isLive_of_suspension_none (invalidate_suspension c) _⟩

theorem useSelector_once {c c' : Coordinator σ} {h : Selector} {id : Nat}
    (resumed : c.useSelector h id = .resumed c') :
    c.isLive h.generation = true ∧ c'.isLive h.generation = false := by
  obtain ⟨live, picked⟩ := useSelector_resumed resumed
  exact ⟨live, isLive_of_suspension_none (pick_resumed_suspension picked) _⟩

end Coordinator

/-! ## Handles given out -/

def Happening.handed? : Happening σ → Option Handle
  | .delivered _ h => h
  | _ => none

/-- The handles given out, in their order. -/
def handed (t : List (Happening σ)) : List Handle := t.filterMap Happening.handed?

theorem handed_append (t t' : List (Happening σ)) : handed (t ++ t') = handed t ++ handed t' :=
  List.filterMap_append

theorem handed_writes (e : Errand) (x : σ) : handed (e.writes x) = [] := by
  cases e <;> rfl

/-! ## Moves -/

/-- The number of the present suspension, or a later one. -/
def Moment.generation (m : Moment σ) : Nat := m.session.coordinator.generation

theorem Move.later {m m' : Moment σ} {l : List (Happening σ)} (move : Move m l m') :
    m.session.coordinator.Later m'.session.coordinator := by
  -- the end of a suspension takes the next number
  have invalidated (c : Coordinator σ) : c.generation < c.invalidate.generation := by
    rw [Coordinator.invalidate_generation]
    omega
  have picked {c c' : Coordinator σ} {id : Nat} (picked : c.pick id = .resumed c') :
      c.generation < c'.generation := by
    obtain ⟨_, _, _, _, rfl⟩ := Coordinator.pick_resumed picked
    exact invalidated _
  have resumed {c c' : Coordinator σ} {k : Continuation}
      (resumed : c.useContinuation k = .resumed c') : c.generation < c'.generation := by
    obtain ⟨_, _, rfl⟩ := Coordinator.useContinuation_resumed resumed
    exact invalidated c
  cases move with
  | wait runs scheduled =>
    rw [Coordinator.schedule?_eq scheduled]
    exact .of_same rfl rfl
  | wake runs used =>
    have grown := resumed used
    exact .of_lt grown
  | resume used =>
    have grown := resumed used
    exact .of_lt grown
  | fire used =>
    have grown := resumed used
    exact .of_lt grown
  | pick runs chosen =>
    have grown := picked chosen
    exact .of_lt grown
  | choose chosen =>
    have grown := picked chosen
    exact .of_lt grown
  | hand given suspends => exact .of_lt (Nat.lt_succ_self _)
  | complete | goOn | halt | enter | abort | proceed | stop => exact .of_lt (invalidated _)
  | _ => exact .of_same rfl rfl

/-- A handle that is given out has the number of the suspension that begins. -/
theorem Move.handed_next {m m' : Moment σ} {l : List (Happening σ)} (move : Move m l m') :
    handed l = [] ∨ ∃ h, handed l = [h] ∧ h.generation = m'.generation ∧
      m.generation < m'.generation := by
  cases move with
  | write x runs => exact .inl (handed_writes _ x)
  | hand given suspends =>
    exact .inr ⟨_, rfl, Handle.generation_ofSuspension _ _, Nat.lt_succ_self _⟩
  | _ => exact .inl rfl

/-- Something that happens only when no suspension from before lasts: the machine has been asked or
    has gone on with an option, or a dialogue has been started or ended. -/
def Happening.Ends : Happening σ → Prop
  | .stepped _ => True
  | .picked _ => True
  | .entered _ => True
  | .halted _ => True
  | _ => False

theorem Move.ended {m m' : Moment σ} {a : Happening σ} (move : Move m [a] m') (sound : m.Sound)
    (ends : a.Ends) : m'.session.coordinator.suspension = none := by
  generalize hl : [a] = l at move
  cases move with
  | write x runs =>
    rename_i e
    cases e <;> cases hl
    · cases ends
    · cases ends
  | @answer due s s' r m store answered =>
    have flows : s.coordinator.Flows := sound
    -- the store has been asked while nothing was suspended
    have frame := congrArg Coordinator.suspension (Act.within_store answered)
    exact frame.trans flows.suspension
  | pick runs picked =>
    have free := Coordinator.pick_resumed_suspension picked
    exact free
  | choose picked =>
    have free := Coordinator.pick_resumed_suspension picked
    exact free
  | halt | enter | abort | stop => rfl
  | _ => cases hl <;> cases ends

/-! ## Courses -/

theorem Course.later {m m' : Moment σ} {t : List (Happening σ)} (course : Course m t m') :
    m.session.coordinator.Later m'.session.coordinator := by
  induction course with
  | nil => exact .refl _
  | snoc _ move ih => exact ih.trans move.later

/-- The numbers of the handles given out increase, up to the present one. -/
theorem Course.handed_increasing {m m' : Moment σ} {t : List (Happening σ)}
    (course : Course m t m') :
    (handed t).Pairwise (fun h h' => h.generation < h'.generation) ∧
      ∀ h ∈ handed t, h.generation ≤ m'.generation := by
  induction course with
  | nil => exact ⟨.nil, nofun⟩
  | @snoc t l n n' before move ih =>
    obtain ⟨increasing, bounded⟩ := ih
    have grown : n.generation ≤ n'.generation := move.later.generation
    rw [handed_append]
    rcases move.handed_next with none | ⟨h, one, present, fresh⟩
    · rw [none, List.append_nil]
      exact ⟨increasing, fun h hh => Nat.le_trans (bounded h hh) grown⟩
    · rw [one]
      constructor
      · rw [List.pairwise_append]
        refine ⟨increasing, List.pairwise_singleton _ _, fun h₁ hh₁ h₂ hh₂ => ?_⟩
        rw [List.mem_singleton.mp hh₂, present]
        exact Nat.lt_of_le_of_lt (bounded h₁ hh₁) fresh
      · intro h' hh'
        rcases List.mem_append.mp hh' with hh' | hh'
        · exact Nat.le_trans (bounded h' hh') grown
        · have same := List.mem_singleton.mp hh'
          exact Nat.le_of_eq (same ▸ present)

/-- Handles with increasing numbers are not live together. -/
theorem live_unique {c : Coordinator σ} {hs : List Handle}
    (increasing : hs.Pairwise fun h h' => h.generation < h'.generation) :
    (hs.filter fun h => c.isLive h.generation).length ≤ 1 := by
  have live {h : Handle} (hh : h ∈ hs.filter fun h => c.isLive h.generation) :
      h.generation = c.generation := by
    have hlive := (List.mem_filter.mp hh).2
    exact (Coordinator.isLive_iff.mp hlive).1.symm
  have ordered := increasing.filter fun h => c.isLive h.generation
  rcases hl : hs.filter fun h => c.isLive h.generation with _ | ⟨h, _ | ⟨h', rest⟩⟩
  · rw [hl]
    exact Nat.zero_le 1
  · rw [hl]
    exact Nat.le_refl 1
  · rw [hl] at ordered live
    have hlt := (List.pairwise_cons.mp ordered).1 h' List.mem_cons_self
    have hh := live (h := h) List.mem_cons_self
    have hh' := live (h := h') (List.mem_cons_of_mem _ List.mem_cons_self)
    omega

/-! ## Void handles -/

namespace Act

variable {s : Session σ}

theorem resume_stale {k : Continuation} (stale : s.coordinator.isLive k.generation = false)
    (f : Except EngineError Unit → Act σ α) :
    (∀ place, (Act.resume k f).within place s = (f (.ok ())).within place s) ∧
      ∀ limit, (Act.resume k f).between limit s = (f (.ok ())).between limit s := by
  constructor
  · intro place
    rw [Act.within, Coordinator.useContinuation_stale stale]
    rfl
  · intro limit
    rw [Act.between, Coordinator.useContinuation_stale stale]
    rfl

theorem select_stale {h : Selector} (stale : s.coordinator.isLive h.generation = false) (id : Nat)
    (f : Except EngineError Unit → Act σ α) :
    (∀ place, (Act.select h id f).within place s = (f (.ok ())).within place s) ∧
      ∀ limit, (Act.select h id f).between limit s = (f (.ok ())).between limit s := by
  constructor
  · intro place
    rw [Act.within, Coordinator.useSelector_stale stale]
    rfl
  · intro limit
    rw [Act.between, Coordinator.useSelector_stale stale]
    rfl

end Act

namespace Session

/-- In whatever a host does with a session and its handles:
    at every moment at most one of the handles given out so far is live;
    one that is void at a moment is void at every later one;
    whatever makes the machine go on, starts a dialogue or ends it makes all of them void;
    a use that resumes makes its handle void;
    and a void handle that is used, during an operation or between operations, answers that all is
    well and leaves the session as it is. -/
theorem handles_effective_once (limit : Nat) (ops : List (Operation σ)) (presenter : Presenter σ)
    (store : Store σ) (settings : Settings) (text : Line → String) (commands : CommandTable σ)
    (host : σ) :
    let t := (Recorded.history limit ops
      (opening presenter store settings text commands host)).happenings
    (∀ t₁ s t₂, t = t₁ ++ .moment s :: t₂ →
      ((handed t₁).filter fun h => s.coordinator.isLive h.generation).length ≤ 1) ∧
    (∀ t₁ s t₂ s' t₃, t = t₁ ++ .moment s :: (t₂ ++ .moment s' :: t₃) → ∀ h ∈ handed t₁,
      s.coordinator.isLive h.generation = false → s'.coordinator.isLive h.generation = false) ∧
    (∀ t₁ a t₂ s t₃, t = t₁ ++ a :: (t₂ ++ .moment s :: t₃) → a.Ends → ∀ h ∈ handed t₁,
      s.coordinator.isLive h.generation = false) ∧
    (∀ (c c' : Coordinator σ) (k : Continuation), c.useContinuation k = .resumed c' →
      c.isLive k.generation = true ∧ c'.isLive k.generation = false) ∧
    (∀ (c c' : Coordinator σ) (h : Selector) (id : Nat), c.useSelector h id = .resumed c' →
      c.isLive h.generation = true ∧ c'.isLive h.generation = false) ∧
    (∀ (s : Session σ) (k : Continuation), s.coordinator.isLive k.generation = false →
      ∀ (α : Type) (f : Except EngineError Unit → Act σ α),
        (∀ place, (Act.resume k f).within place s = (f (.ok ())).within place s) ∧
        ∀ limit, (Act.resume k f).between limit s = (f (.ok ())).between limit s) ∧
    (∀ (s : Session σ) (h : Selector) (id : Nat), s.coordinator.isLive h.generation = false →
      ∀ (α : Type) (f : Except EngineError Unit → Act σ α),
        (∀ place, (Act.select h id f).within place s = (f (.ok ())).within place s) ∧
        ∀ limit, (Act.select h id f).between limit s = (f (.ok ())).between limit s) := by
  intro t
  obtain ⟨m, course, _⟩ :=
    Leads.history limit ops (opening presenter store settings text commands host)
  refine ⟨?_, ?_, ?_, fun _ _ _ => Coordinator.useContinuation_once,
    fun _ _ _ _ => Coordinator.useSelector_once, fun _ _ stale _ => Act.resume_stale stale,
    fun _ _ id stale _ => Act.select_stale stale id⟩
  · intro t₁ s t₂ ht
    rw [show Recorded.happenings _ = _ from ht] at course
    obtain ⟨n, first, _, _⟩ := course.at_moment
    exact live_unique first.handed_increasing.1
  · intro t₁ s t₂ s' t₃ ht h hh stale
    rw [show Recorded.happenings _ = _ from ht] at course
    obtain ⟨n, first, rfl, last⟩ := course.at_moment
    obtain ⟨n', between, rfl, _⟩ := last.at_moment
    exact between.later.stays_stale (first.handed_increasing.2 h hh) stale
  · intro t₁ a t₂ s t₃ ht ends h hh
    obtain ⟨n, n', first, through, last⟩ := course.split ht
    have sound := first.sound (opening_sound presenter store settings text commands host)
    have stale := Coordinator.isLive_of_suspension_none (through.ended sound ends) h.generation
    have old : h.generation ≤ n'.generation :=
      Nat.le_trans (first.handed_increasing.2 h hh) through.later.generation
    obtain ⟨n'', between, rfl, _⟩ := last.at_moment
    exact between.later.stays_stale old stale

end Session

end DialogueEngine
