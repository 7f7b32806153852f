import DialogueEngine.Proofs.Session.Fairness

/-! # What waits belongs to the present suspension

All waits are dropped when a suspension ends. Yet a handle that is void by then may still be made
to wait, and its timer stays although nothing will come of it. Such late waits are the only timers
that do not belong to the present suspension.

* `Once` — a continuation is spent by its use.
* `Late` — a continuation was void when it was used.
* `Move.timed` — what a move does to the timers and to the handles given out.
* `Walk.timely` — what a walk of a fair host keeps.
* `Session.timers_current_unless_late` — the timers between operations.
-/

namespace DialogueEngine

variable {σ : Type}

/-! ## Uses -/

/-- The continuations used, in their order. -/
def spent (t : List (Happening σ)) : List Continuation :=
  t.filterMap fun
    | .used (.continuation k) => some k
    | _ => none

/-- No continuation is used twice: its use takes it from the host. -/
def Once (t : List (Happening σ)) : Prop := (spent t).Nodup

instance (t : List (Happening σ)) : Decidable (Once t) :=
  inferInstanceAs (Decidable (spent t).Nodup)

/-- A continuation was void at the moment at which it was used. -/
def Late (t : List (Happening σ)) (k : Continuation) : Prop :=
  ∃ t₁ s t₂, t = t₁ ++ .moment s :: .used (.continuation k) :: t₂ ∧
    s.coordinator.isLive k.generation = false

theorem spent_append (t l : List (Happening σ)) : spent (t ++ l) = spent t ++ spent l :=
  List.filterMap_append

theorem mem_spent {t : List (Happening σ)} {k : Continuation} :
    k ∈ spent t ↔ .used (.continuation k) ∈ t := by
  constructor
  · intro hk
    obtain ⟨a, ha, h⟩ := List.mem_filterMap.mp hk
    split at h
    · cases h
      exact ha
    · cases h
  · intro hk
    exact List.mem_filterMap.mpr ⟨_, hk, rfl⟩

/-- Whether only handles given out before, or among some others, are used. -/
def usesGiven (given : List Handle) : List (Happening σ) → Bool
  | [] => true
  | a :: t => a.used?.all (· ∈ given) && usesGiven (given ++ handed [a]) t

theorem fair_of_usesGiven {t : List (Happening σ)} (check : usesGiven [] t = true) : Fair t := by
  have sound (t : List (Happening σ)) : ∀ given, usesGiven given t = true →
      ∀ t₁ h t₂, t = t₁ ++ .used h :: t₂ → h ∈ given ++ handed t₁ := by
    induction t with
    | nil =>
      intro given _ t₁ h t₂ ht
      cases t₁ <;> cases ht
    | cons a t ih =>
      intro given check t₁ h t₂ ht
      rw [usesGiven, Bool.and_eq_true] at check
      cases t₁ with
      | nil =>
        cases ht
        have now := check.1
        simp only [Happening.used?, Option.all_some, decide_eq_true_eq] at now
        exact List.mem_append_left _ now
      | cons b t₁ =>
        cases ht
        have later := ih _ check.2 t₁ h t₂ rfl
        rw [List.append_assoc, ← handed_append] at later
        exact later
  intro t₁ h t₂ ht
  have given := sound t [] check t₁ h t₂ ht
  rwa [List.nil_append] at given

theorem Once.before {t l : List (Happening σ)} (once : Once (t ++ l)) : Once t := by
  unfold Once at once
  rw [spent_append] at once
  exact once.sublist (List.sublist_append_left _ _)

/-- What is used now has not been used before. -/
theorem Once.fresh {t : List (Happening σ)} {k : Continuation}
    (once : Once (t ++ [.used (.continuation k)])) : k ∉ spent t := by
  unfold Once at once
  rw [spent_append] at once
  intro hk
  exact (List.nodup_append.mp once).2.2 k hk k List.mem_cons_self rfl

theorem Fair.handed {t : List (Happening σ)} (fair : Fair t) {k : Continuation}
    (hk : k ∈ spent t) : .continuation k ∈ handed t := by
  obtain ⟨t₁, t₂, ht⟩ := List.append_of_mem (mem_spent.mp hk)
  have given := fair t₁ _ t₂ ht
  rw [ht, handed_append]
  exact List.mem_append_left _ given

/-- The last thing that happens is a late use, or one has happened before. -/
theorem late_snoc {t : List (Happening σ)} {a : Happening σ} {k : Continuation} :
    Late (t ++ [a]) k ↔ Late t k ∨ a = .used (.continuation k) ∧
      ∃ s, t.getLast? = some (.moment s) ∧ s.coordinator.isLive k.generation = false := by
  constructor
  · rintro ⟨t₁, s, t₂, ht, void⟩
    rcases List.eq_nil_or_concat t₂ with rfl | ⟨t₃, b, rfl⟩
    · have hsplit : t ++ [a] = (t₁ ++ [.moment s]) ++ [.used (.continuation k)] := by
        rw [ht, List.append_assoc]
        rfl
      obtain ⟨rfl, ha⟩ := List.append_inj' hsplit rfl
      cases ha
      exact .inr ⟨rfl, s, List.getLast?_concat, void⟩
    · have hsplit : t ++ [a] = (t₁ ++ .moment s :: .used (.continuation k) :: t₃) ++ [b] := by
        rw [ht, List.concat_eq_append, List.append_assoc]
        rfl
      obtain ⟨rfl, _⟩ := List.append_inj' hsplit rfl
      exact .inl ⟨t₁, s, t₃, rfl, void⟩
  · rintro (⟨t₁, s, t₂, rfl, void⟩ | ⟨rfl, s, last, void⟩)
    · refine ⟨t₁, s, t₂ ++ [a], ?_, void⟩
      rw [List.append_assoc]
      rfl
    · obtain ⟨t₁, rfl⟩ := List.getLast?_eq_some_iff.mp last
      refine ⟨t₁, s, [], ?_, void⟩
      rw [List.append_assoc]
      rfl

/-! ## Moves -/

def Moment.timers (m : Moment σ) : List Timer := m.session.coordinator.timers.entries

def Moment.isLive (m : Moment σ) (n : Nat) : Bool := m.session.coordinator.isLive n

/-- A move drops all timers, or it makes no handle that was given out live or void. Then timers only
    go, but for one that comes with the use of its handle. -/
theorem Move.timed {m m' : Moment σ} {l : List (Happening σ)} (move : Move m l m')
    (sound : m.Sound) :
    m'.timers = [] ∨ (∀ n ≤ m.generation, m'.isLive n = m.isLive n) ∧
      (m'.timers.Sublist m.timers ∨
        ∃ k d, l = [.used (.continuation k)] ∧ m'.timers = m.timers ++ [⟨d, k⟩]) := by
  cases move with
  | @wait mode due s e k d c runs scheduled =>
    refine .inr ⟨fun n _ => ?_, .inr ?_⟩
    · change c.isLive n = s.coordinator.isLive n
      rw [Coordinator.schedule?_eq scheduled]
      rfl
    · unfold Coordinator.schedule? Timers.schedule? at scheduled
      cases hd : s.coordinator.timers.now.add? d with
      | none =>
        rw [hd] at scheduled
        cases scheduled
      | some deadline =>
        rw [hd] at scheduled
        cases scheduled
        exact ⟨k, deadline, rfl, rfl⟩
  | @advance s due delta timers advanced =>
    refine .inr ⟨fun _ _ => rfl, .inl ?_⟩
    unfold Timers.advance? at advanced
    cases hd : s.coordinator.timers.now.add? delta with
    | none =>
      rw [hd] at advanced
      cases advanced
    | some now =>
      rw [hd] at advanced
      cases advanced
      exact List.filter_sublist
  | @hand due s y w given suspends =>
    refine .inr ⟨fun n old => ?_, .inl (List.Sublist.refl _)⟩
    have stale : s.coordinator.isLive n = false :=
      Coordinator.isLive_of_suspension_none sound.1.suspension n
    have old : n ≤ s.coordinator.generation := old
    change (s.coordinator.suspend w).isLive n = s.coordinator.isLive n
    rw [stale]
    unfold Coordinator.isLive Coordinator.suspend
    have next : ¬ s.coordinator.generation + 1 = n := by omega
    simp [next]
  | wake runs resumed =>
    have cleared := Coordinator.useContinuation_entries resumed
    exact .inl cleared
  | resume resumed =>
    have cleared := Coordinator.useContinuation_entries resumed
    exact .inl cleared
  | fire resumed =>
    have cleared := Coordinator.useContinuation_entries resumed
    exact .inl cleared
  | pick runs picked =>
    have cleared := Coordinator.pick_entries picked
    exact .inl cleared
  | choose picked =>
    have cleared := Coordinator.pick_entries picked
    exact .inl cleared
  | goOn handed asleep => exact .inl (Coordinator.invalidate_entries _)
  | proceed running free => exact .inl (Coordinator.invalidate_entries _)
  | complete | halt | enter | abort | stop => exact .inl rfl
  | _ => exact .inr ⟨fun _ _ => rfl, .inl (List.Sublist.refl _)⟩

/-! ## Walks -/

/-- The timers of a session after what has happened: each belongs to a continuation of its own, and
    to the present suspension unless it came late. -/
structure Moment.Timely (t : List (Happening σ)) (m : Moment σ) : Prop where
  used : ∀ e ∈ m.timers, e.continuation ∈ spent t
  distinct : (m.timers.map (·.continuation)).Nodup
  current : ∀ e ∈ m.timers, m.isLive e.continuation.generation = true ↔ ¬ Late t e.continuation

theorem Moment.timely_nil (t : List (Happening σ)) {m : Moment σ} (none : m.timers = []) :
    m.Timely t := by
  refine ⟨?_, ?_, ?_⟩ <;> simp [none]

/-- Timers whose handles are not used now stay as they are. -/
theorem Moment.Timely.kept {m m' : Moment σ} {t l : List (Happening σ)} (timely : m.Timely t)
    (same : ∀ e ∈ m.timers, m'.isLive e.continuation.generation =
      m.isLive e.continuation.generation)
    (single : l = [] ∨ ∃ a, l = [a]) (once : Once (t ++ l)) :
    ∀ e ∈ m.timers, m'.isLive e.continuation.generation = true ↔ ¬ Late (t ++ l) e.continuation := by
  intro e he
  rw [same e he, timely.current e he]
  rcases single with rfl | ⟨a, rfl⟩
  · rw [List.append_nil]
  · rw [late_snoc]
    have unused : a ≠ .used (.continuation e.continuation) := by
      rintro rfl
      exact once.fresh (timely.used e he)
    simp [unused]

theorem Walk.timely {m m' : Moment σ} {t : List (Happening σ)} (walk : Walk m t m')
    (sound : m.Sound) (none : m.timers = []) (fair : Fair t) (once : Once t) : m'.Timely t := by
  induction walk with
  | nil => exact Moment.timely_nil [] none
  | @snoc t l n n' before move seen ih =>
    have timely := ih fair.before once.before
    have increasing := before.course.handed_increasing
    -- a handle that waits was given out, so its number is not beyond the present one
    have old (e : Timer) (he : e ∈ n.timers) : e.continuation.generation ≤ n.generation :=
      increasing.2 _ (fair.before.handed (timely.used e he))
    rcases move.timed (before.course.sound sound) with cleared | ⟨same, gone | ⟨k, d, rfl, came⟩⟩
    · exact Moment.timely_nil _ cleared
    · have kept := timely.kept (fun e he => same _ (old e he)) move.label once
      refine ⟨fun e he => ?_, ?_, fun e he => kept e (gone.subset he)⟩
      · rw [spent_append]
        exact List.mem_append_left _ (timely.used e (gone.subset he))
      · exact timely.distinct.sublist (gone.map _)
    · have kept := timely.kept (fun e he => same _ (old e he)) move.label once
      have fresh := once.fresh
      have given : k.generation ≤ n.generation := increasing.2 _ fair.used
      refine ⟨?_, ?_, ?_⟩
      · intro e he
        rw [came] at he
        rw [spent_append]
        rcases List.mem_append.mp he with he | he
        · exact List.mem_append_left _ (timely.used e he)
        · cases List.mem_singleton.mp he
          exact List.mem_append_right _ List.mem_cons_self
      · rw [came, List.map_append, List.nodup_append]
        refine ⟨timely.distinct, by simp, ?_⟩
        intro k' hk' k'' hk'' heq
        obtain ⟨e, he, rfl⟩ := List.mem_map.mp hk'
        have waiting := timely.used e he
        rw [heq, List.mem_singleton.mp hk''] at waiting
        exact fresh waiting
      · intro e he
        rw [came] at he
        rcases List.mem_append.mp he with he | he
        · exact kept e he
        · -- the handle that waits now: it is live as it was when it was seen
          cases List.mem_singleton.mp he
          have last := seen _ rfl
          have early : ¬ Late t k := by
            rintro ⟨t₁, s, t₂, rfl, _⟩
            exact fresh (mem_spent.mpr (by simp))
          rw [same _ given, late_snoc, last]
          simp [early, Moment.isLive]

/-! ## Between operations -/

/-- Timers of different continuations that belong to the present suspension: there is one at
    most. -/
theorem live_timers_le {c : Coordinator σ} {es : List Timer}
    (distinct : (es.map (·.continuation)).Nodup)
    (live : ∀ e ∈ es, c.isLive e.continuation.generation = true) : es.length ≤ 1 := by
  rcases es with _ | ⟨e, _ | ⟨e', rest⟩⟩
  · exact Nat.zero_le 1
  · exact Nat.le_refl 1
  · exfalso
    have present := (Coordinator.isLive_iff.mp (live e (by simp))).1
    have present' := (Coordinator.isLive_iff.mp (live e' (by simp))).1
    have same : e.continuation = e'.continuation := by
      have numbers : e.continuation.generation = e'.continuation.generation := by omega
      cases he : e.continuation
      cases he' : e'.continuation
      rw [he, he'] at numbers
      cases numbers
      rfl
    simp [same] at distinct

theorem Timers.nextWake_eq_none_iff {t : Timers} : t.nextWake = none ↔ t.entries = [] := by
  unfold Timers.nextWake
  cases t.entries with
  | nil => simp
  | cons e es => simp

namespace Session

variable (presenter : Presenter σ) (store : Store σ) (settings : Settings) (text : Line → String)
  (commands : CommandTable σ) (host : σ)

/-- Whatever a host does that uses only handles it has been given, and no continuation twice:
    between operations a timer belongs to the present suspension exactly if its handle was not void
    already when it was used, and of those there is one at most. So where no void handle has been
    made to wait there is at most one timer, and none unless the dialogue goes on. -/
theorem timers_current_unless_late (limit : Nat) (ops : List (Operation σ)) {s : Session σ}
    (done : (opening presenter store settings text commands host).performAll limit ops = .ok s)
    (fair : Fair (Recorded.history limit ops
      (opening presenter store settings text commands host)).happenings)
    (once : Once (Recorded.history limit ops
      (opening presenter store settings text commands host)).happenings) :
    let t := (Recorded.history limit ops
      (opening presenter store settings text commands host)).happenings
    let timers := s.coordinator.timers
    (∀ e ∈ timers.entries,
      s.coordinator.isLive e.continuation.generation = true ↔ ¬ Late t e.continuation) ∧
    (timers.entries.filter fun e => s.coordinator.isLive e.continuation.generation).length ≤ 1 ∧
    ((∀ e ∈ timers.entries, ¬ Late t e.continuation) →
      timers.entries.length ≤ 1 ∧ (s.coordinator.phase ≠ .running → timers.nextWake = none)) := by
  intro t timers
  have walk := Walk.of_performAll done
  have sound := opening_sound presenter store settings text commands host
  have timely := walk.timely sound rfl fair once
  have current : ∀ e ∈ timers.entries,
      s.coordinator.isLive e.continuation.generation = true ↔ ¬ Late t e.continuation :=
    timely.current
  have distinct : (timers.entries.map (·.continuation)).Nodup := timely.distinct
  refine ⟨current, ?_, fun unlate => ⟨?_, fun notRunning => ?_⟩⟩
  · apply live_timers_le (distinct.sublist (List.filter_sublist.map _))
    intro e he
    exact (List.mem_filter.mp he).2
  · apply live_timers_le distinct
    intro e he
    exact (current e he).mpr (unlate e he)
  · have coherent := Coordinator.Rests.coherent (walk.course.sound sound)
    rw [Timers.nextWake_eq_none_iff]
    apply List.eq_nil_iff_forall_not_mem.mpr
    intro e he
    have live := (Coordinator.isLive_iff.mp ((current e he).mpr (unlate e he))).2
    exact notRunning (coherent.running_iff.mpr live)

/-- A dialogue is stopped while a line is shown, and then the handle of the line is made to wait. -/
theorem timers_current_unless_late_stopped :
    let ops : List (Operation Unit) :=
      [.add (.ofNode "Start" [.line "a" []]), .start, .stop,
        .host (.resumeAfter ⟨2⟩ ⟨1, by decide⟩ fun _ => .done ())]
    ∃ s, (plain .waiting ()).performAll 9 ops = .ok s ∧ s.coordinator.phase = .completed ∧
      s.coordinator.timers.nextWake ≠ none ∧
      ¬ ∀ e ∈ s.coordinator.timers.entries,
        ¬ Late (Recorded.history 9 ops (plain .waiting ())).happenings e.continuation := by
  intro ops
  refine ⟨_, rfl, rfl, nofun, fun unlate => ?_⟩
  have timed := timers_current_unless_late .waiting (.memory .empty) .default (fun l => l.id)
    .empty () 9 ops rfl (fair_of_usesGiven rfl) (by decide)
  have asleep := (timed.2.2 unlate).2 nofun
  cases asleep

end Session

end DialogueEngine
