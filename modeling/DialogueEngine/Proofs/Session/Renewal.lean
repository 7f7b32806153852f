import DialogueEngine.Proofs.Session.Clock
import DialogueEngine.Proofs.Session.Episode
import DialogueEngine.Proofs.Session.Paired
import DialogueEngine.Proofs.Session.Refusal

/-! # A dialogue that is started again

Whatever has come before, a start behaves as it does in a session that has just been set up with
the same program, the same variables and the same host, also if the host still uses handles of
earlier dialogues. What can be left is a wait: a void handle that is made to wait stays among the
timers until the next start.

* `Session.replies` — what the host gets back from its operations.
* `Pairing.Conducts`, `Pairing.Renews` — operations come to the same on both sides.
* `Session.pairing_sessions` — a session in which a dialogue is over agrees with a new one.
* `Session.started_like_new` — a start, and a reset, in any state that a session can come to.
-/

namespace DialogueEngine

variable {σ τ α β : Type}

/-! ## Replies -/

inductive Reply where
  | answer (r : Except EngineError Unit)
  | value (r : Except Fault (Except EngineError (Option Value)))
  /-- Whether a name was free, or taken. -/
  | told (b : Bool)

/-- What the host gets back from an operation that has been answered. Events are counted apart. -/
def Operation.reply (s : Session σ) (r : Except EngineError Unit) : Operation σ → Reply
  | .readVariable name => .value ((s.readVariable name).map Prod.fst)
  | .register name h => .told (s.register name h).1
  | .unregister name => .told (s.unregister name).1
  | _ => .answer r

def Session.replies (limit : Nat) : List (Operation σ) → Session σ → List Reply
  | [], _ => []
  | op :: ops, s =>
    match op.perform limit s with
    | .ok (r, s') => op.reply s r :: replies limit ops s'
    | .error _ => []

/-! ## Events -/

/-- What the host is told of something that it is shown. -/
def Shown.told? : Shown → Option LifecycleEvent
  | .handed y _ => y.told?
  | .started _ => none

theorem told_eq_shown (offset : Nat) (t : List (Happening σ)) :
    told t = (shown offset t).filterMap Shown.told? := by
  unfold told tellings deliveries shown
  rw [List.filterMap_filterMap, List.filterMap_filterMap]
  congr 1
  funext a
  cases a <;> rfl

namespace Pairing

variable {P : Pairing σ τ} {begun : Prop} {s : Session σ} {s' : Session τ} {limit : Nat}
  {op : Operation σ} {op' : Operation τ} {ops : List (Operation σ)} {ops' : List (Operation τ)}

/-! ## Operations on both sides -/

theorem Operations.reply (same : P.Sessions begun s s') (alike : P.Operations op op')
    (within : op.perform limit s ≠ .error .clockOverflow) (r : Except EngineError Unit) :
    op.reply s r = op'.reply s' r := by
  cases alike with
  | readVariable name =>
    have runs := Runs.readVariable same name
    simp only [Operation.reply]
    rw [← Recorded.outcome_readVariable, ← Recorded.outcome_readVariable]
    rcases runs with beyond | ⟨_, outcomes⟩
    · refine absurd ?_ within
      simp only [Operation.perform]
      rw [← Recorded.outcome_readVariable, beyond]
      rfl
    · generalize (Recorded.readVariable s name).outcome = x,
        (Recorded.readVariable s' name).outcome = y at outcomes
      cases outcomes with
      | ok agree => exact congrArg (fun v => Reply.value (.ok v)) agree.1
      | fault f => rfl
  | register name handlers =>
    exact congrArg Reply.told (same.coordinator.commands.insert name handlers).1
  | unregister name => exact congrArg Reply.told (same.coordinator.commands.remove name).1
  | _ => rfl

/-- Operations come to the same, step by step. -/
structure Conducts (P : Pairing σ τ) (begun : Prop) (limit : Nat) (ops : List (Operation σ))
    (s : Session σ) (ops' : List (Operation τ)) (s' : Session τ) : Prop where
  runs : P.Runs (P.Since begun) (Recorded.history limit ops s) (Recorded.history limit ops' s')
  replies : s.performAll limit ops ≠ .error .clockOverflow →
    s.replies limit ops = s'.replies limit ops'

/-- One operation comes to the same, and so do all that are left. -/
theorem Conducts.cons
    (first : P.Runs (P.After begun Eq) (Recorded.perform limit s op)
      (Recorded.perform limit s' op'))
    (reply : op.perform limit s ≠ .error .clockOverflow →
      ∀ r, op.reply s r = op'.reply s' r)
    (rest : ∀ n n', P.Since begun n n' → P.Conducts begun limit ops n ops' n') :
    P.Conducts begun limit (op :: ops) s (op' :: ops') s' where
  runs := .noted rfl (first.bind fun r r' agree => (rest r.2 r'.2 agree.2).runs)
  replies within := by
    unfold Session.performAll at within
    unfold Session.replies
    rw [← Recorded.outcome_perform] at within reply
    rw [← Recorded.outcome_perform, ← Recorded.outcome_perform]
    rcases first with beyond | ⟨_, outcomes⟩
    · rw [beyond] at within
      exact absurd rfl within
    · generalize (Recorded.perform limit s op).outcome = x at outcomes within reply
      generalize (Recorded.perform limit s' op').outcome = y at outcomes
      cases outcomes with
      | fault f => rfl
      | @ok a b agree =>
        obtain ⟨answer, since⟩ := agree
        have done : (.ok a : Except Fault (Answer σ Unit)) ≠ .error .clockOverflow := by
          intro h
          cases h
        dsimp only
        rw [reply done, answer, (rest a.2 b.2 since).replies within]

theorem Since.conducts (since : P.Since begun s s') (alike : List.Forall₂ P.Operations ops ops') :
    P.Conducts begun limit ops s ops' s' := by
  induction alike generalizing s s' with
  | nil => exact ⟨.noted rfl (.pure since), fun _ => rfl⟩
  | cons first _ ih =>
    obtain ⟨now, begins, same⟩ := since
    refine .cons ?_ (fun within => first.reply same within) fun n n' since => ih since
    refine (Runs.perform limit same first).imp fun r r' agree => ?_
    obtain ⟨answers, later, kept, agree⟩ := agree
    exact ⟨answers, later, fun before => kept (begins before), agree⟩

/-- What the host finds of two sessions is the same. -/
structure Alike (P : Pairing σ τ) (s : Session σ) (s' : Session τ) : Prop where
  host : P.hosts s.host s'.host
  store : P.Stores s.coordinator.store s'.coordinator.store
  running : s.coordinator.isRunning = s'.coordinator.isRunning

/-- Operations come to the same on both sides. -/
structure Renews (P : Pairing σ τ) (limit : Nat) (ops : List (Operation σ)) (s : Session σ)
    (ops' : List (Operation τ)) (s' : Session τ) : Prop where
  shown : shown P.offset (Recorded.history limit ops s).happenings =
    shown 0 (Recorded.history limit ops' s').happenings
  replies : s.replies limit ops = s'.replies limit ops'
  outcome : Outcomes P.Alike (s.performAll limit ops) (s'.performAll limit ops')
  /-- The host takes out, or finds, the same events, but for those that were there before. -/
  events : ∀ n n', s.performAll limit ops = .ok n → s'.performAll limit ops' = .ok n' →
    s.drained limit ops ++ n.coordinator.events = s.coordinator.events ++
      (s'.drained limit ops' ++ n'.coordinator.events)

theorem Conducts.renews (conducts : P.Conducts begun limit ops s ops' s')
    (new : s'.coordinator.events = []) :
    s.performAll limit ops = .error .clockOverflow ∨ P.Renews limit ops s ops' s' := by
  have runs := conducts.runs
  unfold Runs at runs
  rw [Recorded.outcome_history, Recorded.outcome_history] at runs
  by_cases within : s.performAll limit ops = .error .clockOverflow
  · exact .inl within
  obtain ⟨shown, outcomes⟩ := runs.resolve_left within
  refine .inr ⟨shown, conducts.replies within, ?_, fun n n' done done' => ?_⟩
  · generalize s.performAll limit ops = x, s'.performAll limit ops' = y at outcomes ⊢
    cases outcomes with
    | fault f => exact .fault f
    | ok since =>
      obtain ⟨now, _, agree⟩ := since
      exact .ok ⟨agree.host, agree.coordinator.store, agree.coordinator.isRunning⟩
  · have accounts := (Session.performAll_accounts (fun _ => []) done).events
    have accounts' := (Session.performAll_accounts (fun _ => []) done').events
    rw [accounts, accounts', new, told_eq_shown P.offset, told_eq_shown 0, shown]
    rfl

/-- Without waits of earlier dialogues the next deadline is equally far away. -/
theorem Conducts.nextWake (conducts : P.Conducts begun limit ops s ops' s')
    (clear : begun ∨ ¬ P.left) (patient : ¬ P.waits) {n : Session σ} {n' : Session τ}
    (done : s.performAll limit ops = .ok n) (done' : s'.performAll limit ops' = .ok n') :
    n.coordinator.timers.nextWake = n'.coordinator.timers.nextWake := by
  have runs := conducts.runs
  unfold Runs at runs
  rw [Recorded.outcome_history, Recorded.outcome_history, done, done'] at runs
  rcases runs with beyond | ⟨_, outcomes⟩
  · cases beyond
  · cases outcomes with
    | ok since =>
      obtain ⟨now, begins, agree⟩ := since
      have timers := agree.coordinator.timers
      exact timers.nextWake (timers.own (clear.imp_left begins) patient)

end Pairing

/-! ## A new session -/

def Session.loaded (s : Session σ) (p : Option Program) : Session σ :=
  s.withCoordinator { s.coordinator with machine := { s.coordinator.machine with program := p } }

/-- How a session in which a dialogue is over is compared with a new one. -/
def Session.pairing (s : Session σ) (hosts : σ → τ → Prop) (waits : Prop) : Pairing σ τ where
  offset := s.coordinator.generation
  hosts := hosts
  left := s.coordinator.timers.entries ≠ []
  waits := waits

/-- A presenter, handlers and a host for a new session that do the same as those of a session. -/
structure Pairing.Furnishes (P : Pairing σ τ) (s : Session σ) (presenter : Presenter τ)
    (commands : CommandTable τ) (host : τ) : Prop where
  presenter : P.Presenters s.coordinator.presenter presenter
  commands : P.Tables s.coordinator.commands commands
  host : P.hosts s.host host

/-- Settings are never changed. -/
theorem Move.settings {m m' : Moment σ} {l : List (Happening σ)} (move : Move m l m') :
    m'.session.coordinator.settings = m.session.coordinator.settings := by
  cases move with
  | @wait mode due s e k d c runs scheduled =>
    rw [Session.withCoordinator, Coordinator.schedule?_eq scheduled]
  | wake runs resumed =>
    obtain ⟨_, _, rfl⟩ := Coordinator.useContinuation_resumed resumed
    rfl
  | resume resumed =>
    obtain ⟨_, _, rfl⟩ := Coordinator.useContinuation_resumed resumed
    rfl
  | fire resumed =>
    obtain ⟨_, _, rfl⟩ := Coordinator.useContinuation_resumed resumed
    rfl
  | pick runs picked =>
    obtain ⟨_, _, _, _, rfl⟩ := Coordinator.pick_resumed picked
    rfl
  | choose picked =>
    obtain ⟨_, _, _, _, rfl⟩ := Coordinator.pick_resumed picked
    rfl
  | _ => rfl

theorem Course.settings {m m' : Moment σ} {t : List (Happening σ)} (course : Course m t m') :
    m'.session.coordinator.settings = m.session.coordinator.settings := by
  induction course with
  | nil => rfl
  | snoc _ move ih => exact move.settings.trans ih

/-- A session in which a dialogue is over agrees with a new one. -/
theorem Session.pairing_sessions {s : Session σ} (ended : s.coordinator.Over)
    (unlent : s.coordinator.lent = false)
    (old : ∀ e ∈ s.coordinator.timers.entries,
      e.continuation.generation ≤ s.coordinator.generation)
    {hosts : σ → τ → Prop} {waits : Prop} {presenter : Presenter τ} {store : Store τ}
    {commands : CommandTable τ} {host : τ}
    (furnishes : (s.pairing hosts waits).Furnishes s presenter commands host)
    (stores : (s.pairing hosts waits).Stores s.coordinator.store store) :
    (s.pairing hosts waits).Sessions False s
      ((opening presenter store s.coordinator.settings s.coordinator.text commands host).loaded
        s.coordinator.machine.program) where
  host := furnishes.host
  coordinator := {
    program := rfl
    store := stores
    settings := rfl
    presenter := furnishes.presenter
    text := rfl
    commands := furnishes.commands
    lent := unlent
    timers := by
      refine ⟨⟨s.coordinator.timers.now.nanos, ?_, ?_⟩, fun clear _ e he => ?_⟩
      · exact (Nat.zero_add _).symm
      -- no timer of the session belongs to a dialogue that is still to come
      · have none : s.coordinator.timers.entries.filter (s.pairing hosts waits).isNew = [] := by
          refine List.filter_eq_nil_iff.mpr fun e he => ?_
          have before := old e he
          have same : (s.pairing hosts waits).isNew e =
            decide (s.coordinator.generation < e.continuation.generation) := rfl
          rw [same, decide_eq_true_eq]
          omega
        rw [none]
        exact .nil
      · rcases clear with begun | unleft
        · cases begun
        · rw [Classical.not_not.mp unleft] at he
          cases he
    generation := (Nat.zero_add _).symm
    suspension := ended.suspension
    woken := ended.asleep
    idle := fun _ => ⟨ended.notRunning, nofun, rfl⟩
    begun := nofun }

/-- Variables in memory are given their first values, and a dialogue starts. -/
theorem Recorded.reset_eq (limit : Nat) {s : Session σ} {m : MemoryStore}
    (native : s.coordinator.store = .memory m) : Recorded.reset limit s =
      Recorded.note [.halted none, .moment s.stop, .changed .reset] >>= fun _ =>
        Recorded.start limit
          (s.stop.withCoordinator { s.stop.coordinator with store := .memory m.reset }) := by
  have changed : Recorded.changeStore s.stop .reset =
      ⟨[.moment s.stop, .changed .reset], .ok (.ok (),
        s.stop.withCoordinator { s.stop.coordinator with store := .memory m.reset })⟩ := by
    have same : s.stop.coordinator.store = .memory m := native
    unfold Recorded.changeStore
    rw [same]
    rfl
  change (Recorded.note [.halted none] >>= fun _ => Recorded.changeStore s.stop .reset >>= _) = _
  rw [changed]
  rfl

/-- A start comes to the same as in a new session, and if there is such a node a dialogue has begun
    on both sides. -/
theorem Pairing.Runs.begins {P : Pairing σ τ} {s : Session σ} {s' : Session τ}
    (same : P.Sessions False s s') (notRunning : s.coordinator.phase ≠ .running) (limit : Nat)
    (node : String) : P.Runs (P.After (s.coordinator.machine.defines node = true) Eq)
      (Recorded.startAt limit s node) (Recorded.startAt limit s' node) := by
  cases entered : s.coordinator.machine.enter node with
  | ok m =>
    have resting := Coordinator.isRunning_eq_false_iff.mpr notRunning
    exact (Runs.enter limit same resting entered).after fun _ => trivial
  | error e =>
    refine (Runs.startAt limit same node).imp fun r r' agree => ?_
    obtain ⟨answers, now, _, agree⟩ := agree
    refine ⟨answers, now, fun defined => ?_, agree⟩
    unfold Machine.defines at defined
    unfold Machine.enter at entered
    cases program : s.coordinator.machine.program with
    | none =>
      rw [program] at defined
      cases defined
    | some p =>
      simp only [program, Option.any_some] at entered defined
      rw [if_pos defined] at entered
      cases entered

namespace Session

variable (presenter : Presenter σ) (store : Store σ) (settings : Settings) (text : Line → String)
  (commands : CommandTable σ) (host : σ)

/-- In any state that a session can come to and in which no dialogue goes on, a start and all that
    follows come to the same as in a new session with the same program, variables, texts and
    settings and a host that does the same, also where handles of earlier dialogues are used in
    between: the same is shown to presenter and handlers, the same replies and events come back,
    and the variables are the same. Only the clock of the first session may come to its end before
    that of the other. The next deadline is equally far away too, unless a handle of an earlier
    dialogue has been made to wait: since the start, or before it if there is no such node. A
    reset, in any state, comes to the same as a start in a new session. -/
theorem started_like_new (earlier : Nat) (past : List (Operation σ)) {s : Session σ}
    (reached : (opening presenter store settings text commands host).performAll earlier past =
      .ok s)
    (fair : Fair (Recorded.history earlier past
      (opening presenter store settings text commands host)).happenings)
    (hosts : σ → τ → Prop) (waits : Prop) (presenter' : Presenter τ) (commands' : CommandTable τ)
    (host' : τ) :
    (∀ store', s.coordinator.phase ≠ .running →
      let P := s.pairing hosts waits
      let new := (opening presenter' store' settings s.coordinator.text commands' host').loaded
        s.coordinator.machine.program
      P.Furnishes s presenter' commands' host' → P.Stores s.coordinator.store store' →
      ∀ limit node ops ops', List.Forall₂ P.Operations ops ops' →
        s.performAll limit (.startAt node :: ops) = .error .clockOverflow ∨
        P.Renews limit (.startAt node :: ops) s (.startAt node :: ops') new ∧
        (¬ waits → s.coordinator.machine.defines node = true ∨ s.coordinator.timers.entries = [] →
          ∀ n n', s.performAll limit (.startAt node :: ops) = .ok n →
            new.performAll limit (.startAt node :: ops') = .ok n' →
            n.coordinator.timers.nextWake = n'.coordinator.timers.nextWake)) ∧
    (store = .memory (.ofDefaults settings.initialVariables) →
      let P := s.stop.pairing hosts waits
      let new := (opening presenter' (.memory (.ofDefaults settings.initialVariables)) settings
        s.coordinator.text commands' host').loaded s.coordinator.machine.program
      P.Furnishes s presenter' commands' host' →
      ∀ limit ops ops', List.Forall₂ P.Operations ops ops' →
        s.performAll limit (.reset :: ops) = .error .clockOverflow ∨
        P.Renews limit (.reset :: ops) s (.start :: ops') new ∧
        (¬ waits → ∀ n n', s.performAll limit (.reset :: ops) = .ok n →
          new.performAll limit (.start :: ops') = .ok n' →
          n.coordinator.timers.nextWake = n'.coordinator.timers.nextWake)) := by
  have sound := opening_sound presenter store settings text commands host
  have course := Course.of_performAll reached
  have rests : s.coordinator.Rests := course.sound sound
  have same : s.coordinator.settings = settings := course.settings
  have unlent := performAll_unlent reached
  constructor
  · intro store' notRunning P new furnishes stores limit node ops ops' alike
    have clear := (course.clear sound (opening_clear presenter settings text commands host store)
      fair).1
    have ended : s.coordinator.Over := by
      rcases rests with ended | ⟨w, held⟩
      · exact ended
      · exact absurd held.running notRunning
    -- a timer waits with a handle that was handed out, and such a handle is not of a later dialogue
    have old : ∀ e ∈ s.coordinator.timers.entries,
        e.continuation.generation ≤ s.coordinator.generation := fun e he =>
      (clear.waits _ (List.mem_append_right _ (List.mem_map_of_mem he))).old
    have agree : P.Sessions False s new := by
      have agree := pairing_sessions ended unlent old furnishes stores
      rw [same] at agree
      exact agree
    have conducts : P.Conducts (s.coordinator.machine.defines node = true) limit
        (.startAt node :: ops) s (.startAt node :: ops') new :=
      .cons (.begins agree notRunning limit node) (fun _ _ => rfl) fun n n' since =>
        since.conducts alike
    refine (conducts.renews rfl).imp_right fun renews => ⟨renews, fun patient clear n n' => ?_⟩
    refine conducts.nextWake (clear.imp_right fun none => ?_) patient
    exact fun left => left none
  · intro native P new furnishes limit ops ops' alike
    subst native
    obtain ⟨m, stored, first⟩ := store_initial presenter _ settings text commands host reached
    have ended : s.stop.coordinator.Over := Coordinator.over_halt rests.asleep
    -- a reset is a stop and a start, with the first values of the variables in between
    let cleared := s.stop.withCoordinator { s.stop.coordinator with store := .memory m.reset }
    have agree : P.Sessions False cleared new := by
      have first : m.reset = .ofDefaults settings.initialVariables := by
        unfold MemoryStore.reset
        rw [first]
        rfl
      have stores : P.Stores cleared.coordinator.store
          (.memory (.ofDefaults settings.initialVariables)) := by
        rw [← first]
        exact .memory _
      have idle : cleared.coordinator.Over := ended.alike ⟨rfl, rfl, rfl, rfl⟩
      have agree := pairing_sessions (s := cleared) idle unlent nofun
        ⟨furnishes.presenter, furnishes.commands, furnishes.host⟩ stores
      have settings : cleared.coordinator.settings = settings := same
      rw [settings] at agree
      exact agree
    have conducts : P.Conducts False limit (.reset :: ops) s (.start :: ops') new := by
      refine .cons ?_ (fun _ _ => rfl) fun n n' since => since.conducts alike
      change P.Runs _ (Recorded.reset limit s) (Recorded.start limit new)
      rw [Recorded.reset_eq limit stored]
      have silence : Silence [(.halted none : Happening σ), .moment s.stop, .changed .reset] :=
        .cons ⟨id, rfl⟩ (.cons ⟨id, rfl⟩ (.one ⟨id, rfl⟩))
      exact .unseen silence (.start limit agree)
    refine (conducts.renews rfl).imp_right fun renews => ⟨renews, fun patient n n' => ?_⟩
    -- a reset stops the dialogue, which leaves no waits at all
    exact conducts.nextWake (.inr fun left => left rfl) patient

/-- A dialogue is stopped while a line is shown and started again, or reset, and the void handle of
    the line is used before the present one. And a void handle that is made to wait is found
    again after a start at a node that there is not. -/
theorem started_like_new_late :
    let past : List (Operation Unit) := [.add (.ofNode "Start" [.line "a" []]), .start, .stop]
    let program := some (Program.ofNode "Start" [.line "a" []])
    let new : Session Unit := (plain .waiting ()).loaded program
    let late (n : Nat) : List (Operation Unit) :=
      [.host (.resume ⟨2⟩ fun _ => .resume ⟨n⟩ fun _ => .done ()), .drainEvents]
    let prompt : List (Operation Unit) := [.host (.resume ⟨2⟩ fun _ => .done ()), .drainEvents]
    let waited := past ++ [.host (.resumeAfter ⟨2⟩ ⟨1, by decide⟩ fun _ => .done ())]
    (∃ s n, (plain .waiting ()).performAll 9 past = .ok s ∧
      s.performAll 9 (.startAt "Start" :: late 5) = .ok n ∧ n.coordinator.phase = .completed ∧
      (s.pairing (fun _ _ => True) False).Renews 9 (.startAt "Start" :: late 5) s
        (.startAt "Start" :: prompt) new ∧
      (s.stop.pairing (fun _ _ => True) False).Renews 9 (.reset :: late 6) s
        (.start :: prompt) new) ∧
    ∃ s n n', (plain .waiting ()).performAll 9 waited = .ok s ∧
      s.performAll 9 [.startAt "Nowhere"] = .ok n ∧ new.performAll 9 [.startAt "Nowhere"] = .ok n' ∧
      n'.coordinator.timers.nextWake = none ∧ n.coordinator.timers.nextWake ≠ none := by
  intro past program new late prompt waited
  have furnishes {P : Pairing Unit Unit} {s : Session Unit} (hosts : P.hosts s.host ())
      (presenter : s.coordinator.presenter = .waiting) (commands : s.coordinator.commands = .empty) :
      P.Furnishes s .waiting .empty () := by
    refine ⟨?_, ?_, hosts⟩
    · rw [presenter]
      exact ⟨fun _ => .done rfl, .done rfl, fun _ _ _ _ _ => .done rfl, fun _ _ _ _ _ => .done rfl,
        fun _ _ _ _ => .done rfl⟩
    · rw [commands]
      exact fun _ => .none
  have used {P : Pairing Unit Unit} {n : Nat} (old : 2 ≤ P.offset) (handles : P.Handles n 2) :
      List.Forall₂ P.Operations (late n) prompt :=
    .cons (.host (.lateResume old (.resume handles fun _ => .done rfl))) (.cons .drainEvents .nil)
  have alike := started_like_new .waiting (.memory .empty) .default (fun l => l.id) .empty () 9 past
    rfl (fair_of_unused rfl) (fun _ _ => True) False .waiting .empty ()
  refine ⟨⟨_, _, rfl, rfl, rfl, ?_, ?_⟩, _, _, _, rfl, rfl, rfl, rfl, nofun⟩
  · have started := alike.1 (.memory .empty) nofun (furnishes trivial rfl rfl) (.memory _) 9 "Start"
      _ _ (used (n := 5) (by decide) ⟨rfl, by decide⟩)
    exact (started.resolve_left nofun).1
  · have reset := alike.2 rfl (furnishes trivial rfl rfl) 9 _ _
      (used (n := 6) (by decide) ⟨rfl, by decide⟩)
    exact (reset.resolve_left nofun).1

end Session

end DialogueEngine
