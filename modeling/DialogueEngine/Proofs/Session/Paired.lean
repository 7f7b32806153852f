import DialogueEngine.Proofs.Session.Journal
import DialogueEngine.Proofs.Session.Pairing

/-! # Operations on two sessions at once

What an operation does to a session that has run before it does to a new one: the same is handed
over with handles of the same suspensions, the answer is the same, and afterwards both sessions
still agree. Only the clock of the first may come to its end before that of the other.

* `Shown`, `shown` — what presenter and handlers are given, with the numbers of a new session.
* `Pairing.Runs` — two recorded functions run alike.
* `Pairing.Runs.perform` — operations, by one lemma for each function.
-/

namespace DialogueEngine

variable {σ τ α β α' β' : Type}

/-! ## What is shown -/

/-- What the host is given: a start, or a yield with its handle. -/
inductive Shown where
  | started (node : String)
  | handed (y : Yield) (h : Option Handle)
  deriving DecidableEq

/-- The handle of the same suspension in a session whose numbers are smaller. -/
def Handle.back (offset : Nat) : Handle → Handle
  | .continuation c => .continuation ⟨c.generation - offset⟩
  | .selector s => .selector ⟨s.generation - offset⟩

def Happening.shown? (offset : Nat) : Happening σ → Option Shown
  | .entered node => some (.started node)
  | .delivered y h => some (.handed y (h.map (Handle.back offset)))
  | _ => none

/-- Everything that the host is given. -/
def shown (offset : Nat) (t : List (Happening σ)) : List Shown :=
  t.filterMap (Happening.shown? offset)

theorem shown_append (offset : Nat) (t l : List (Happening σ)) :
    shown offset (t ++ l) = shown offset t ++ shown offset l :=
  List.filterMap_append

theorem Silence.shown {t : List (Happening σ)} (silence : Silence t) (offset : Nat) :
    shown offset t = [] := by
  refine List.filterMap_eq_nil_iff.mpr fun a ha => ?_
  obtain ⟨unstarted, undelivered⟩ := silence a ha
  cases a with
  | entered node => exact absurd trivial unstarted
  | delivered y h => cases undelivered
  | _ => rfl

theorem Silence.same {t : List (Happening σ)} {t' : List (Happening τ)} (silence : Silence t)
    (silence' : Silence t') (offset : Nat) :
    DialogueEngine.shown offset t = DialogueEngine.shown 0 t' := by
  rw [silence.shown, silence'.shown]

theorem Handle.back_ofSuspension (w : Suspension) {n n' offset : Nat} (same : n = n' + offset) :
    (Handle.ofSuspension w n).back offset = .ofSuspension w n' := by
  have difference : n - offset = n' := by omega
  cases w <;> simp only [Handle.ofSuspension, Handle.back, difference]

/-! ## Two functions that run alike -/

/-- The same fault, or results that agree. -/
inductive Outcomes (R : α → β → Prop) : Except Fault α → Except Fault β → Prop
  | ok {a : α} {b : β} (same : R a b) : Outcomes R (.ok a) (.ok b)
  | fault (f : Fault) : Outcomes R (.error f) (.error f)

namespace Pairing

variable (P : Pairing σ τ)

/-- Both sides show the same and come to the same, unless the first clock has come to its end. -/
def Runs (R : α → β → Prop) (x : Recorded σ α) (y : Recorded τ β) : Prop :=
  x.outcome = .error .clockOverflow ∨
    shown P.offset x.happenings = shown 0 y.happenings ∧ Outcomes R x.outcome y.outcome

/-- Results that agree, with sessions that agree. -/
def With (begun : Prop) (R : α → β → Prop) (r : α × Session σ) (r' : β × Session τ) : Prop :=
  R r.1 r'.1 ∧ P.Sessions begun r.2 r'.2

/-- Sessions that agree, and in which a dialogue has begun if one had before. -/
def Since (begun : Prop) (s : Session σ) (s' : Session τ) : Prop :=
  ∃ now : Prop, (begun → now) ∧ P.Sessions now s s'

def After (begun : Prop) (R : α → β → Prop) (r : α × Session σ) (r' : β × Session τ) : Prop :=
  R r.1 r'.1 ∧ P.Since begun r.2 r'.2

variable {P} {begun : Prop} {s : Session σ} {s' : Session τ}

namespace Runs

variable {R : α → β → Prop} {R' : α' → β' → Prop}

theorem pure {a : α} {b : β} (same : R a b) :
    P.Runs R (Pure.pure a : Recorded σ α) (Pure.pure b : Recorded τ β) :=
  .inr ⟨rfl, .ok same⟩

theorem quiet {x : Except Fault α} {y : Except Fault β} (same : Outcomes R x y) :
    P.Runs R (Recorded.quiet x) (Recorded.quiet y) :=
  .inr ⟨rfl, same⟩

theorem note {l : List (Happening σ)} {l' : List (Happening τ)}
    (same : shown P.offset l = shown 0 l') :
    P.Runs Eq (Recorded.note l) (Recorded.note l') :=
  .inr ⟨same, .ok rfl⟩

theorem bind {x : Recorded σ α} {y : Recorded τ β} {f : α → Recorded σ α'}
    {g : β → Recorded τ β'} (first : P.Runs R x y)
    (next : ∀ a b, R a b → P.Runs R' (f a) (g b)) : P.Runs R' (x >>= f) (y >>= g) := by
  rcases first with beyond | ⟨same, outcomes⟩
  · refine .inl ?_
    rw [Recorded.outcome_bind, beyond]
    rfl
  · generalize hx : x.outcome = ox at outcomes
    generalize hy : y.outcome = oy at outcomes
    cases outcomes with
    | fault f =>
      rw [Recorded.bind_fault hx, Recorded.bind_fault hy]
      exact .inr ⟨same, .fault f⟩
    | @ok a b agree =>
      rcases next a b agree with beyond | ⟨same', outcomes'⟩
      · refine .inl ?_
        rw [Recorded.outcome_bind, hx]
        exact beyond
      · refine .inr ⟨?_, ?_⟩
        · rw [Recorded.happenings_bind hx, Recorded.happenings_bind hy, shown_append, shown_append,
            same, same']
        · rw [Recorded.outcome_bind, Recorded.outcome_bind, hx, hy]
          exact outcomes'

theorem imp {R R' : α → β → Prop} {x : Recorded σ α} {y : Recorded τ β} (runs : P.Runs R x y)
    (weaker : ∀ a b, R a b → R' a b) : P.Runs R' x y := by
  rcases runs with beyond | ⟨same, outcomes⟩
  · exact .inl beyond
  · refine .inr ⟨same, ?_⟩
    generalize x.outcome = ox, y.outcome = oy at outcomes
    cases outcomes with
    | ok agree => exact .ok (weaker _ _ agree)
    | fault f => exact .fault f

theorem after {now : Prop} {x : Recorded σ (α × Session σ)} {y : Recorded τ (β × Session τ)}
    {R : α → β → Prop} (runs : P.Runs (P.With now R) x y) (begins : begun → now) :
    P.Runs (P.After begun R) x y :=
  runs.imp fun _ _ agree => ⟨agree.1, now, begins, agree.2⟩

theorem noted {l : List (Happening σ)} {l' : List (Happening τ)} {x : Recorded σ α}
    {y : Recorded τ β} (same : shown P.offset l = shown 0 l') (next : P.Runs R x y) :
    P.Runs R (Recorded.note l >>= fun _ => x) (Recorded.note l' >>= fun _ => y) :=
  (note same).bind fun _ _ _ => next

/-- Both sides go on with the same result. -/
theorem onward {x : Recorded σ (α × Session σ)} {y : Recorded τ (α × Session τ)}
    {f : α × Session σ → Recorded σ α'} {g : α × Session τ → Recorded τ β'}
    (first : P.Runs (P.With begun Eq) x y)
    (next : ∀ a n n', P.Sessions begun n n' → P.Runs R' (f (a, n)) (g (a, n'))) :
    P.Runs R' (x >>= f) (y >>= g) := by
  refine first.bind fun r r' agree => ?_
  obtain ⟨a, n⟩ := r
  obtain ⟨a', n'⟩ := r'
  obtain ⟨same, sessions⟩ := agree
  cases same
  exact next a n n' sessions

/-- Something happens on the first side only, and nothing of it is shown. -/
theorem unseen {l : List (Happening σ)} {x : Recorded σ α} {y : Recorded τ β}
    (silence : Silence l) (next : P.Runs R x y) :
    P.Runs R (Recorded.note l >>= fun _ => x) y := by
  rcases next with beyond | ⟨same, outcomes⟩
  · exact .inl beyond
  · refine .inr ⟨?_, outcomes⟩
    have parts : (Recorded.note l >>= fun _ => x).happenings = l ++ x.happenings := rfl
    rw [parts, shown_append, silence.shown, same]
    rfl

/-! ## Host code inside an operation -/

theorem wake {place : Place} (same : P.Sessions begun s s') {used more : List (Happening σ)}
    {used' more' : List (Happening τ)} (silence : Silence used) (silence' : Silence used')
    (also : Silence more) (also' : Silence more') {use : Coordinator.Use σ}
    {use' : Coordinator.Use τ} (uses : P.Uses begun use use') :
    P.Runs (P.With begun Eq) (Recorded.wake place s used more use)
      (Recorded.wake place s' used' more' use') := by
  have nothing := silence.same silence' P.offset
  cases uses with
  | ignored => exact .inr ⟨nothing, .ok ⟨rfl, same⟩⟩
  | refused e => exact .inr ⟨nothing, .ok ⟨rfl, same⟩⟩
  | failed e =>
    cases place with
    | handover => exact .inr ⟨nothing, .ok ⟨rfl, same⟩⟩
    | store => exact .inr ⟨nothing, .fault _⟩
  | resumed _ agree =>
    cases place with
    | handover =>
      exact .inr ⟨(silence.append also).same (silence'.append also') _,
        .ok ⟨rfl, agree.withWoken true, same.host⟩⟩
    | store => exact .inr ⟨nothing, .fault _⟩

theorem delay (same : P.Sessions begun s s') {k k' : Continuation}
    (handles : P.Handles k.generation k'.generation) (d : Duration)
    {use : Coordinator.Use σ → Recorded σ (Answer σ Unit)}
    {use' : Coordinator.Use τ → Recorded τ (Answer τ Unit)}
    (atOnce : P.Runs (P.With begun Eq) (use (s.coordinator.useContinuation k))
      (use' (s'.coordinator.useContinuation k'))) :
    P.Runs (P.With begun Eq) (Recorded.delay s k d use) (Recorded.delay s' k' d use') := by
  unfold Recorded.delay
  split
  · exact atOnce
  · rcases same.coordinator.schedule handles d with beyond | ⟨n, n', first, second, agree⟩
    · rw [beyond]
      exact .inl rfl
    · rw [first, second]
      exact .inr ⟨rfl, .ok ⟨rfl, agree, same.host⟩⟩

/-- A handle of an earlier dialogue is used, at once or after a time. -/
theorem delay_old (same : P.Sessions begun s s') {k : Continuation} (old : P.Old k.generation)
    {d : Duration} (allowed : d.isZero = true ∨ P.waits)
    (use : Coordinator.Use σ → Recorded σ (Answer σ Unit)) {l : List (Happening σ)}
    (silence : Silence l) (ignored : use .ignored = ⟨l, .ok (.ok (), s)⟩) :
    (Recorded.delay s k d use).outcome = .error .clockOverflow ∨
      ∃ l n, Silence l ∧ Recorded.delay s k d use = ⟨l, .ok (.ok (), n)⟩ ∧
        P.Sessions begun n s' := by
  unfold Recorded.delay
  split
  · rw [Coordinator.useContinuation_stale (same.coordinator.isLive_old old)]
    exact .inr ⟨l, s, silence, ignored, same⟩
  · rename_i later
    have waits : P.waits := allowed.resolve_left later
    rcases same.coordinator.schedule_old old waits d with beyond | ⟨n, first, agree⟩
    · rw [beyond]
      exact .inl rfl
    · rw [first]
      exact .inr ⟨_, _, .used _, rfl, agree, same.host⟩

theorem within (e : Errand) {act : Act σ α} {act' : Act τ β} (acts : P.Acts R act act')
    (same : P.Sessions begun s s') :
    P.Runs (P.With begun R) (Recorded.within e act s) (Recorded.within e act' s') := by
  induction acts generalizing s s' with
  | done result => exact noted rfl (pure ⟨result, same⟩)
  | read _ ih => exact noted rfl (ih _ _ same.host same)
  | @write x y k k' hosts _ ih =>
    have wrote := ((Silence.moment s).append (.writes e x)).same
      ((Silence.moment s').append (.writes e y)) P.offset
    exact noted wrote (ih ⟨same.coordinator, hosts⟩)
  | resume handles _ ih =>
    exact noted rfl ((wake same (.used _) (.used _) .nil .nil
      (same.coordinator.useContinuation handles)).onward fun r _ _ => ih r)
  | resumeAfter handles _ ih =>
    exact noted rfl ((delay same handles _ (wake same (.used _) (.used _) .nil .nil
      (same.coordinator.useContinuation handles))).onward fun r _ _ => ih r)
  | select handles _ ih =>
    exact noted rfl ((wake same (.used _) (.used _) (.picked _) (.picked _)
      (same.coordinator.useSelector handles _)).onward fun r _ _ => ih r)
  | isStale handles _ ih =>
    refine noted rfl ?_
    rw [same.coordinator.isLive handles]
    exact ih _ same
  -- handles of earlier dialogues are used on the first side only, and they do nothing
  | @lateResume c k act old _ ih =>
    refine unseen (.moment s) ?_
    rw [Coordinator.useContinuation_stale (same.coordinator.isLive_old old)]
    exact unseen (.used (.continuation c)) (ih same)
  | @lateResumeAfter c d k act old allowed _ ih =>
    refine unseen (.moment s) ?_
    rcases delay_old same old allowed (Recorded.wake e.place s [.used (.continuation c)] [])
      (.used (.continuation c)) rfl with beyond | ⟨l, n, silence, delayed, agree⟩
    · refine .inl ?_
      rw [Recorded.outcome_bind, beyond]
      rfl
    · rw [delayed]
      exact unseen silence (ih agree)
  | @lateSelect h id k act old _ ih =>
    refine unseen (.moment s) ?_
    rw [Coordinator.useSelector_stale (same.coordinator.isLive_old old)]
    exact unseen (.used (.selector h)) (ih same)
  | lateIsStale old _ ih =>
    refine unseen (.moment s) ?_
    rw [same.coordinator.isLive_old old]
    exact ih same

/-! ## The drive -/

theorem nextYield (same : P.Sessions True s s') :
    P.Runs (P.With True Eq) (Recorded.nextYield s) (Recorded.nextYield s') := by
  have asked := same.coordinator.store.access s'.coordinator.machine.next
  unfold Recorded.nextYield
  rw [(same.coordinator.begun trivial).2.2]
  refine (within .machine asked same).bind fun r r' agree => ?_
  obtain ⟨⟨⟨y, m⟩, store⟩, n⟩ := r
  obtain ⟨⟨⟨y', m'⟩, store'⟩, n'⟩ := r'
  obtain ⟨⟨stepped, stores⟩, agree⟩ := agree
  cases stepped
  have answered := (agree.coordinator.withStore stores).withMachine (m := m) rfl fun _ => rfl
  exact noted rfl (pure ⟨rfl, answered, agree.host⟩)

theorem handOver (same : P.Sessions True s s') (y : Yield) (w : Suspension)
    {call : Nat → Act σ α} {call' : Nat → Act τ β}
    (calls : ∀ n n', P.Handles n n' → P.Acts R (call n) (call' n')) :
    P.Runs (P.With True R) (Recorded.handOver s y w call) (Recorded.handOver s' y w call') := by
  have numbers := (same.coordinator.suspend trivial w).generation
  refine noted ?_ (within .handover (calls _ _ ⟨numbers, Nat.succ_pos _⟩)
    ⟨same.coordinator.suspend trivial w, same.host⟩)
  have first := Handle.back_ofSuspension w numbers
  have second :=
    Handle.back_ofSuspension w (Nat.add_zero (s'.coordinator.suspend w).generation).symm
  simp only [shown, List.filterMap, Happening.shown?, Option.map, first, second]

theorem afterHandover (same : P.Sessions True s s') (pace : Pace) :
    P.With True Eq (s.afterHandover pace) (s'.afterHandover pace) := by
  unfold Session.afterHandover
  dsimp only
  rw [same.coordinator.woken]
  split
  · exact ⟨rfl, same.coordinator.withWoken false, same.host⟩
  · cases pace with
    | proceed => exact ⟨rfl, same.coordinator.invalidate trivial, same.host⟩
    | pause => exact ⟨rfl, same⟩

theorem handedOver (same : P.Sessions True s s')
    (r : Except CapabilityError Pace) :
    P.With True Eq (s.handedOver r) (s'.handedOver r) := by
  cases r with
  | error e => exact ⟨rfl, same⟩
  | ok pace => exact afterHandover same pace

theorem deliverCommand (same : P.Sessions True s s') (cmd : Command) :
    P.Runs (P.With True Eq) (Recorded.deliverCommand s cmd) (Recorded.deliverCommand s' cmd) := by
  have found := same.coordinator.commands.resolve cmd.tokens
  unfold Recorded.deliverCommand
  split
  · exact pure (afterHandover same .proceed)
  · generalize s.coordinator.commands.resolve cmd.tokens = h,
      s'.coordinator.commands.resolve cmd.tokens = h' at found
    cases found with
    | none =>
      dsimp only
      rw [same.coordinator.lent]
      split
      · exact quiet (.fault _)
      · exact (handOver same _ _ (same.coordinator.presenter.command cmd)).onward
          fun r _ _ agree => pure (handedOver agree r)
    | @some r r' founds =>
      obtain ⟨name, handler, args⟩ := r
      obtain ⟨name', handler', args'⟩ := r'
      obtain ⟨handlers, rfl⟩ := founds
      cases handlers with
      | immediate agree =>
        exact noted rfl ((within .handover (agree args) same).onward fun _ _ _ agree =>
          pure (afterHandover agree .proceed))
      | blocking agree =>
        exact (handOver same _ _ (agree args)).onward fun _ _ _ agree =>
          pure (afterHandover agree .pause)

theorem deliverEnd (same : P.Sessions True s s') :
    P.Runs (P.With True Eq) (Recorded.deliverEnd s) (Recorded.deliverEnd s') := by
  have machines := (same.coordinator.begun trivial).2.2
  have ended : P.Sessions True (s.withCoordinator s.coordinator.complete)
      (s'.withCoordinator s'.coordinator.complete) :=
    ⟨(same.coordinator.renewed machines .completed).emit .dialogueComplete, same.host⟩
  refine noted rfl ((within .handover ended.coordinator.presenter.completed ended).onward
    fun r _ _ agree => ?_)
  cases r with
  | ok => exact pure ⟨rfl, agree⟩
  | error e => exact pure ⟨rfl, agree⟩

theorem deliver (same : P.Sessions True s s') (y : Yield) :
    P.Runs (P.With True Eq) (Recorded.deliver s y) (Recorded.deliver s' y) := by
  cases y with
  | line l =>
    unfold Recorded.deliver
    rw [same.coordinator.text]
    exact (handOver same _ _ (same.coordinator.presenter.line l _)).onward
      fun r _ _ agree => pure (handedOver agree r)
  | choices cs =>
    unfold Recorded.deliver
    rw [same.coordinator.text]
    exact (handOver same _ _ (same.coordinator.presenter.choices cs _)).onward
      fun r _ _ agree => pure (handedOver agree _)
  | command cmd => exact deliverCommand same cmd
  | nodeStart node => exact noted rfl (pure ⟨rfl, same.coordinator.emit _, same.host⟩)
  | nodeComplete node => exact noted rfl (pure ⟨rfl, same.coordinator.emit _, same.host⟩)
  | dialogueComplete => exact deliverEnd same

theorem turn (same : P.Sessions True s s') :
    P.Runs (P.With True Eq) (Recorded.turn s) (Recorded.turn s') := by
  unfold Recorded.turn
  rw [same.coordinator.isRunning]
  split
  · refine (nextYield same).onward fun r n n' agree => ?_
    cases r with
    | error e => exact pure ⟨rfl, agree⟩
    | ok y => exact deliver agree y
  · exact pure ⟨rfl, same⟩

theorem settle (same : P.Sessions begun s s') : P.Sessions begun s.settle s'.settle :=
  ⟨same.coordinator.withWoken false, same.host⟩

theorem halt (same : P.Sessions begun s s') : P.Sessions True s.halt s'.halt :=
  ⟨same.coordinator.halt, same.host⟩

theorem run (limit : Nat) (same : P.Sessions True s s') :
    P.Runs (P.With True Eq) (Recorded.run limit s) (Recorded.run limit s') := by
  induction limit generalizing s s' with
  | zero => exact quiet (.fault _)
  | succ limit ih =>
    refine (turn same).onward fun r n n' agree => ?_
    cases r with
    | again => exact ih agree
    | rest => exact pure ⟨rfl, settle agree⟩
    | failed e => exact noted rfl (pure ⟨rfl, halt (settle agree)⟩)

/-! ## Host code between operations -/

theorem follow (limit : Nat) (same : P.Sessions begun s s') {used more : List (Happening σ)}
    {used' more' : List (Happening τ)} (silence : Silence used) (silence' : Silence used')
    (also : Silence more) (also' : Silence more') {use : Coordinator.Use σ}
    {use' : Coordinator.Use τ} (uses : P.Uses begun use use') :
    P.Runs (P.With begun Eq) (Recorded.follow limit s used more use)
      (Recorded.follow limit s' used' more' use') := by
  have nothing := silence.same silence' P.offset
  cases uses with
  | ignored => exact .inr ⟨nothing, .ok ⟨rfl, same⟩⟩
  | refused e => exact .inr ⟨nothing, .ok ⟨rfl, same⟩⟩
  | failed e => exact .inr ⟨nothing, .ok ⟨rfl, same⟩⟩
  | @resumed c c' begins agree =>
    -- a live handle belongs to a dialogue that has begun on both sides
    obtain rfl : begun = True := eq_true begins
    have resumed : P.Sessions True (s.withCoordinator c) (s'.withCoordinator c') :=
      ⟨agree, same.host⟩
    exact noted ((silence.append also).same (silence'.append also') _) (run limit (settle resumed))

theorem between (limit : Nat) {act : Act σ α} {act' : Act τ β} (acts : P.Acts R act act')
    (same : P.Sessions begun s s') :
    P.Runs (P.With begun R) (Recorded.between limit act s) (Recorded.between limit act' s') := by
  induction acts generalizing s s' with
  | done result => exact noted rfl (pure ⟨result, same⟩)
  | read _ ih => exact noted rfl (ih _ _ same.host same)
  | @write x y k k' hosts _ ih =>
    have wrote := ((Silence.moment s).append (.wrote x)).same
      ((Silence.moment s').append (.wrote y)) P.offset
    exact noted wrote (ih ⟨same.coordinator, hosts⟩)
  | resume handles _ ih =>
    exact noted rfl ((follow limit same (.used _) (.used _) .nil .nil
      (same.coordinator.useContinuation handles)).onward fun r _ _ => ih r)
  | resumeAfter handles _ ih =>
    exact noted rfl ((delay same handles _ (follow limit same (.used _) (.used _) .nil .nil
      (same.coordinator.useContinuation handles))).onward fun r _ _ => ih r)
  | select handles _ ih =>
    exact noted rfl ((follow limit same (.used _) (.used _) (.picked _) (.picked _)
      (same.coordinator.useSelector handles _)).onward fun r _ _ => ih r)
  | isStale handles _ ih =>
    refine noted rfl ?_
    rw [same.coordinator.isLive handles]
    exact ih _ same
  -- handles of earlier dialogues are used on the first side only, and they do nothing
  | @lateResume c k act old _ ih =>
    refine unseen (.moment s) ?_
    rw [Coordinator.useContinuation_stale (same.coordinator.isLive_old old)]
    exact unseen (.used (.continuation c)) (ih same)
  | @lateResumeAfter c d k act old allowed _ ih =>
    refine unseen (.moment s) ?_
    rcases delay_old same old allowed (Recorded.follow limit s [.used (.continuation c)] [])
      (.used (.continuation c)) rfl with beyond | ⟨l, n, silence, delayed, agree⟩
    · refine .inl ?_
      rw [Recorded.outcome_bind, beyond]
      rfl
    · rw [delayed]
      exact unseen silence (ih agree)
  | @lateSelect h id k act old _ ih =>
    refine unseen (.moment s) ?_
    rw [Coordinator.useSelector_stale (same.coordinator.isLive_old old)]
    exact unseen (.used (.selector h)) (ih same)
  | lateIsStale old _ ih =>
    refine unseen (.moment s) ?_
    rw [same.coordinator.isLive_old old]
    exact ih same

/-! ## Operations -/

theorem readVariable (same : P.Sessions begun s s') (name : String) :
    P.Runs (P.With begun Eq) (Recorded.readVariable s name) (Recorded.readVariable s' name) :=
  (within .client (same.coordinator.store.get name) same).onward fun _ _ _ agree =>
    pure ⟨rfl, agree⟩

theorem changeStore (same : P.Sessions begun s s') (change : Change) :
    P.Runs (P.With begun Eq) (Recorded.changeStore s change) (Recorded.changeStore s' change) := by
  refine (within .client (same.coordinator.store.change change) same).bind fun r r' agree => ?_
  obtain ⟨⟨answer, store⟩, n⟩ := r
  obtain ⟨⟨answer', store'⟩, n'⟩ := r'
  obtain ⟨⟨answers, stores⟩, agree⟩ := agree
  cases answers
  exact noted rfl (pure ⟨rfl, agree.coordinator.withStore stores, agree.host⟩)

theorem load (same : P.Sessions begun s s') (programs : List Program) :
    P.Runs (P.With begun Eq) (Recorded.load s programs) (Recorded.load s' programs) := by
  unfold Recorded.load Session.load
  rw [same.coordinator.isRunning]
  split
  · exact quiet (.ok ⟨rfl, same⟩)
  · cases Program.combine programs with
    | error e => exact quiet (.ok ⟨rfl, same⟩)
    | ok p =>
      exact .inr ⟨rfl, .ok ⟨rfl, same.coordinator.withMachine rfl fun _ => rfl, same.host⟩⟩

theorem add (same : P.Sessions begun s s') (p : Program) :
    P.Runs (P.With begun Eq) (Recorded.add s p) (Recorded.add s' p) := by
  have machines (q : Option Program) (begins : begun) :
      { s.coordinator.machine with program := q } =
        { s'.coordinator.machine with program := q } := by
    rw [(same.coordinator.begun begins).2.2]
  unfold Recorded.add Session.add Machine.add
  rw [same.coordinator.program]
  cases s'.coordinator.machine.program with
  | none =>
    exact .inr ⟨rfl, .ok ⟨rfl, same.coordinator.withMachine rfl (machines _), same.host⟩⟩
  | some old =>
    cases merged : old.merge p with
    | error e =>
      simp only [merged, Except.map]
      exact quiet (.ok ⟨rfl, same⟩)
    | ok q =>
      simp only [merged, Except.map]
      exact .inr ⟨rfl, .ok ⟨rfl, same.coordinator.withMachine rfl (machines _), same.host⟩⟩

theorem clear (same : P.Sessions begun s s') :
    P.Runs (P.With begun Eq) (Recorded.clear s) (Recorded.clear s') := by
  unfold Recorded.clear Session.clear
  rw [same.coordinator.isRunning]
  split
  · exact quiet (.ok ⟨rfl, same⟩)
  · exact .inr ⟨rfl, .ok ⟨rfl, same.coordinator.withMachine rfl fun _ => rfl, same.host⟩⟩

/-- A start that passes its check. -/
theorem enter (limit : Nat) (same : P.Sessions begun s s') {node : String} {m : Machine}
    (notRunning : s.coordinator.isRunning = false)
    (entered : s.coordinator.machine.enter node = .ok m) :
    P.Runs (P.With True Eq) (Recorded.startAt limit s node) (Recorded.startAt limit s' node) := by
  have began : P.Sessions True (s.withCoordinator (s.coordinator.begin m))
      (s'.withCoordinator (s'.coordinator.begin m)) :=
    ⟨same.coordinator.renewed rfl .running, same.host⟩
  unfold Recorded.startAt
  rw [← same.coordinator.isRunning, notRunning,
    ← Machine.enter_congr same.coordinator.program node, entered]
  refine noted rfl ((within .handover (began.coordinator.presenter.started node) began).onward
    fun r n n' agree => ?_)
  cases r with
  | error e => exact noted rfl (pure ⟨rfl, halt agree⟩)
  | ok => exact run limit (settle agree)

theorem startAt (limit : Nat) (same : P.Sessions begun s s') (node : String) :
    P.Runs (P.After begun Eq) (Recorded.startAt limit s node) (Recorded.startAt limit s' node) := by
  cases running : s.coordinator.isRunning with
  | true =>
    unfold Recorded.startAt
    rw [← same.coordinator.isRunning, running]
    exact (quiet (.ok ⟨rfl, same⟩)).after id
  | false =>
    cases entered : s.coordinator.machine.enter node with
    | error e =>
      unfold Recorded.startAt
      rw [← same.coordinator.isRunning, running,
        ← Machine.enter_congr same.coordinator.program node, entered]
      exact (quiet (.ok ⟨rfl, same⟩)).after id
    | ok m => exact (enter limit same running entered).after fun _ => trivial

theorem start (limit : Nat) (same : P.Sessions begun s s') :
    P.Runs (P.After begun Eq) (Recorded.start limit s) (Recorded.start limit s') := by
  unfold Recorded.start
  rw [same.coordinator.settings]
  exact startAt limit same _

theorem proceed (limit : Nat) (same : P.Sessions begun s s') :
    P.Runs (P.With begun Eq) (Recorded.proceed limit s) (Recorded.proceed limit s') := by
  unfold Recorded.proceed
  rw [same.coordinator.isRunning, same.coordinator.suspension]
  split
  · rename_i running
    have begins := same.coordinator.of_running (Coordinator.isRunning_iff.mp running)
    obtain rfl : begun = True := eq_true begins
    split
    · exact quiet (.ok ⟨rfl, same⟩)
    · exact run limit (settle ⟨same.coordinator.invalidate trivial, same.host⟩)
  · exact quiet (.ok ⟨rfl, same⟩)

theorem choose (limit : Nat) (same : P.Sessions begun s s') (id : Nat) :
    P.Runs (P.With begun Eq) (Recorded.choose limit s id) (Recorded.choose limit s' id) := by
  unfold Recorded.choose
  rw [same.coordinator.isRunning]
  split
  · exact follow limit same .nil .nil (.picked id) (.picked id) (same.coordinator.pick id)
  · exact quiet (.ok ⟨rfl, same⟩)

theorem stop (same : P.Sessions begun s s') :
    P.Runs (P.With True Eq) (Recorded.stop s) (Recorded.stop s') :=
  .inr ⟨rfl, .ok ⟨rfl, halt same⟩⟩

theorem reset (limit : Nat) (same : P.Sessions begun s s') :
    P.Runs (P.After True Eq) (Recorded.reset limit s) (Recorded.reset limit s') := by
  refine (stop same).onward fun _ n n' agree => (changeStore agree .reset).onward
    fun r n n' agree => ?_
  cases r with
  | error e => exact (pure ⟨rfl, agree⟩).after id
  | ok => exact start limit agree

theorem loadSome (same : P.Sessions begun s s') (programs : List Program) :
    P.Runs (P.With begun Eq) (Recorded.loadSome s programs) (Recorded.loadSome s' programs) := by
  unfold Recorded.loadSome
  split
  · exact pure ⟨rfl, same⟩
  · exact load same programs

theorem startIfSet (limit : Nat) (same : P.Sessions begun s s') :
    P.Runs (P.After begun Eq) (Recorded.startIfSet limit s) (Recorded.startIfSet limit s') := by
  unfold Recorded.startIfSet
  rw [same.coordinator.settings]
  split
  · exact start limit same
  · exact (pure ⟨rfl, same⟩).after id

theorem prepare (limit : Nat) (same : P.Sessions begun s s') (programs : List Program) :
    P.Runs (P.After begun Eq) (Recorded.prepare limit s programs)
      (Recorded.prepare limit s' programs) := by
  refine (changeStore same .reset).onward fun r n n' agree => ?_
  cases r with
  | error e => exact (pure ⟨rfl, agree⟩).after id
  | ok =>
    refine (loadSome agree programs).onward fun r n n' agree => ?_
    cases r with
    | error e => exact (pure ⟨rfl, agree⟩).after id
    | ok => exact startIfSet limit agree

/-- Of the handles that are due those of earlier dialogues do nothing. -/
theorem resumeAll (limit : Nat) {due due' : List Continuation} (same : P.Sessions begun s s')
    (alike : List.Forall₂ (fun k k' => P.Handles k.generation k'.generation)
      (due.filter fun k => P.offset < k.generation) due') :
    P.Runs (P.With begun Eq) (Recorded.resumeAll limit s due)
      (Recorded.resumeAll limit s' due') := by
  induction due generalizing due' s s' with
  | nil =>
    cases alike
    exact pure ⟨rfl, same⟩
  | cons k due ih =>
    by_cases new : P.offset < k.generation
    · rw [List.filter_cons_of_pos (by simpa using new)] at alike
      cases alike with
      | cons handles rest =>
        refine (follow limit same .nil .nil .nil .nil
          (same.coordinator.useContinuation handles)).onward fun r n n' agree => ?_
        cases r with
        | error e => exact pure ⟨rfl, agree⟩
        | ok => exact ih agree rest
    · rw [List.filter_cons_of_neg (by simpa using new)] at alike
      have stale := same.coordinator.isLive_old (Nat.le_of_not_lt new)
      have skipped : Recorded.resumeAll limit s (k :: due) = Recorded.resumeAll limit s due := by
        rw [Recorded.resumeAll, Coordinator.useContinuation_stale stale]
        rfl
      rw [skipped]
      exact ih same alike

theorem update (limit : Nat) (same : P.Sessions begun s s') (delta : Duration) :
    P.Runs (P.With begun Eq) (Recorded.update limit s delta) (Recorded.update limit s' delta) := by
  unfold Recorded.update
  rcases same.coordinator.timers.advance delta with
    beyond | ⟨due, u, due', u', first, second, agree⟩
  · rw [beyond]
    exact .inl rfl
  · rw [first, second]
    exact resumeAll limit ⟨same.coordinator.withTimers agree.1, same.host⟩ agree.2

theorem equip (limit : Nat) (same : P.Sessions begun s s')
    {act : CommandTable σ → Act σ (Except CapabilityError Unit × CommandTable σ)}
    {act' : CommandTable τ → Act τ (Except CapabilityError Unit × CommandTable τ)}
    (acts : ∀ t t', P.Tables t t' → P.Acts P.Returns (act t) (act' t')) :
    P.Runs (P.With begun Eq) (Recorded.equip limit s act) (Recorded.equip limit s' act') := by
  have lent : P.Sessions begun s.lend s'.lend :=
    ⟨same.coordinator.withCommands (fun _ => .none) true, same.host⟩
  refine (between limit (acts _ _ same.coordinator.commands) lent).bind fun r r' agree => ?_
  obtain ⟨⟨answer, t⟩, n⟩ := r
  obtain ⟨⟨answer', t'⟩, n'⟩ := r'
  obtain ⟨⟨answers, tables⟩, agree⟩ := agree
  cases answers
  exact pure ⟨rfl, agree.coordinator.withCommands tables false, agree.host⟩

theorem perform (limit : Nat) (same : P.Sessions begun s s') {op : Operation σ}
    {op' : Operation τ} (ops : P.Operations op op') :
    P.Runs (P.After begun Eq) (Recorded.perform limit s op) (Recorded.perform limit s' op') := by
  cases ops with
  | prepare programs => exact prepare limit same programs
  | load programs => exact (load same programs).after id
  | add p => exact (add same p).after id
  | start => exact start limit same
  | startAt node => exact startAt limit same node
  | proceed => exact (proceed limit same).after id
  | choose id => exact (choose limit same id).after fun begins => begins
  | stop => exact (stop same).after fun _ => trivial
  | reset =>
    refine (reset limit same).imp fun _ _ agree => ?_
    obtain ⟨answers, now, begins, agree⟩ := agree
    exact ⟨answers, now, fun _ => begins trivial, agree⟩
  | clear => exact (clear same).after id
  | update delta => exact (update limit same delta).after id
  | host acts =>
    refine after ?_ fun (begins : begun) => begins
    exact (between limit acts same).onward fun _ _ _ agree => pure ⟨rfl, agree⟩
  | readVariable name =>
    refine after ?_ fun (begins : begun) => begins
    exact (readVariable same name).onward fun _ _ _ agree => pure ⟨rfl, agree⟩
  | writeVariable name value => exact (changeStore same _).after id
  | clearVariables => exact (changeStore same _).after id
  | resetVariables => exact (changeStore same _).after id
  | setText text =>
    exact (quiet (.ok ⟨rfl, { same.coordinator with text := rfl }, same.host⟩)).after id
  | register name handlers =>
    have tables := (same.coordinator.commands.insert name handlers).2
    exact (quiet (.ok ⟨rfl, same.coordinator.withCommands tables false, same.host⟩)).after id
  | unregister name =>
    have tables := (same.coordinator.commands.remove name).2
    exact (quiet (.ok ⟨rfl, same.coordinator.withCommands tables false, same.host⟩)).after id
  | equip acts => exact (equip limit same acts).after id
  | drainEvents =>
    exact (quiet (.ok ⟨rfl, { same.coordinator with }, same.host⟩)).after id

end Runs

end Pairing

end DialogueEngine
