import Mathlib.Data.List.Sort
import DialogueEngine.Coordinator.Timers

/-! # Timers in the order of their deadlines

Timers are put in order by the insertion sort of the library, and some of them can be left out
before or after.
-/

namespace DialogueEngine.Timers

/-- A timer is due before another one, or with it. -/
def Before (e e' : Timer) : Prop := e.deadline.nanos ≤ e'.deadline.nanos

instance : DecidableRel Before := fun e e' => Nat.decLe e.deadline.nanos e'.deadline.nanos

instance : Std.Total Before := ⟨fun _ _ => Nat.le_total _ _⟩

instance : IsTrans Timer Before := ⟨fun _ _ _ => Nat.le_trans⟩

variable {e : Timer} {es : List Timer}

theorem insertByDeadline_eq (e : Timer) (es : List Timer) :
    insertByDeadline e es = es.orderedInsert Before e := by
  induction es with
  | nil => rfl
  | cons e' es ih =>
    rw [insertByDeadline, ih]
    rfl

theorem sortByDeadline_eq (es : List Timer) : sortByDeadline es = es.insertionSort Before :=
  congrArg (es.foldr · []) (funext₂ insertByDeadline_eq)

theorem mem_sortByDeadline : e ∈ sortByDeadline es ↔ e ∈ es := by
  rw [sortByDeadline_eq, List.mem_insertionSort]

theorem ordered_sortByDeadline (es : List Timer) : (sortByDeadline es).Pairwise Before := by
  rw [sortByDeadline_eq]
  exact List.pairwise_insertionSort Before es

theorem filter_orderedInsert (ordered : es.Pairwise Before) (p : Timer → Bool) :
    (es.orderedInsert Before e).filter p =
      if p e then (es.filter p).orderedInsert Before e else es.filter p := by
  induction es with
  | nil => cases h : p e <;> simp [h]
  | cons e' es ih =>
    obtain ⟨first, rest⟩ := List.pairwise_cons.mp ordered
    by_cases before : Before e e'
    · -- the timer comes first, also of those that are kept
      have kept : ∀ x ∈ (e' :: es).filter p, Before e x := by
        intro x hx
        rcases List.mem_cons.mp (List.mem_filter.mp hx).1 with rfl | hx
        · exact before
        · exact Nat.le_trans before (first x hx)
      rw [List.orderedInsert_cons_of_le _ _ before, List.filter_cons]
      cases left : (e' :: es).filter p with
      | nil => rfl
      | cons x xs =>
        rw [List.orderedInsert_cons_of_le _ _ (kept x (left ▸ List.mem_cons_self))]
    · rw [List.orderedInsert_of_not_le _ _ before]
      by_cases kept : p e' = true
      · rw [List.filter_cons_of_pos kept, List.filter_cons_of_pos kept, ih rest,
          List.orderedInsert_of_not_le _ _ before]
        split <;> rfl
      · rw [List.filter_cons_of_neg kept, List.filter_cons_of_neg kept, ih rest]

theorem filter_swap (p q : Timer → Bool) (es : List Timer) :
    (es.filter p).filter q = (es.filter q).filter p := by
  simp only [List.filter_filter, Bool.and_comm]

/-- Timers can be left out before they are put in order, or after. -/
theorem filter_sortByDeadline (p : Timer → Bool) (es : List Timer) :
    (sortByDeadline es).filter p = sortByDeadline (es.filter p) := by
  simp only [sortByDeadline_eq]
  induction es with
  | nil => rfl
  | cons e es ih =>
    rw [List.insertionSort_cons, filter_orderedInsert (List.pairwise_insertionSort Before es), ih,
      List.filter_cons]
    split <;> rfl

end DialogueEngine.Timers
