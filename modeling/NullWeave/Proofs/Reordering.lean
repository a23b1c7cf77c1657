import NullWeave.Proofs.Sequence

/-!
# Runs whose steps may change places

Where any two neighbours of a list may change places, the order of the list
makes no difference to a run over it.  What the swapped steps leave need not be
equal: it is enough that it cannot be told apart by the steps that follow.
-/

namespace NullWeave

section Reordering

variable {ε σ β : Type}

/--
What lets the steps of a run change places, up to a relation between states:
every step respects the relation, and two neighbours can be swapped wherever
the list is ready to run.
-/
structure Reorders
    (step : β → ExceptT ε (StateM σ) Unit)
    (agrees : σ → σ → Prop) (ready : List β → σ → Prop) : Prop where
  refl : ∀ state, agrees state state
  trans : ∀ first second third,
    agrees first second → agrees second third → agrees first third
  respects : ∀ item left right reached, agrees left right →
    (step item).run left = (.ok (), reached) →
      ∃ done, (step item).run right = (.ok (), done) ∧ agrees reached done
  perm : ∀ items order state,
    items.Perm order → ready items state → ready order state
  behind : ∀ item rest state reached, ready (item :: rest) state →
    (step item).run state = (.ok (), reached) → ready rest reached
  swaps : ∀ first second rest state between reached,
    ready (first :: second :: rest) state →
      (step first).run state = (.ok (), between) →
      (step second).run between = (.ok (), reached) →
        ∃ other done,
          (step second).run state = (.ok (), other) ∧
            (step first).run other = (.ok (), done) ∧
            agrees reached done

namespace Reorders

variable
    {step : β → ExceptT ε (StateM σ) Unit}
    {agrees : σ → σ → Prop} {ready : List β → σ → Prop}

/-- A run over a list respects what every step respects. -/
theorem run_forM
    (reorders : Reorders step agrees ready) {items : List β}
    {left right reached : σ} (same : agrees left right)
    (ran : (items.forM step).run left = (.ok (), reached)) :
    ∃ done, (items.forM step).run right = (.ok (), done) ∧
      agrees reached done := by
  induction items generalizing left right with
  | nil =>
      cases ran
      exact ⟨right, rfl, same⟩
  | cons item rest inductionHypothesis =>
      obtain ⟨between, first, later⟩ := run_forM_cons_eq_ok.mp ran
      obtain ⟨other, firstThere, sameThere⟩ :=
        reorders.respects item left right between same first
      obtain ⟨done, laterThere, sameDone⟩ :=
        inductionHypothesis sameThere later
      exact ⟨done,
        run_forM_cons_eq_ok.mpr ⟨other, firstThere, laterThere⟩, sameDone⟩

/-- A run that goes well in one order goes well in every order, with the same result. -/
theorem run_forM_of_perm
    (reorders : Reorders step agrees ready) {items order : List β}
    (reordered : items.Perm order) {state reached : σ}
    (start : ready items state)
    (ran : (items.forM step).run state = (.ok (), reached)) :
    ∃ done, (order.forM step).run state = (.ok (), done) ∧
      agrees reached done := by
  induction reordered generalizing state reached with
  | nil =>
      exact ⟨reached, ran, reorders.refl reached⟩
  | cons item _ inductionHypothesis =>
      obtain ⟨between, first, later⟩ := run_forM_cons_eq_ok.mp ran
      obtain ⟨done, there, same⟩ :=
        inductionHypothesis (reorders.behind _ _ _ _ start first) later
      exact ⟨done, run_forM_cons_eq_ok.mpr ⟨between, first, there⟩, same⟩
  | swap second first rest =>
      obtain ⟨between, here, ran⟩ := run_forM_cons_eq_ok.mp ran
      obtain ⟨behind, next, later⟩ := run_forM_cons_eq_ok.mp ran
      obtain ⟨other, swapped, nextFirst, hereSecond, same⟩ :=
        reorders.swaps _ _ _ _ _ _ start here next
      obtain ⟨done, there, sameDone⟩ := reorders.run_forM same later
      exact ⟨done,
        run_forM_cons_eq_ok.mpr ⟨other, nextFirst,
          run_forM_cons_eq_ok.mpr ⟨swapped, hereSecond, there⟩⟩, sameDone⟩
  | trans early _ firstHypothesis secondHypothesis =>
      obtain ⟨middle, reachesMiddle, sameMiddle⟩ :=
        firstHypothesis start ran
      obtain ⟨done, there, sameDone⟩ :=
        secondHypothesis (reorders.perm _ _ _ early start) reachesMiddle
      exact ⟨done, there, reorders.trans _ _ _ sameMiddle sameDone⟩

end Reorders

end Reordering

end NullWeave
