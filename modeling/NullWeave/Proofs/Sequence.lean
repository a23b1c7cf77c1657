import Mathlib.Data.List.Forall2
import Mathlib.Data.List.Perm.Basic

/-!
# Running in sequence

A computation that keeps a state and may fail runs its parts one after another,
each in the state that the part before it left.  A failure ends the run and
keeps the state that it found.
-/

namespace NullWeave

section Sequence

variable {ε σ α β : Type}

/-- Two attempts in sequence succeed exactly if the first and what follows from it do. -/
theorem bind_eq_ok_iff
    {first : Except ε α} {next : α → Except ε β} {result : β} :
    (first >>= next) = .ok result ↔
      ∃ value, first = .ok value ∧ next value = .ok result := by
  cases first <;> simp [bind, Except.bind]

theorem map_eq_ok_iff {make : α → β} {attempt : Except ε α} {result : β} :
    make <$> attempt = .ok result ↔ ∃ value, attempt = .ok value ∧ make value = result := by
  cases attempt <;> simp [Functor.map, Except.map]

/-- Two readers in sequence succeed exactly if the second does where the first one stops. -/
theorem runs_bind_iff {first : StateT σ (Except ε) α} {next : α → StateT σ (Except ε) β}
    {state final : σ} {result : β} :
    (first >>= next).run state = .ok (result, final) ↔
      ∃ value between, first.run state = .ok (value, between) ∧
        (next value).run between = .ok (result, final) := by
  rw [StateT.run_bind, bind_eq_ok_iff]
  simp

/-- A list of attempts succeeds exactly if each of them does. -/
theorem mapM_eq_ok_iff
    {step : α → Except ε β} {items : List α} {results : List β} :
    items.mapM step = .ok results ↔
      List.Forall₂ (fun item result => step item = .ok result)
        items results := by
  induction items generalizing results with
  | nil =>
      simp [pure, Except.pure, eq_comm]
  | cons item rest inductionHypothesis =>
      rw [List.mapM_cons, List.forall₂_cons_left_iff]
      simp only [← inductionHypothesis]
      cases step item with
      | error failure =>
          simp [bind, Except.bind]
      | ok value =>
          cases rest.mapM step <;>
            simp [bind, Except.bind, pure, Except.pure, eq_comm]

theorem exists_mapM_eq_ok {step : α → Except ε β} {items : List α}
    (each : ∀ item ∈ items, ∃ result, step item = .ok result) :
    ∃ results, items.mapM step = .ok results := by
  simp only [mapM_eq_ok_iff]
  induction items with
  | nil =>
      exact ⟨[], .nil⟩
  | cons item rest inductionHypothesis =>
      obtain ⟨⟨result, here⟩, later⟩ := List.forall_mem_cons.mp each
      obtain ⟨results, there⟩ := inductionHypothesis later
      exact ⟨result :: results, .cons here there⟩

/-- Each result of a list of attempts is that of one of the items. -/
theorem exists_of_mem_mapM_eq_ok
    {step : α → Except ε β} {items : List α} {results : List β}
    (went : items.mapM step = .ok results) {result : β} (member : result ∈ results) :
    ∃ item ∈ items, step item = .ok result := by
  have pairs := mapM_eq_ok_iff.mp went
  clear went
  induction pairs with
  | nil =>
      cases member
  | cons here _ inductionHypothesis =>
      rcases List.mem_cons.mp member with rfl | later
      · exact ⟨_, List.mem_cons_self .., here⟩
      · obtain ⟨item, among, there⟩ := inductionHypothesis later
        exact ⟨item, List.mem_cons_of_mem _ among, there⟩

theorem mapM_cons_eq_ok_iff
    {step : α → Except ε β} {item : α} {rest : List α} {results : List β} :
    (item :: rest).mapM step = .ok results ↔
      ∃ first others, step item = .ok first ∧ rest.mapM step = .ok others ∧
        results = first :: others := by
  rw [mapM_eq_ok_iff, List.forall₂_cons_left_iff]
  simp only [mapM_eq_ok_iff]

theorem mapM_eq_map_mapM {γ : Type}
    {step : α → Except ε β} {otherStep : α → Except ε γ} {change : β → γ}
    (commutes : ∀ item, otherStep item = change <$> step item) (items : List α) :
    items.mapM otherStep = List.map change <$> items.mapM step := by
  induction items with
  | nil =>
      rfl
  | cons item rest inductionHypothesis =>
      rw [List.mapM_cons, List.mapM_cons, commutes, inductionHypothesis]
      cases step item <;> cases rest.mapM step <;> rfl

/-- Items that go with each other show the same where each two of them do. -/
theorem map_eq_map_of_forall₂ {γ δ ζ : Type} {goes : γ → δ → Prop} {shown : γ → ζ}
    {seen : δ → ζ} {items : List γ} {others : List δ} (pairs : List.Forall₂ goes items others)
    (same : ∀ item other, goes item other → seen other = shown item) :
    others.map seen = items.map shown := by
  induction pairs with
  | nil =>
      rfl
  | cons here _ inductionHypothesis =>
      rw [List.map_cons, List.map_cons, same _ _ here, inductionHypothesis]

/-- Items go with those that go with what they go with. -/
theorem forall₂_comp {γ δ ζ : Type} {goes : γ → δ → Prop} {goesOn : δ → ζ → Prop}
    {items : List γ} {others : List δ} {results : List ζ} (first : List.Forall₂ goes items others)
    (second : List.Forall₂ goesOn others results) :
    List.Forall₂ (fun item result => ∃ other, goes item other ∧ goesOn other result)
      items results := by
  induction first generalizing results with
  | nil =>
      cases second
      exact .nil
  | cons here _ inductionHypothesis =>
      obtain ⟨result, rest, there, later, rfl⟩ := List.forall₂_cons_left_iff.mp second
      exact .cons ⟨_, here, there⟩ (inductionHypothesis later)

/-- What each result shows of its item is the same for all of them. -/
theorem map_eq_map_of_mapM_eq_ok {γ : Type} {step : α → Except ε β} {shown : α → γ}
    {seen : β → γ} (shows : ∀ item result, step item = .ok result → seen result = shown item)
    {items : List α} {results : List β} (went : items.mapM step = .ok results) :
    results.map seen = items.map shown :=
  map_eq_map_of_forall₂ (mapM_eq_ok_iff.mp went) shows

/-- Attempts on the same items in another order, up to a change of items, go as well. -/
theorem exists_mapM_of_perm {γ δ : Type}
    {step : α → Except ε β} {otherStep : γ → Except ε δ} {take : α → γ} {change : β → δ}
    {items : List α} {results : List β} {order : List γ}
    (follows : ∀ item result, step item = .ok result → otherStep (take item) = .ok (change result))
    (reordered : order.Perm (items.map take)) (went : items.mapM step = .ok results) :
    ∃ others, order.mapM otherStep = .ok others ∧ others.Perm (results.map change) := by
  have pairs : List.Forall₂ (fun item result => otherStep item = .ok result)
      (items.map take) (results.map change) := by
    rw [List.forall₂_map_left_iff, List.forall₂_map_right_iff]
    exact (mapM_eq_ok_iff.mp went).imp follows
  obtain ⟨others, there, same⟩ := List.perm_comp_forall₂ reordered pairs
  exact ⟨others, mapM_eq_ok_iff.mpr there, same⟩

/-- An item at a position parts its list there. -/
theorem exists_split_of_getElem? {items : List α} {index : Nat} {item : α}
    (here : items[index]? = some item) :
    ∃ front back, items = front ++ item :: back ∧ front.length = index := by
  obtain ⟨inside, rfl⟩ := List.getElem?_eq_some_iff.mp here
  refine ⟨items.take index, items.drop (index + 1), ?_, ?_⟩
  · rw [List.getElem_cons_drop, List.take_append_drop]
  · rw [List.length_take]
    omega

theorem exists_of_mapM_eq_error
    {step : α → Except ε β} {items : List α} {failure : ε}
    (failed : items.mapM step = .error failure) :
    ∃ item ∈ items, step item = .error failure := by
  induction items with
  | nil =>
      cases failed
  | cons item rest inductionHypothesis =>
      rw [List.mapM_cons] at failed
      cases here : step item with
      | error first =>
          rw [here] at failed
          cases failed
          exact ⟨item, List.mem_cons_self .., here⟩
      | ok value =>
          rw [here] at failed
          cases later : rest.mapM step with
          | error second =>
              rw [later] at failed
              cases failed
              obtain ⟨other, member, there⟩ := inductionHypothesis later
              exact ⟨other, List.mem_cons_of_mem _ member, there⟩
          | ok values =>
              rw [later] at failed
              cases failed

theorem run_bind
    (first : ExceptT ε (StateM σ) α) (next : α → ExceptT ε (StateM σ) β)
    (state : σ) :
    (first >>= next).run state =
      match first.run state with
      | (.ok value, reached) => (next value).run reached
      | (.error failure, reached) => (.error failure, reached) := by
  change (match first.run state with
    | (result, reached) =>
        (ExceptT.bindCont next result : StateM σ _) reached) = _
  rcases first.run state with ⟨_ | _, _⟩ <;> rfl

theorem run_get_bind
    (next : σ → ExceptT ε (StateM σ) α) (state : σ) :
    (get >>= next : ExceptT ε (StateM σ) α).run state =
      (next state).run state := rfl

theorem run_getThe_bind
    (next : σ → ExceptT ε (StateM σ) α) (state : σ) :
    (getThe σ >>= next : ExceptT ε (StateM σ) α).run state =
      (next state).run state := rfl

theorem run_ok_bind
    (value : α) (next : α → ExceptT ε (StateM σ) β) (state : σ) :
    ((liftM (.ok value : Except ε α) : ExceptT ε (StateM σ) α) >>=
        next).run state =
      (next value).run state := rfl

theorem run_tryCatch
    (first : ExceptT ε (StateM σ) α) (other : ε → ExceptT ε (StateM σ) α)
    (state : σ) :
    (tryCatchThe ε first other).run state =
      match first.run state with
      | (.ok value, reached) => (.ok value, reached)
      | (.error failure, reached) => (other failure).run reached := by
  change (ExceptT.tryCatch first other).run state = _
  simp only [ExceptT.tryCatch, ExceptT.mk, ExceptT.run, bind, StateT.bind]
  rcases first state with ⟨_ | _, _⟩ <;> rfl

theorem run_bind_eq_error
    {first : ExceptT ε (StateM σ) α} {next : α → ExceptT ε (StateM σ) β}
    {state final : σ} {failure : ε}
    (failed : (first >>= next).run state = (.error failure, final)) :
    first.run state = (.error failure, final) ∨
      ∃ value reached,
        first.run state = (.ok value, reached) ∧
          (next value).run reached = (.error failure, final) := by
  rw [run_bind] at failed
  rcases ran : first.run state with ⟨early | value, reached⟩
  · rw [ran] at failed
    cases failed
    exact .inl rfl
  · rw [ran] at failed
    exact .inr ⟨value, reached, rfl, failed⟩

theorem run_bind_eq_ok
    {first : ExceptT ε (StateM σ) α} {next : α → ExceptT ε (StateM σ) β}
    {state final : σ} {result : β}
    (went : (first >>= next).run state = (.ok result, final)) :
    ∃ value reached,
      first.run state = (.ok value, reached) ∧
        (next value).run reached = (.ok result, final) := by
  rw [run_bind] at went
  rcases ran : first.run state with ⟨early | value, reached⟩
  · rw [ran] at went
    cases went
  · rw [ran] at went
    exact ⟨value, reached, rfl, went⟩

theorem run_bind_eq_ok_iff
    {first : ExceptT ε (StateM σ) α} {next : α → ExceptT ε (StateM σ) β}
    {state final : σ} {result : β} :
    (first >>= next).run state = (.ok result, final) ↔
      ∃ value reached,
        first.run state = (.ok value, reached) ∧
          (next value).run reached = (.ok result, final) := by
  refine ⟨run_bind_eq_ok, ?_⟩
  rintro ⟨value, reached, ran, later⟩
  rw [run_bind, ran]
  exact later

/-- What a run over a list makes is what its first step makes and the others go on with. -/
theorem run_forM_cons_eq_ok
    {step : β → ExceptT ε (StateM σ) Unit} {item : β} {rest : List β}
    {state reached : σ} :
    ((item :: rest).forM step).run state = (.ok (), reached) ↔
      ∃ between,
        (step item).run state = (.ok (), between) ∧
          (rest.forM step).run between = (.ok (), reached) := by
  change (step item >>= fun _ => rest.forM step).run state = _ ↔ _
  rw [run_bind_eq_ok_iff]
  exact ⟨fun ⟨_, between, ran⟩ => ⟨between, ran⟩, fun ⟨between, ran⟩ => ⟨(), between, ran⟩⟩

theorem run_mapM_cons_eq_ok
    {step : α → ExceptT ε (StateM σ) β} {item : α} {rest : List α}
    {state reached : σ} {results : List β} :
    ((item :: rest).mapM step).run state = (.ok results, reached) ↔
      ∃ first between others,
        (step item).run state = (.ok first, between) ∧
          (rest.mapM step).run between = (.ok others, reached) ∧ results = first :: others := by
  rw [List.mapM_cons, run_bind_eq_ok_iff]
  refine exists_congr fun first => exists_congr fun between => ?_
  rw [run_bind_eq_ok_iff]
  constructor
  · rintro ⟨ran, others, last, later, same⟩
    cases same
    exact ⟨others, ran, later, rfl⟩
  · rintro ⟨others, ran, later, rfl⟩
    exact ⟨ran, others, reached, later, rfl⟩

/--
A run over a list whose steps read something from the state and add it there.

If what is added never changes what is read, everything may be read at the start.
-/
theorem run_forM_eq_ok_iff {δ γ : Type}
    {step : β → ExceptT ε (StateM σ) Unit} (good : σ → Prop)
    (read : σ → β → Except δ γ) (add : σ → γ → σ)
    (keeps : ∀ state result, good state → good (add state result))
    (stable : ∀ state result item, good state → read (add state result) item = read state item)
    (steps : ∀ item state reached, good state →
      ((step item).run state = (.ok (), reached) ↔
        ∃ result, read state item = .ok result ∧ reached = add state result))
    {items : List β} {state reached : σ} (start : good state) :
    (items.forM step).run state = (.ok (), reached) ↔
      ∃ results, items.mapM (read state) = .ok results ∧ reached = results.foldl add state := by
  induction items generalizing state with
  | nil =>
      constructor
      · rintro ⟨⟩
        exact ⟨[], rfl, rfl⟩
      · rintro ⟨_, ⟨⟩, rfl⟩
        rfl
  | cons item rest inductionHypothesis =>
      rw [run_forM_cons_eq_ok]
      constructor
      · rintro ⟨between, first, later⟩
        obtain ⟨result, here, rfl⟩ := (steps item state between start).mp first
        obtain ⟨results, there, rfl⟩ := (inductionHypothesis (keeps state result start)).mp later
        rw [funext fun item => stable state result item start] at there
        refine ⟨result :: results, ?_, rfl⟩
        rw [List.mapM_cons, here]
        exact bind_eq_ok_iff.mpr ⟨_, rfl, bind_eq_ok_iff.mpr ⟨_, there, rfl⟩⟩
      · rintro ⟨_, all, rfl⟩
        rw [List.mapM_cons] at all
        obtain ⟨result, here, later⟩ := bind_eq_ok_iff.mp all
        obtain ⟨results, there, same⟩ := bind_eq_ok_iff.mp later
        cases same
        refine ⟨add state result, (steps item state _ start).mpr ⟨result, here, rfl⟩,
          (inductionHypothesis (keeps state result start)).mpr ⟨results, ?_, rfl⟩⟩
        rw [funext fun item => stable state result item start]
        exact there

/-- What only may fail runs without touching the state. -/
theorem run_lift_bind
    (first : Except ε α) (next : α → ExceptT ε (StateM σ) β) (state : σ) :
    ((liftM first : ExceptT ε (StateM σ) α) >>= next).run state =
      match first with
      | .ok value => (next value).run state
      | .error failure => (.error failure, state) := by
  cases first <;> rfl

/-- A run over a list whose steps leave the state alone leaves it alone. -/
theorem run_mapM_of_still
    {step : α → ExceptT ε (StateM σ) β} {result : α → Except ε β}
    (still : ∀ item state, (step item).run state = (result item, state))
    (items : List α) (state : σ) :
    (items.mapM step).run state = (items.mapM result, state) := by
  induction items with
  | nil =>
      rfl
  | cons item rest inductionHypothesis =>
      rw [List.mapM_cons, List.mapM_cons, run_bind, still]
      cases result item with
      | error failure =>
          rfl
      | ok value =>
          dsimp only
          rw [run_bind, inductionHypothesis]
          cases rest.mapM result <;> rfl

/-- A run over a list fails at one of its members, after it went well before. -/
theorem run_forM_eq_error
    {step : β → ExceptT ε (StateM σ) Unit} {items : List β}
    {state final : σ} {failure : ε}
    (failed : (items.forM step).run state = (.error failure, final)) :
    ∃ before item after reached,
      items = before ++ item :: after ∧
        (before.forM step).run state = (.ok (), reached) ∧
        (step item).run reached = (.error failure, final) := by
  induction items generalizing state with
  | nil =>
      cases failed
  | cons item rest inductionHypothesis =>
      rcases run_bind_eq_error failed with here | ⟨_, next, well, later⟩
      · exact ⟨[], item, rest, state, rfl, rfl, here⟩
      · obtain ⟨before, other, after, reached, split, ran, there⟩ :=
          inductionHypothesis later
        refine ⟨item :: before, other, after, reached, by rw [split]; rfl,
          ?_, there⟩
        change (step item >>= fun _ => before.forM step).run state = _
        rw [run_bind, well]
        exact ran

theorem run_forM_append
    (step : β → ExceptT ε (StateM σ) Unit) (front back : List β)
    (state : σ) :
    ((front ++ back).forM step).run state =
      (front.forM step >>= fun _ => back.forM step).run state := by
  have split :
      (front ++ back).forM step =
        (front.forM step >>= fun _ => back.forM step) :=
    List.forM_append
  exact congrFun (congrArg ExceptT.run split) state

/-- What every step makes of the items before it and its own, a run over a list makes of all. -/
theorem run_forM_induction
    {step : β → ExceptT ε (StateM σ) Unit} {made : List β → σ → Prop}
    (makes : ∀ done item state reached, made done state →
      (step item).run state = (.ok (), reached) →
        made (done ++ [item]) reached)
    {items : List β} {state reached : σ} (start : made [] state)
    (ran : (items.forM step).run state = (.ok (), reached)) :
    made items reached := by
  suffices onwards : ∀ done state, made done state →
      (items.forM step).run state = (.ok (), reached) →
        made (done ++ items) reached by
    exact onwards [] state start ran
  clear start ran
  induction items with
  | nil =>
      intro done state here ran
      cases ran
      simpa using here
  | cons item rest inductionHypothesis =>
      intro done state here ran
      change (step item >>= fun _ => rest.forM step).run state = _ at ran
      obtain ⟨_, between, first, later⟩ := run_bind_eq_ok ran
      have behind :=
        inductionHypothesis (done ++ [item]) between
          (makes done item state between here first) later
      simpa using behind

/-- What every step keeps, a run over a list that goes well keeps. -/
theorem run_forM_keeps
    {step : β → ExceptT ε (StateM σ) Unit} {kept : σ → Prop}
    (keeps : ∀ item state reached, kept state →
      (step item).run state = (.ok (), reached) → kept reached)
    {items : List β} {state reached : σ} (start : kept state)
    (ran : (items.forM step).run state = (.ok (), reached)) :
    kept reached :=
  run_forM_induction (fun _ item => keeps item) start ran

end Sequence

end NullWeave
