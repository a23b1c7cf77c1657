import NullWeave.Proofs.Sequence

/-!
# Values and errors alike

An attempt ends in a value or in an error, and often something is known of
either: what was read fits, and what went wrong is told of a line that is there.
Both are followed through attempts in sequence at once, so no computation has to
be gone through twice.
-/

namespace NullWeave

section Outcomes

variable {ε σ α β : Type}

/-! ## Attempts -/

/-- Does an attempt end in a value that fits, or in an error that may be told? -/
def EndsIn (fits : α → Prop) (tells : ε → Prop) : Except ε α → Prop
  | .ok value => fits value
  | .error error => tells error

variable {fits : α → Prop} {fitsToo : β → Prop} {tells : ε → Prop}

theorem EndsIn.of_ok {attempt : Except ε α} {value : α} (ends : EndsIn fits tells attempt)
    (went : attempt = .ok value) : fits value := by
  rw [went] at ends
  exact ends

theorem EndsIn.of_error {attempt : Except ε α} {error : ε} (ends : EndsIn fits tells attempt)
    (failed : attempt = .error error) : tells error := by
  rw [failed] at ends
  exact ends

theorem EndsIn.mono {attempt : Except ε α} {fits' : α → Prop} {tells' : ε → Prop}
    (ends : EndsIn fits tells attempt) (wider : ∀ value, fits value → fits' value)
    (widerToo : ∀ error, tells error → tells' error) : EndsIn fits' tells' attempt := by
  cases attempt with
  | ok value =>
      exact wider value ends
  | error error =>
      exact widerToo error ends

/-- What an attempt makes is also known to be what it makes. -/
theorem EndsIn.andMade {attempt : Except ε α} (ends : EndsIn fits tells attempt) :
    EndsIn (fun value => fits value ∧ attempt = .ok value) tells attempt := by
  cases attempt with
  | ok value =>
      exact ⟨ends, rfl⟩
  | error error =>
      exact ends

theorem EndsIn.bind {first : Except ε α} {next : α → Except ε β} (ends : EndsIn fits tells first)
    (endsNext : ∀ value, fits value → EndsIn fitsToo tells (next value)) :
    EndsIn fitsToo tells (first >>= next) := by
  cases first with
  | ok value =>
      exact endsNext value ends
  | error error =>
      exact ends

/-- Attempts on the items of a list end well if each of them does. -/
theorem endsIn_mapM {step : α → Except ε β} {items : List α} {suits : α → β → Prop}
    (each : ∀ item ∈ items, EndsIn (suits item) tells (step item)) :
    EndsIn (List.Forall₂ suits items) tells (items.mapM step) := by
  induction items with
  | nil =>
      exact .nil
  | cons item rest inductionHypothesis =>
      obtain ⟨here, there⟩ := List.forall_mem_cons.mp each
      rw [List.mapM_cons]
      refine here.bind fun value suitsItem => ?_
      refine (inductionHypothesis there).bind fun values suitRest => ?_
      exact .cons suitsItem suitRest

/-- Where lists go together item by item, each item on the right goes with one on the left. -/
theorem exists_mem_left {goes : α → β → Prop} {left : List α} {right : List β}
    (together : List.Forall₂ goes left right) {item : β} (member : item ∈ right) :
    ∃ other ∈ left, goes other item := by
  induction together with
  | nil =>
      contradiction
  | cons here _ inductionHypothesis =>
      rcases List.mem_cons.mp member with rfl | later
      · exact ⟨_, List.mem_cons_self .., here⟩
      · obtain ⟨other, among, there⟩ := inductionHypothesis later
        exact ⟨other, List.mem_cons_of_mem _ among, there⟩

/-! ## Readers -/

/--
Started where something holds, does a reader end as it should?

What it takes and what it leaves stand in a relation, or its error may be told.
-/
def ReaderEnds (pre : σ → Prop) (post : α → σ → Prop) (tells : ε → Prop)
    (reader : StateT σ (Except ε) α) : Prop :=
  ∀ start, pre start → EndsIn (fun result => post result.1 result.2) tells (reader.run start)

variable {pre holds : σ → Prop} {post : α → σ → Prop} {postToo : β → σ → Prop}

theorem readerEnds_pure {value : α} (suits : ∀ start, pre start → post value start) :
    ReaderEnds pre post tells (pure value : StateT σ (Except ε) α) :=
  suits

theorem readerEnds_throw {error : ε} (told : tells error) :
    ReaderEnds pre post tells (throw error : StateT σ (Except ε) α) :=
  fun _ _ => told

/-- A reader of which nothing is asked. -/
theorem readerEnds_any (reader : StateT σ (Except ε) α) :
    ReaderEnds pre (fun _ _ => True) (fun _ => True) reader := by
  intro start _
  cases reader.run start <;> trivial

/-- An attempt within a reader takes nothing. -/
theorem readerEnds_lift {attempt : Except ε α} (ends : EndsIn fits tells attempt)
    (suits : ∀ value, fits value → ∀ start, pre start → post value start) :
    ReaderEnds pre post tells (liftM attempt : StateT σ (Except ε) α) := by
  intro start here
  cases attempt with
  | ok value =>
      exact suits value ends start here
  | error error =>
      exact ends

theorem ReaderEnds.mono {reader : StateT σ (Except ε) α} {pre' : σ → Prop}
    {post' : α → σ → Prop} (ends : ReaderEnds pre post tells reader)
    (narrower : ∀ start, pre' start → pre start)
    (wider : ∀ value left, post value left → post' value left) :
    ReaderEnds pre' post' tells reader :=
  fun start here =>
    (ends start (narrower start here)).mono (fun result => wider result.1 result.2)
      fun _ told => told

theorem ReaderEnds.bind {first : StateT σ (Except ε) α} {next : α → StateT σ (Except ε) β}
    (ends : ReaderEnds pre post tells first)
    (endsNext : ∀ value, ReaderEnds (post value) postToo tells (next value)) :
    ReaderEnds pre postToo tells (first >>= next) := by
  intro start here
  rw [StateT.run_bind]
  exact (ends start here).bind fun result between => endsNext result.1 result.2 between

/-- What is known of the value alone is known from there on. -/
theorem ReaderEnds.andThen {first : StateT σ (Except ε) α}
    {next : α → StateT σ (Except ε) β}
    (ends : ReaderEnds pre (fun value left => fits value ∧ holds left) tells first)
    (endsNext : ∀ value, fits value → ReaderEnds holds postToo tells (next value)) :
    ReaderEnds pre postToo tells (first >>= next) :=
  ends.bind fun value left known => endsNext value known.1 left known.2

theorem ReaderEnds.map {reader : StateT σ (Except ε) α} {make : α → β}
    (ends : ReaderEnds pre (fun value left => postToo (make value) left) tells reader) :
    ReaderEnds pre postToo tells (make <$> reader) := by
  rw [← bind_pure_comp]
  exact ends.bind fun value => readerEnds_pure fun left known => known

/-- What is done with what is there, of which no more is known than before. -/
theorem readerEnds_get_bind {next : σ → StateT σ (Except ε) α}
    (ends : ∀ start, ReaderEnds pre post tells (next start)) :
    ReaderEnds pre post tells (get >>= next) :=
  fun start here => ends start start here

/-- What is done with what is there, and still is there. -/
theorem readerEnds_get_bind_same {next : σ → StateT σ (Except ε) α}
    (ends : ∀ start, pre start → ReaderEnds (· = start) post tells (next start)) :
    ReaderEnds pre post tells (get >>= next) :=
  fun start here => ends start here start rfl

/-- What is done after something else was put there. -/
theorem readerEnds_set_bind {start : σ} {next : PUnit → StateT σ (Except ε) α}
    (here : holds start) (ends : ReaderEnds holds post tells (next ⟨⟩)) :
    ReaderEnds pre post tells (set start >>= next) :=
  fun _ _ => ends start here

/-- What is left does not count when a reader is done. -/
theorem ReaderEnds.run' {reader : StateT σ (Except ε) α}
    (ends : ReaderEnds pre (fun value left => fits value ∧ holds left) tells reader) {start : σ}
    (here : pre start) : EndsIn fits tells (reader.run' start) := by
  have there := ends start here
  change EndsIn fits tells (Prod.fst <$> reader.run start)
  cases ran : reader.run start with
  | ok result =>
      exact (there.of_ok ran).1
  | error error =>
      exact there.of_error ran

/-- Readers for the items of a list, one after another, end well if each of them does. -/
theorem readerEnds_mapM {step : α → StateT σ (Except ε) β}
    {items : List α} {suits : α → β → Prop}
    (each : ∀ item ∈ items,
      ReaderEnds holds (fun value left => suits item value ∧ holds left) tells (step item)) :
    ReaderEnds holds (fun values left => List.Forall₂ suits items values ∧ holds left) tells
      (items.mapM step) := by
  induction items with
  | nil =>
      exact readerEnds_pure fun start here => ⟨.nil, here⟩
  | cons item rest inductionHypothesis =>
      obtain ⟨here, there⟩ := List.forall_mem_cons.mp each
      rw [List.mapM_cons]
      refine here.andThen fun value suitsItem => ?_
      refine (inductionHypothesis there).andThen fun values suitRest => ?_
      exact readerEnds_pure fun left known => ⟨.cons suitsItem suitRest, known⟩

/-! ## Computations that keep their state when they fail -/

/-- From whatever state, does a computation end in a value that fits, or may its error be told? -/
def RunEnds (fits : α → Prop) (tells : ε → Prop) (computation : ExceptT ε (StateM σ) α) :
    Prop :=
  ∀ start, EndsIn fits tells (computation.run start).1

theorem runEnds_pure {value : α} (suits : fits value) :
    RunEnds fits tells (pure value : ExceptT ε (StateM σ) α) :=
  fun _ => suits

theorem runEnds_throw {error : ε} (told : tells error) :
    RunEnds fits tells (throw error : ExceptT ε (StateM σ) α) :=
  fun _ => told

theorem RunEnds.bind {first : ExceptT ε (StateM σ) α} {next : α → ExceptT ε (StateM σ) β}
    (ends : RunEnds fits tells first)
    (endsNext : ∀ value, fits value → RunEnds fitsToo tells (next value)) :
    RunEnds fitsToo tells (first >>= next) := by
  intro start
  have here := ends start
  rw [run_bind]
  rcases ran : first.run start with ⟨error | value, reached⟩
  · exact here.of_error (congrArg Prod.fst ran)
  · exact endsNext value (here.of_ok (congrArg Prod.fst ran)) reached

theorem runEnds_forM {step : α → ExceptT ε (StateM σ) Unit} {items : List α}
    (each : ∀ item ∈ items, RunEnds (fun _ => True) tells (step item)) :
    RunEnds (fun _ => True) tells (items.forM step) := by
  induction items with
  | nil =>
      exact runEnds_pure trivial
  | cons item rest inductionHypothesis =>
      obtain ⟨here, there⟩ := List.forall_mem_cons.mp each
      exact here.bind fun _ _ => inductionHypothesis there

theorem runEnds_mapM {step : α → ExceptT ε (StateM σ) β} {items : List α}
    (each : ∀ item ∈ items, RunEnds fitsToo tells (step item)) :
    RunEnds (fun values => ∀ value ∈ values, fitsToo value) tells (items.mapM step) := by
  induction items with
  | nil =>
      exact runEnds_pure (List.forall_mem_nil _)
  | cons item rest inductionHypothesis =>
      obtain ⟨here, there⟩ := List.forall_mem_cons.mp each
      rw [List.mapM_cons]
      refine here.bind fun value fitsHere => ?_
      refine (inductionHypothesis there).bind fun values fitThere => ?_
      exact runEnds_pure (List.forall_mem_cons.mpr ⟨fitsHere, fitThere⟩)

end Outcomes

end NullWeave
