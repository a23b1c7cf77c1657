import NullWeave.Proofs.Machine.Preservation
import NullWeave.Proofs.Weave.EntryGuards
import NullWeave.Proofs.Weave.GuardCount

/-!
# The order of entry guards

Parameters are visited from the last to the first and each guard is put in front
of what is there, so the guards stand in the order of the parameters, whichever
of them are skipped.  The value given to a setter is looked at afterwards.  Its
guard is put in front of all others, though it is the last parameter: a setter
whose property has an index complains of the value first.
-/

namespace NullWeave

namespace MethodContext

/-! ## Parameters whose guards stand in front -/

/--
Are some parameters, the value given to a setter and others, guarded at the entry of a method, each
part in the order of the parameters?
-/
structure OrdersEntry (context : MethodContext) (value others : List (Parameter × Nat)) : Prop where
  last : value.Sublist (context.decl.parameters.zipIdx.filter context.isSetterValue)
  rest : others.Sublist
    (context.decl.parameters.zipIdx.filter fun entry => !context.isSetterValue entry)
  checked : ∀ entry ∈ value ++ others,
    context.policy.checksArgument context.graph entry.1 = true

variable {context : MethodContext} {settings : Settings}
variable {value others : List (Parameter × Nat)}

/-- A visit to a parameter adds the guard of this parameter, or none. -/
theorem exists_argumentGuard? (guarded : MethodBody) (entry : Parameter × Nat) :
    ∃ visited : List (Parameter × Nat), visited.Sublist [entry] ∧
      (context.argumentGuard? guarded entry).toList = visited.map context.entryGuard ∧
      ∀ entry ∈ visited, context.isSetterValue entry = false ∧
        context.policy.checksArgument context.graph entry.1 = true := by
  unfold argumentGuard?
  split
  · rename_i checked
    simp only [Bool.and_eq_true, bne_iff_ne] at checked
    obtain ⟨⟨⟨-, checks⟩, other⟩, -⟩ := checked
    have notValue : context.isSetterValue entry = false := by
      simpa [isSetterValue] using other
    refine ⟨[entry], .refl _, ?_, ?_⟩
    · simp [entryGuard, entryMessage, notValue]
    · exact List.forall_mem_singleton.mpr ⟨notValue, checks⟩
  · exact ⟨[], List.nil_sublist _, rfl, List.forall_mem_nil _⟩

/-- Visits from the last parameter to the first leave the guards in the order of the parameters. -/
theorem exists_argumentGuards (context : MethodContext) (style : GuardStyle)
    (guarded : GuardedBody) (entries : List (Parameter × Nat)) :
    ∃ visited : List (Parameter × Nat), visited.Sublist entries.reverse ∧
      context.argumentGuards style guarded entries = visited.map context.entryGuard ∧
      ∀ entry ∈ visited, context.isSetterValue entry = false ∧
        context.policy.checksArgument context.graph entry.1 = true := by
  induction entries generalizing guarded with
  | nil =>
      exact ⟨[], .refl _, rfl, List.forall_mem_nil _⟩
  | cons entry rest inductionHypothesis =>
      obtain ⟨later, among, guards, others⟩ :=
        inductionHypothesis (context.guardArgument style guarded entry)
      obtain ⟨here, single, guard, other⟩ := context.exists_argumentGuard? guarded.body entry
      refine ⟨later ++ here, ?_, ?_, List.forall_mem_append.mpr ⟨others, other⟩⟩
      · rw [List.reverse_cons]
        exact among.append single
      · rw [argumentGuards, guards, guard, List.map_append]

/-- The guard of the value given to a setter is one for the last parameter. -/
theorem exists_setterGuard? (guarded : MethodBody) :
    ∃ value : List (Parameter × Nat),
      value.Sublist (context.decl.parameters.zipIdx.filter context.isSetterValue) ∧
        (context.setterGuard? guarded).toList = value.map context.entryGuard ∧
        ∀ entry ∈ value, context.policy.checksArgument context.graph entry.1 = true := by
  cases guard : context.setterGuard? guarded with
  | none =>
      exact ⟨[], List.nil_sublist _, rfl, List.forall_mem_nil _⟩
  | some guard =>
      obtain ⟨⟨parameter, index⟩, chosen, checked⟩ := Option.bind_eq_some_iff.mp guard
      obtain ⟨_, found, there⟩ := Option.bind_eq_some_iff.mp chosen
      obtain ⟨_, here, same⟩ := Option.map_eq_some_iff.mp there
      cases same
      obtain ⟨holds, same⟩ := Option.ite_none_right_eq_some.mp checked
      cases same
      have isValue : context.isSetterValue (parameter, index) = true := by
        simp [isSetterValue, found]
      have among : (parameter, index) ∈
          context.decl.parameters.zipIdx.filter context.isSetterValue :=
        List.mem_filter.mpr ⟨List.mem_zipIdx_iff_getElem?.mpr here, isValue⟩
      simp only [Bool.and_eq_true] at holds
      refine ⟨[(parameter, index)], List.singleton_sublist.mpr among, ?_,
        List.forall_mem_singleton.mpr holds.1.2⟩
      simp [entryGuard, entryMessage, isValue]

/-- The guards in front of a body are those of the value given to a setter, and of others. -/
theorem exists_entryGuards (context : MethodContext) (settings : Settings) (body : MethodBody) :
    ∃ value others, context.OrdersEntry value others ∧
      context.entryGuards settings body = (value ++ others).map context.entryGuard := by
  obtain ⟨value, last, guard, checked⟩ := context.exists_setterGuard?
    (context.guardBeforeAccessor settings body).body
  by_cases arguments : context.policy.flags.arguments = true
  · obtain ⟨others, among, guards, each⟩ := context.exists_argumentGuards (style settings body)
      { body := body.widen } context.decl.parameters.zipIdx.reverse
    rw [List.reverse_reverse] at among
    have kept : others.filter (fun entry => !context.isSetterValue entry) = others :=
      List.filter_eq_self.mpr fun entry member => by simp [(each entry member).1]
    refine ⟨value, others, ⟨last, kept ▸ among.filter _, ?_⟩, ?_⟩
    · exact List.forall_mem_append.mpr ⟨checked, fun entry member => (each entry member).2⟩
    · rw [entryGuards, guard, if_pos arguments, guards, List.map_append]
  · refine ⟨value, [], ⟨last, List.nil_sublist _, ?_⟩, ?_⟩
    · rwa [List.append_nil]
    · rw [entryGuards, guard, if_neg arguments, List.append_nil, List.append_nil]

namespace OrdersEntry

theorem pairwise_others (orders : context.OrdersEntry value others) :
    (others.map (·.2)).Pairwise (· < ·) := by
  have whole : (context.decl.parameters.zipIdx.map (·.2)).Pairwise (· < ·) := by
    rw [List.zipIdx_map_snd]
    exact List.pairwise_lt_range'
  exact whole.sublist ((orders.rest.trans List.filter_sublist).map _)

/-- The value given to a setter comes behind all other parameters. -/
theorem lt_of_mem (orders : context.OrdersEntry value others) {entry other : Parameter × Nat}
    (member : entry ∈ value) (otherMember : other ∈ others) : other.2 < entry.2 := by
  have isValue := (List.mem_filter.mp (orders.last.subset member)).2
  obtain ⟨listed, notValue⟩ := List.mem_filter.mp (orders.rest.subset otherMember)
  have found : context.decl.setterValueIndex? = some entry.2 := by
    simpa [isSetterValue] using isValue
  obtain ⟨-, before, last, parameters, index⟩ := exists_of_setterValueIndex? found
  have inside := (List.mem_zipIdx' listed).1
  have apart : other.2 ≠ entry.2 := by
    intro same
    simp [isSetterValue, found, same] at notValue
  rw [parameters, List.length_append, List.length_singleton] at inside
  omega

theorem value_cases (orders : context.OrdersEntry value others) :
    value = [] ∨ ∃ entry, value = [entry] := by
  have last := orders.last
  cases found : context.decl.setterValueIndex? with
  | none =>
      have empty : context.decl.parameters.zipIdx.filter context.isSetterValue = [] := by
        simp [isSetterValue, found]
      rw [empty] at last
      exact .inl (List.sublist_nil.mp last)
  | some index =>
      obtain ⟨-, before, parameter, parameters, rfl⟩ := exists_of_setterValueIndex? found
      rw [filter_isSetterValue parameters found] at last
      exact (List.sublist_singleton.mp last).imp_right fun single => ⟨_, single⟩

/-- The guards stand in the order of the parameters unless a setter's value goes first. -/
theorem pairwise_iff (orders : context.OrdersEntry value others) :
    ((value ++ others).map (·.2)).Pairwise (· < ·) ↔ value = [] ∨ others = [] := by
  rw [List.map_append, List.pairwise_append]
  constructor
  · rintro ⟨-, -, before⟩
    by_contra both
    rw [not_or] at both
    obtain ⟨entry, member⟩ := List.exists_mem_of_ne_nil _ both.1
    obtain ⟨other, otherMember⟩ := List.exists_mem_of_ne_nil _ both.2
    have inOrder := before _ (List.mem_map_of_mem member) _ (List.mem_map_of_mem otherMember)
    exact Nat.lt_asymm inOrder (orders.lt_of_mem member otherMember)
  · intro alone
    have single : (value.map (·.2)).Pairwise (· < ·) := by
      rcases orders.value_cases with rfl | ⟨entry, rfl⟩
      · exact .nil
      · exact List.pairwise_singleton _ _
    refine ⟨single, orders.pairwise_others, ?_⟩
    rcases alone with rfl | rfl
    · exact fun _ member => absurd member (List.not_mem_nil)
    · exact fun _ _ _ member => absurd member (List.not_mem_nil)

end OrdersEntry

/-! ## Arguments that are null -/

section Running

variable {Reference World Effect : Type} {environment : Environment Reference World Effect}
variable {body : MethodBody} {world : World}

/-- Is the argument of a parameter null in a world, as the guard of the parameter sees it? -/
def FindsNull (context : MethodContext) (environment : Environment Reference World Effect)
    (world : World) (entry : Parameter × Nat) : Prop :=
  ∃ value, (context.entryGuard entry).subject.tested? environment [] world = some value ∧
    value.isNull = true

/-- Exceptions that leave the body are the same wherever they come from. -/
theorem fail_escape_relocate (machine : Machine Reference World Effect) (move : Nat → Nat)
    (guard : Guard) (world : World) :
    (machine.fail machine.escape guard world []).relocate move =
      machine.fail machine.escape guard world [] := by
  refine (machine.fail_relocate (fun exception world effects => ?_) guard world []).symm
  unfold Machine.escape
  split <;> rfl

/-- A run of the new body throws the exception of the first guard in front that finds null. -/
theorem exists_after_wovenBody (includes : context.graph.IncludesSystem)
    (ignores : settings.debugBuild = true → environment.IgnoresAsserts)
    (wellFormed : body.WellFormed)
    (reads : ∀ guard ∈ context.entryGuards settings body, guard.ReadsPure environment)
    {guard : Guard}
    (fails : verdict environment [] world (context.entryGuards settings body) = .fails guard) :
    let machine := context.machineIn environment
    ∃ count, (machine.run (context.wovenBody settings body) world).after count =
      machine.fail machine.escape guard world [] := by
  intro machine
  obtain ⟨layout, lays⟩ := context.exists_layout settings wellFormed
  have wide : body.widen.instructions ≠ [] := by
    intro empty
    rw [context.entryGuards_of_empty settings wellFormed (by simpa using empty)] at fails
    cases fails
  obtain ⟨count, ran⟩ := machine.starts lays.woven wellFormed.widen includes ignores wide
    (lays.front ▸ context.exit_entryGuards settings body) (lays.front ▸ reads) [] world
  rw [Machine.run_widen, lays.front, Machine.checkedRun] at ran
  have found : verdict machine.environment [] world (context.entryGuards settings body) =
      .fails guard := fails
  rw [found, Machine.check, fail_escape_relocate] at ran
  exact ⟨count, ran⟩

end Running

end MethodContext

/-! ## Weaving a method -/

namespace Weaver

/--
The guards at the entry of a new body, however many there are and whatever the names of the
parameters, stand in the order of the parameters, but for the value given to a setter: its guard
stands in front of all others.  So the order is that of the parameters exactly if there is no such
guard or no other.  When arguments are null, the exception names the first of them in the order of
the guards, in debug builds as well if assertions are ignored there.
-/
theorem weaveMethod_orders_entry
    (settings : Settings) (context : MethodContext) (body : MethodBody)
    (state final : WeaveState)
    (includes : context.graph.IncludesSystem)
    (resolved : NullPolicy.resolve context.graph settings context.method = .ok context.policy)
    (visible : context.policy.isVisible context.graph context.decl = true)
    (present : state.bodies.get? context.method = some body)
    (wellFormed : body.WellFormed)
    (ran : (weaveMethod context.graph settings context.method).run state = (.ok (), final)) :
    ∃ (woven : MethodBody) (row : GuardRow) (value others : List (Parameter × Nat)),
      (context.decl.parameters ≠ [] → final.bodies.get? context.method = some woven) ∧
      (∀ first rest, body.instructions = first :: rest →
        ∃ exits, GuardedEntry settings.debugBuild woven first.id row exits) ∧
      row.map (·.guard) = context.entryGuards settings body ∧
      context.entryGuards settings body = (value ++ others).map context.entryGuard ∧
      context.OrdersEntry value others ∧
      (((value ++ others).map (·.2)).Pairwise (· < ·) ↔ value = [] ∨ others = []) ∧
      ∀ (Reference World Effect : Type) (environment : Environment Reference World Effect)
        (world : World),
        (settings.debugBuild = true → environment.IgnoresAsserts) →
        (∀ entry ∈ value ++ others, (context.entryGuard entry).ReadsPure environment) →
        ∀ (before : List (Parameter × Nat)) (entry : Parameter × Nat)
          (behind : List (Parameter × Nat)),
          value ++ others = before ++ entry :: behind →
          (∀ earlier ∈ before, (context.entryGuard earlier).Admits environment [] world) →
          context.FindsNull environment world entry →
          let machine := context.machineIn environment
          (context.entryGuard entry).failure = .argumentNull entry.1.name ∧
            ∃ count, (machine.run woven world).after count =
              machine.fail machine.escape (context.entryGuard entry) world [] := by
  rw [run_weaveMethod_of_visible resolved visible present] at ran
  obtain ⟨progress, made, bodies⟩ := exists_hasMade_of_run ran
  obtain ⟨layout, lays⟩ := context.exists_layout settings wellFormed
  obtain ⟨value, others, orders, guards⟩ := context.exists_entryGuards settings body
  refine ⟨context.wovenBody settings body, layout.front, value, others, ?_,
    fun first rest whole => ⟨_, lays.woven.guardedEntry wellFormed whole⟩, lays.front, guards,
    orders, orders.pairwise_iff, ?_⟩
  · intro takes
    rw [bodies, made.get?_of_not_reports fun machine =>
      absurd machine.parameters_eq_nil takes, Bodies.get?_set_self]
  · intro Reference World Effect environment world ignores reads before entry behind split admits
      null
    obtain ⟨found, tested, isNull⟩ := null
    refine ⟨rfl, MethodContext.exists_after_wovenBody includes ignores wellFormed ?_ ?_⟩
    · rw [guards]
      exact List.forall_mem_map.mpr reads
    · rw [guards, split, List.map_append, List.map_cons]
      exact verdict_eq_fails (List.forall_mem_map.mpr admits) tested isNull

end Weaver

/-! ## A setter that is given nothing -/

namespace Indexer

/-- Nothing is there to be read, and an exception is the first thing it is constructed with. -/
def environment : Environment String Unit String where
  text := id
  boxed _ _ := "box"
  sameReference := (· == ·)
  read _ _ := some .null
  write _ _ _ := none
  pointer _ _ := none
  ask
    | .load _, world => some ⟨.ok .null, world, []⟩
    | .construct _ arguments, world => some ⟨.ok (arguments.head?.getD .null), world, []⟩
    | _, _ => none
  caughtAs _ _ := some fun _ => false

theorem findsNull (entry : Parameter × Nat) : context.FindsNull environment () entry := by
  obtain ⟨⟨_, type, _, _, _⟩, index⟩ := entry
  cases type with
  | byRef element => exact ⟨environment.seen element .null, rfl, by cases element <;> rfl⟩
  | _ => exact ⟨_, rfl, rfl⟩

theorem failures : (context.entryGuards {} body).map (·.failure) =
    [.argumentNull "value", .argumentNull "index"] := by
  decide +kernel

end Indexer

open Indexer in
/-- The exception names the value, though the index comes before it. -/
theorem Weaver.weaveMethod_orders_entry_indexer :
    ∃ (final : WeaveState) (woven : MethodBody),
      (weaveMethod graph {} context.method).run (stateWith body) = (.ok (), final) ∧
        final.bodies.get? context.method = some woven ∧
        ((context.machineIn environment).run woven ()).Ends
          (.threw (.reference "value")) () [] := by
  have ran :=
    run_eq_of_isOk
      (show ((weaveMethod graph {} context.method).run (stateWith body)).1.isOk = true by
        decide +kernel)
  obtain ⟨woven, row, value, others, placed, -, -, guards, -, -, runs⟩ :=
    weaveMethod_orders_entry {} context body (stateWith body) _ includesSystem rfl
      (by decide +kernel) rfl ⟨by decide, by decide, rfl⟩ ran
  refine ⟨_, woven, ran, placed (by decide), ?_⟩
  have names := failures
  rw [guards, List.map_map] at names
  obtain ⟨entry, behind, split⟩ : ∃ entry behind, value ++ others = entry :: behind := by
    refine List.exists_cons_of_ne_nil fun empty => ?_
    rw [empty] at names
    cases names
  rw [split, List.map_cons, List.cons.injEq] at names
  have name : entry.1.name = "value" := GuardFailure.argumentNull.inj names.1
  obtain ⟨-, count, reached⟩ := runs _ _ _ environment ()
    (fun asserts => absurd asserts Bool.false_ne_true) (fun _ _ _ _ _ _ _ _ => ⟨.null, rfl⟩) []
    entry behind split (List.forall_mem_nil _) (findsNull entry)
  refine ⟨count, reached.trans ?_⟩
  rw [← name]
  rfl

open Indexer in
/-- Of the parameters `index` and `value`, the second one is guarded first. -/
theorem Weaver.value_guarded_before_index :
    context.decl.parameters.map (·.name) = ["index", "value"] ∧
      ((weaveMethod graph {} context.method).run (stateWith body)).1.isOk = true ∧
        (context.entryGuards {} body).map (·.failure) =
          [.argumentNull "value", .argumentNull "index"] := by
  decide +kernel

end NullWeave
