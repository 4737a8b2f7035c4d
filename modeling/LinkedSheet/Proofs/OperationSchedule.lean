import LinkedSheet.Operation
import LinkedSheet.Proofs.GreedySequence
import LinkedSheet.Script.Interpreter
import Mathlib.Data.List.Lex

/-!
The schedule of operations. There is one exactly when the order lists declared operations, each
once, every dependency is declared, and no loop of dependencies avoids the order. The schedule is
then the first, in the order of declaration, of all sequences that begin with the order and run
every other operation after all that it depends on; if only a loop stands in the way, a simple one
is reported.
-/
namespace LinkedSheet

theorem Schedule.orderFault?_eq_none_iff {known seen order : List Nat} :
    orderFault? known seen order = none ↔
      (∀ id ∈ order, id ∈ known ∧ id ∉ seen) ∧ order.Nodup := by
  induction order generalizing seen with
  | nil => simp [orderFault?]
  | cons id rest ih =>
    by_cases listed : id ∈ known
    · by_cases again : id ∈ seen
      · simp [orderFault?, listed, again]
      · simp only [orderFault?, List.contains_eq_mem, listed, again, decide_true, decide_false,
          Bool.not_true, Bool.false_eq_true, if_false, ih, List.mem_cons, List.nodup_cons, not_or]
        grind
    · simp [orderFault?, listed]

theorem Schedule.orderFault?_nil_eq_none_iff {known order : List Nat} :
    orderFault? known [] order = none ↔ (∀ id ∈ order, id ∈ known) ∧ order.Nodup := by
  simp only [orderFault?_eq_none_iff, List.not_mem_nil, not_false_eq_true, and_true]

theorem Schedule.unknownDependency?_eq_none_iff {known : List Nat} {nodes : Graph} :
    unknownDependency? known nodes = none ↔ ∀ node ∈ nodes, ∀ id ∈ node.2, id ∈ known := by
  simp [unknownDependency?, List.findSome?_eq_none_iff]

theorem idxOf_lt_idxOf_iff {before after : List Nat} {a b : Nat}
    (nodup : (before ++ b :: after).Nodup) :
    (before ++ b :: after).idxOf a < (before ++ b :: after).idxOf b ↔ a ∈ before := by
  have new : b ∉ before := by
    have apart := (List.nodup_append.1 nodup).2.2
    exact fun member => apart b member b List.mem_cons_self rfl
  rw [List.idxOf_append, List.idxOf_append, if_neg new, List.idxOf_cons_self]
  split
  · rename_i member
    have inside := List.idxOf_lt_length_of_mem member
    exact iff_of_true (by omega) member
  · rename_i missing
    exact iff_of_false (by omega) missing

theorem pairwise_idxOf_lt {ids : List Nat} (nodup : ids.Nodup) :
    ids.Pairwise fun a b => ids.idxOf a < ids.idxOf b := by
  rw [List.pairwise_iff_getElem]
  intro i j hi hj less
  rwa [nodup.idxOf_getElem i hi, nodup.idxOf_getElem j hj]

section
variable [Script.Engine]

/-- The operations with what they depend on. -/
def dependencyGraph (operations : List Operation) : Graph :=
  operations.map fun op => (op.id, op.dependencies)

@[simp] theorem keys_dependencyGraph (operations : List Operation) :
    (dependencyGraph operations).map (·.1) = operations.map Operation.id := by
  simp [dependencyGraph]

def unordered (operations : List Operation) (order : List OpId) : List OpId :=
  (operations.map Operation.id).filter fun id => !order.contains id

@[simp] theorem mem_unordered {operations : List Operation} {order : List OpId} {id : OpId} :
    id ∈ unordered operations order ↔ id ∈ operations.map Operation.id ∧ id ∉ order := by
  simp [unordered]

def position (operations : List Operation) (id : OpId) : Nat :=
  (operations.map Operation.id).idxOf id

/-- An operation outside the order depends on another one outside it. -/
def WaitsFor (operations : List Operation) (order : List OpId) (a b : OpId) : Prop :=
  ∃ op ∈ operations, op.id = a ∧ b ∈ op.dependencies ∧ a ∉ order ∧ b ∉ order

/-- All operations that the order or a dependency names are declared, and the order repeats none. -/
structure Declared (operations : List Operation) (order : List OpId) : Prop where
  order_declared : ∀ id ∈ order, id ∈ operations.map Operation.id
  order_nodup : order.Nodup
  dependencies_declared :
    ∀ op ∈ operations, ∀ id ∈ op.dependencies, id ∈ operations.map Operation.id

/-- The sequences in which operations may run: all of them, those of the order first, and every
other one behind all that it depends on. -/
structure Admissible (operations : List Operation) (order sequence : List OpId) : Prop where
  perm : sequence.Perm (operations.map Operation.id)
  order_first : order <+: sequence
  behind_dependencies : ∀ op ∈ operations, op.id ∉ order →
    ∀ id ∈ op.dependencies, sequence.idxOf id < sequence.idxOf op.id

variable {operations : List Operation} {order : List OpId}

theorem schedule_of_declared (declared : Declared operations order) :
    schedule operations order =
      (Schedule.greedy (Schedule.restricted order (dependencyGraph operations)) order
        (unordered operations order)).map (order ++ ·) := by
  have sound : Schedule.orderFault? (operations.map Operation.id) [] order = none :=
    Schedule.orderFault?_nil_eq_none_iff.2 ⟨declared.order_declared, declared.order_nodup⟩
  have known : Schedule.unknownDependency? (operations.map Operation.id)
      (dependencyGraph operations) = none := by
    rw [Schedule.unknownDependency?_eq_none_iff]
    intro node member id
    obtain ⟨op, present, rfl⟩ := List.mem_map.1 member
    exact declared.dependencies_declared op present id
  change Schedule.compute (dependencyGraph operations) order = _
  simp only [Schedule.compute, keys_dependencyGraph, sound, known, unordered]
  split <;> simp_all [Except.map]

theorem declared_of_schedule {sequence : List OpId}
    (ok : schedule operations order = .ok sequence) : Declared operations order := by
  change Schedule.compute (dependencyGraph operations) order = _ at ok
  simp only [Schedule.compute, keys_dependencyGraph] at ok
  split at ok
  · cases ok
  · rename_i sound
    split at ok
    · cases ok
    · rename_i known
      rw [Schedule.orderFault?_nil_eq_none_iff] at sound
      rw [Schedule.unknownDependency?_eq_none_iff] at known
      refine ⟨sound.1, sound.2, fun op member => ?_⟩
      exact known (op.id, op.dependencies) (List.mem_map_of_mem member)

theorem exists_greedyRun_of_schedule {sequence : List OpId}
    (ok : schedule operations order = .ok sequence) :
    ∃ rest, sequence = order ++ rest ∧
      Schedule.GreedyRun (Schedule.restricted order (dependencyGraph operations)) order
        (unordered operations order) rest := by
  rw [schedule_of_declared (declared_of_schedule ok)] at ok
  obtain ⟨rest, run, rfl⟩ := Except.map_eq_ok_iff.1 ok
  exact ⟨rest, rfl, Schedule.greedyRun_of_eq_ok run⟩

theorem leads_restricted_iff (distinct : (operations.map Operation.id).Nodup) {a b : OpId} :
    (Schedule.restricted order (dependencyGraph operations)).Leads a b ↔
      WaitsFor operations order a b := by
  have keys : (Schedule.restricted order (dependencyGraph operations)).map (·.1) =
      unordered operations order := by
    simp [Schedule.restricted, dependencyGraph, unordered, List.filter_map, Function.comp_def]
  have nodup : ((Schedule.restricted order (dependencyGraph operations)).map (·.1)).Nodup := by
    rw [keys]
    exact distinct.filter _
  rw [Graph.leads_iff_of_nodup nodup]
  simp only [Schedule.restricted, dependencyGraph, WaitsFor, List.mem_map, List.mem_filter]
  constructor
  · rintro ⟨_, ⟨_, ⟨⟨op, member, rfl⟩, outside⟩, rfl⟩, rfl, target⟩
    simp only [List.mem_filter] at target
    exact ⟨op, member, rfl, target.1, by simpa using outside, by simpa using target.2⟩
  · rintro ⟨op, member, rfl, target, outside, other⟩
    refine ⟨(op.id, op.dependencies.filter fun id => !order.contains id), ⟨_, ⟨⟨op, member, rfl⟩,
      by simpa using outside⟩, rfl⟩, rfl, ?_⟩
    simp [target, other]

theorem pairwise_position_unordered (distinct : (operations.map Operation.id).Nodup) :
    (unordered operations order).Pairwise fun a b =>
      position operations a < position operations b :=
  (pairwise_idxOf_lt distinct).sublist List.filter_sublist

theorem perm_order_append_unordered (distinct : (operations.map Operation.id).Nodup)
    (declared : Declared operations order) :
    (order ++ unordered operations order).Perm (operations.map Operation.id) := by
  have nodup : (order ++ unordered operations order).Nodup := by
    refine List.nodup_append.2 ⟨declared.order_nodup, distinct.filter _, ?_⟩
    rintro id first _ other rfl
    exact (mem_unordered.1 other).2 first
  refine (List.perm_ext_iff_of_nodup nodup distinct).2 fun id => ?_
  have listed := declared.order_declared id
  rw [List.mem_append, mem_unordered]
  tauto

theorem admissible_of_runsAfter (distinct : (operations.map Operation.id).Nodup)
    (declared : Declared operations order) {rest : List OpId}
    (perm : rest.Perm (unordered operations order))
    (runs :
      Schedule.RunsAfter (Schedule.restricted order (dependencyGraph operations)) order rest) :
    Admissible operations order (order ++ rest) := by
  have all : (order ++ rest).Perm (operations.map Operation.id) :=
    (perm.append_left order).trans (perm_order_append_unordered distinct declared)
  refine ⟨all, List.prefix_append order rest, fun op present outside id depends => ?_⟩
  have member : op.id ∈ rest :=
    perm.mem_iff.2 (mem_unordered.2 ⟨List.mem_map_of_mem present, outside⟩)
  obtain ⟨before, after, rfl⟩ := List.append_of_mem member
  rw [← List.append_assoc] at all ⊢
  rw [idxOf_lt_idxOf_iff (all.nodup_iff.2 distinct), List.mem_append]
  by_cases first : id ∈ order
  · exact .inl first
  · exact runs before op.id after rfl id
      ((leads_restricted_iff distinct).2 ⟨op, present, rfl, depends, outside, first⟩)

theorem Admissible.runsAfter (distinct : (operations.map Operation.id).Nodup) {rest : List OpId}
    (h : Admissible operations order (order ++ rest)) :
    Schedule.RunsAfter (Schedule.restricted order (dependencyGraph operations)) order rest := by
  rintro before id after rfl next leads
  obtain ⟨op, present, rfl, depends, outside, _⟩ := (leads_restricted_iff distinct).1 leads
  have behind := h.behind_dependencies op present outside next depends
  have nodup := h.perm.nodup_iff.2 distinct
  rw [← List.append_assoc] at behind nodup
  exact List.mem_append.1 ((idxOf_lt_idxOf_iff nodup).1 behind)

theorem admissible_of_schedule {sequence : List OpId}
    (distinct : (operations.map Operation.id).Nodup)
    (ok : schedule operations order = .ok sequence) : Admissible operations order sequence := by
  obtain ⟨rest, rfl, run⟩ := exists_greedyRun_of_schedule ok
  exact admissible_of_runsAfter distinct (declared_of_schedule ok) run.perm run.runsAfter

/-- A schedule is the first of the admissible sequences: each step after the order takes the
operation declared first among those whose dependencies have all run. -/
theorem schedule_first_of_admissible {sequence : List OpId}
    (distinct : (operations.map Operation.id).Nodup)
    (ok : schedule operations order = .ok sequence) :
    Admissible operations order sequence ∧
    (∀ other, Admissible operations order other → sequence = other ∨
      List.Lex (fun a b => position operations a < position operations b) sequence other) ∧
    ∀ before id after, sequence = before ++ id :: after → order.length ≤ before.length →
      ∀ op ∈ operations, op.id ∉ before → (∀ next ∈ op.dependencies, next ∈ before) →
        position operations id ≤ position operations op.id := by
  have declared := declared_of_schedule ok
  obtain ⟨rest, rfl, run⟩ := exists_greedyRun_of_schedule ok
  have sorted : (unordered operations order).Pairwise fun a b =>
      position operations a < position operations b := pairwise_position_unordered distinct
  refine ⟨admissible_of_schedule distinct ok, ?_, ?_⟩
  · intro other admissible
    obtain ⟨tail, rfl⟩ := admissible.order_first
    have perm : tail.Perm (unordered operations order) :=
      (List.perm_append_left_iff order).1
        (admissible.perm.trans (perm_order_append_unordered distinct declared).symm)
    rcases run.eq_or_lex sorted perm (admissible.runsAfter distinct) with rfl | less
    · exact .inl rfl
    · exact .inr (less.append_left _ order)
  · intro before id after split long op present new ready
    obtain ⟨front, rfl⟩ : order <+: before :=
      List.prefix_of_prefix_length_le ⟨rest, rfl⟩ ⟨id :: after, split.symm⟩ long
    rw [List.append_assoc, List.append_cancel_left_eq] at split
    rw [List.mem_append, not_or] at new
    have member : op.id ∈ unordered operations order :=
      mem_unordered.2 ⟨List.mem_map_of_mem present, new.1⟩
    refine run.position_le sorted split member new.2 fun next leads => ?_
    obtain ⟨other, otherPresent, same, depends, _⟩ := (leads_restricted_iff distinct).1 leads
    obtain rfl := List.inj_on_of_nodup_map distinct otherPresent present same
    exact List.mem_append.1 (ready next depends)

end

def counts : List Operation :=
  [⟨1, .empty, .operationCorner 2 .bottomLeft, .count, some .count⟩,
    ⟨2, .empty, .reference "A1", .count, some .count⟩,
    ⟨3, .operationRegion 1, .reference "B1", .count, some .count⟩,
    ⟨4, .empty, .reference "C1", .count, some .count⟩]

theorem schedule_first_of_admissible_counts :
    (counts.map Operation.id).Nodup ∧ schedule counts [4] = .ok [4, 2, 1, 3] ∧
      Admissible counts [4] [4, 2, 1, 3] := by
  have distinct : (counts.map Operation.id).Nodup := by decide
  have ok : schedule counts [4] = .ok [4, 2, 1, 3] := by decide +kernel
  exact ⟨distinct, ok, (schedule_first_of_admissible distinct ok).1⟩

section
variable [Script.Engine] {operations : List Operation} {order : List OpId}

theorem not_transGen_of_schedule {sequence : List OpId}
    (distinct : (operations.map Operation.id).Nodup)
    (ok : schedule operations order = .ok sequence) (id : OpId) :
    ¬ Relation.TransGen (WaitsFor operations order) id id := by
  have admissible := admissible_of_schedule distinct ok
  have descends : ∀ a b, WaitsFor operations order a b → sequence.idxOf b < sequence.idxOf a := by
    rintro _ b ⟨op, present, rfl, depends, outside, _⟩
    exact admissible.behind_dependencies op present outside b depends
  intro loop
  have less : ∀ b, Relation.TransGen (WaitsFor operations order) id b →
      sequence.idxOf b < sequence.idxOf id := by
    intro b reaches
    induction reaches with
    | single waits => exact descends _ _ waits
    | tail _ waits ih => exact (descends _ _ waits).trans ih
  exact lt_irrefl _ (less id loop)

theorem circular_of_schedule_eq_error {error : ScheduleError}
    (distinct : (operations.map Operation.id).Nodup) (declared : Declared operations order)
    (failed : schedule operations order = .error error) :
    ∃ walk, error = .circular walk ∧ SimpleLoop (WaitsFor operations order) walk := by
  have leads : (Schedule.restricted order (dependencyGraph operations)).Leads =
      WaitsFor operations order := by
    funext a b
    exact propext (leads_restricted_iff distinct)
  have closed : ∀ id ∈ unordered operations order, ∀ next,
      (Schedule.restricted order (dependencyGraph operations)).Leads id next →
        next ∈ order ∨ next ∈ unordered operations order := by
    intro id _ next waits
    rw [leads] at waits
    obtain ⟨op, present, _, depends, _, outside⟩ := waits
    exact .inr (mem_unordered.2 ⟨declared.dependencies_declared op present next depends, outside⟩)
  rw [schedule_of_declared declared] at failed
  have stuck := Except.map_eq_error_iff.1 failed
  obtain ⟨left, nonempty, waits, rfl⟩ := Schedule.exists_blocked_of_eq_error closed stuck
  exact ⟨_, rfl, leads ▸ Schedule.simpleLoop_blockingLoop nonempty waits⟩

/-- There is a schedule exactly when all names are declared, the order repeats none, and no loop of
dependencies avoids the order; if only such a loop is in the way, a simple one is reported. -/
theorem exists_schedule_iff (operations : List Operation) (order : List OpId)
    (distinct : (operations.map Operation.id).Nodup) :
    ((∃ sequence, schedule operations order = .ok sequence) ↔
      Declared operations order ∧ ∀ id, ¬ Relation.TransGen (WaitsFor operations order) id id) ∧
    (Declared operations order → (∃ id, Relation.TransGen (WaitsFor operations order) id id) →
      ∃ walk, schedule operations order = .error (.circular walk) ∧
        SimpleLoop (WaitsFor operations order) walk ∧ ∀ id ∈ walk, id ∉ order) := by
  constructor
  · constructor
    · rintro ⟨sequence, ok⟩
      exact ⟨declared_of_schedule ok, not_transGen_of_schedule distinct ok⟩
    · rintro ⟨declared, acyclic⟩
      cases outcome : schedule operations order with
      | ok sequence => exact ⟨sequence, rfl⟩
      | error error =>
        obtain ⟨walk, _, loop⟩ := circular_of_schedule_eq_error distinct declared outcome
        obtain ⟨id, reaches⟩ := loop.transGen
        exact absurd reaches (acyclic id)
  · rintro declared ⟨id, reaches⟩
    cases outcome : schedule operations order with
    | ok sequence => exact absurd reaches (not_transGen_of_schedule distinct outcome id)
    | error error =>
      obtain ⟨walk, rfl, loop⟩ := circular_of_schedule_eq_error distinct declared outcome
      refine ⟨walk, rfl, loop, fun id member => ?_⟩
      obtain ⟨next, op, _, _, _, outside, _⟩ := loop.exists_leads member
      exact outside

end

section
variable [Script.Engine] {operations : List Operation} {order sequence : List OpId} {op : Operation}

theorem declared_append (declared : Declared operations order)
    (known : ∀ id ∈ op.dependencies, id ∈ operations.map Operation.id) :
    Declared (operations ++ [op]) order := by
  have larger : operations.map Operation.id ⊆ (operations ++ [op]).map Operation.id := by
    rw [List.map_append]
    exact List.subset_append_left _ _
  refine ⟨fun id member => larger (declared.order_declared id member), declared.order_nodup, ?_⟩
  intro other present id depends
  rcases List.mem_append.1 present with old | new
  · exact larger (declared.dependencies_declared other old id depends)
  · rw [List.mem_singleton.1 new] at depends
    exact larger (known id depends)

theorem schedule_append (ok : schedule operations order = .ok sequence)
    (new : op.id ∉ operations.map Operation.id)
    (known : ∀ id ∈ op.dependencies, id ∈ operations.map Operation.id) :
    schedule (operations ++ [op]) order = .ok (sequence ++ [op.id]) := by
  have declared := declared_of_schedule ok
  have outside : op.id ∉ order := fun member => new (declared.order_declared op.id member)
  obtain ⟨rest, rfl, run⟩ := exists_greedyRun_of_schedule ok
  have pending : unordered (operations ++ [op]) order = unordered operations order ++ [op.id] := by
    simp [unordered, outside]
  have graph : Schedule.restricted order (dependencyGraph (operations ++ [op])) =
      Schedule.restricted order (dependencyGraph operations) ++
        [(op.id, op.dependencies.filter fun id => !order.contains id)] := by
    simp [Schedule.restricted, dependencyGraph, outside]
  have same : ∀ id ∈ unordered operations order, ∀ next,
      (Schedule.restricted order (dependencyGraph (operations ++ [op]))).Leads id next ↔
        (Schedule.restricted order (dependencyGraph operations)).Leads id next := by
    intro id member next
    have old : id ≠ op.id := by
      rintro rfl
      exact new (mem_unordered.1 member).1
    rw [graph, Graph.leads_append_singleton_iff, if_neg old]
  have waits : ∀ next,
      (Schedule.restricted order (dependencyGraph (operations ++ [op]))).Leads op.id next →
        next ∈ order ∨ next ∈ unordered operations order := by
    intro next leads
    rw [graph, Graph.leads_append_singleton_iff, if_pos rfl, List.mem_filter] at leads
    exact .inr (mem_unordered.2 ⟨known next leads.1, by simpa using leads.2⟩)
  rw [schedule_of_declared (declared_append declared known), pending,
    (run.concat same waits).eq_ok]
  simp [Except.map]

end

def knot : List Operation :=
  [⟨1, .operationRegion 2, .reference "A1", .count, some .count⟩,
    ⟨2, .empty, .operationCorner 3 .topLeft, .count, some .count⟩,
    ⟨3, .empty, .operationCorner 2 .topLeft, .count, some .count⟩]

theorem exists_schedule_iff_knot :
    (knot.map Operation.id).Nodup ∧ Declared knot [] ∧
      Relation.TransGen (WaitsFor knot []) 2 2 ∧
      schedule knot [] = .error (.circular [2, 3, 2]) ∧
      SimpleLoop (WaitsFor knot []) [2, 3, 2] := by
  have distinct : (knot.map Operation.id).Nodup := by decide
  have declared : Declared knot [] := ⟨by decide, by decide, by decide⟩
  have there : WaitsFor knot [] 2 3 := ⟨knot[1], by simp, rfl, by decide, by decide, by decide⟩
  have back : WaitsFor knot [] 3 2 := ⟨knot[2], by simp, rfl, by decide, by decide, by decide⟩
  have loop : Relation.TransGen (WaitsFor knot []) 2 2 := .tail (.single there) back
  have outcome : schedule knot [] = .error (.circular [2, 3, 2]) := by decide +kernel
  obtain ⟨walk, failed, simple, _⟩ := (exists_schedule_iff knot [] distinct).2 declared ⟨2, loop⟩
  rw [outcome] at failed
  cases failed
  exact ⟨distinct, declared, loop, outcome, simple⟩

end LinkedSheet
