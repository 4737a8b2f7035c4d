import LinkedSheet.Proofs.LoopSearch
import LinkedSheet.Schedule

/-!
Taking ready nodes one by one. `GreedyRun` says what a run of `greedy` that succeeds has done at
each step; the rest is by induction on it: the sequence lists the pending nodes, every node of it
runs after all that it waits for, and of all sequences of that kind it is the first in the order of
declaration. A run that gets stuck leaves nodes that all wait for one another, and the search from
any of them finds a loop.
-/
namespace Except
variable {ε α β : Type} {x : Except ε α} {f : α → β}

theorem map_eq_ok_iff {b : β} : x.map f = .ok b ↔ ∃ a, x = .ok a ∧ f a = b := by
  cases x <;> simp [Except.map]

theorem map_eq_error_iff {e : ε} : x.map f = .error e ↔ x = .error e := by
  cases x <;> simp [Except.map]

end Except

namespace LinkedSheet.Schedule

theorem takeReady?_eq_some_iff {ready : Nat → Bool} {pending : List Nat} {id : Nat}
    {rest : List Nat} :
    takeReady? ready pending = some (id, rest) ↔
      ∃ before after, pending = before ++ id :: after ∧ rest = before ++ after ∧
        ready id = true ∧ ∀ other ∈ before, ready other = false := by
  induction pending generalizing rest with
  | nil => simp [takeReady?]
  | cons head tail ih =>
    constructor
    · intro found
      unfold takeReady? at found
      split at found
      · rename_i now
        cases found
        exact ⟨[], tail, rfl, rfl, now, by simp⟩
      · rename_i later
        obtain ⟨⟨taken, left⟩, inner, eq⟩ := Option.map_eq_some_iff.1 found
        cases eq
        obtain ⟨before, after, rfl, rfl, now, blocked⟩ := ih.1 inner
        refine ⟨head :: before, after, rfl, rfl, now, ?_⟩
        exact List.forall_mem_cons.2 ⟨by simpa using later, blocked⟩
    · rintro ⟨before, after, split, rfl, now, blocked⟩
      cases before with
      | nil =>
        cases split
        simp [takeReady?, now]
      | cons first before =>
        rw [List.cons_append] at split
        obtain ⟨rfl, rfl⟩ := List.cons.inj split
        have inner := ih.2 ⟨before, after, rfl, rfl, now, (List.forall_mem_cons.1 blocked).2⟩
        simp [takeReady?, (List.forall_mem_cons.1 blocked).1, inner]

theorem takeReady?_eq_none_iff {ready : Nat → Bool} {pending : List Nat} :
    takeReady? ready pending = none ↔ ∀ id ∈ pending, ready id = false := by
  induction pending with
  | nil => simp [takeReady?]
  | cons head tail ih => cases now : ready head <;> simp [takeReady?, now, ih]

theorem isReady_iff {graph : Graph} {done : List Nat} {id : Nat} :
    isReady graph done id = true ↔ ∀ next, graph.Leads id next → next ∈ done := by
  unfold isReady Graph.Leads
  cases graph.targets? id <;> simp

theorem isReady_eq_false_iff {graph : Graph} {done : List Nat} {id : Nat} :
    isReady graph done id = false ↔ ∃ next, graph.Leads id next ∧ next ∉ done := by
  rw [← Bool.not_eq_true, isReady_iff]
  simp

/-- What a run of `greedy` that succeeds takes from the pending nodes: at each step the first one
that is ready. -/
inductive GreedyRun (graph : Graph) : (done pending sequence : List Nat) → Prop
  | nil (done : List Nat) : GreedyRun graph done [] []
  | cons {done before after sequence : List Nat} {id : Nat}
      (ready : ∀ next, graph.Leads id next → next ∈ done)
      (blocked : ∀ other ∈ before, ∃ next, graph.Leads other next ∧ next ∉ done)
      (rest : GreedyRun graph (id :: done) (before ++ after) sequence) :
      GreedyRun graph done (before ++ id :: after) (id :: sequence)

theorem greedy_nil (graph : Graph) (done : List Nat) : greedy graph done [] = .ok [] := by
  rw [greedy]

theorem greedy_eq_of_take {graph : Graph} {done before after : List Nat} {id : Nat}
    (ready : ∀ next, graph.Leads id next → next ∈ done)
    (blocked : ∀ other ∈ before, ∃ next, graph.Leads other next ∧ next ∉ done) :
    greedy graph done (before ++ id :: after) =
      (greedy graph (id :: done) (before ++ after)).map (id :: ·) := by
  have found : takeReady? (isReady graph done) (before ++ id :: after) =
      some (id, before ++ after) :=
    takeReady?_eq_some_iff.2 ⟨before, after, rfl, rfl, isReady_iff.2 ready,
      fun other member => isReady_eq_false_iff.2 (blocked other member)⟩
  obtain ⟨head, tail, split⟩ := List.exists_cons_of_ne_nil
    (List.append_ne_nil_of_right_ne_nil before (List.cons_ne_nil id after))
  rw [split] at found ⊢
  rw [greedy]
  split
  · rename_i stuck
    rw [found] at stuck
    cases stuck
  · rename_i taken
    rw [found] at taken
    cases taken
    cases greedy graph (id :: done) (before ++ after) <;> rfl

theorem greedy_eq_of_blocked {graph : Graph} {done pending : List Nat} (left : pending ≠ [])
    (blocked : ∀ id ∈ pending, ∃ next, graph.Leads id next ∧ next ∉ done) :
    greedy graph done pending = .error (.circular (blockingLoop graph pending)) := by
  have none_ready : takeReady? (isReady graph done) pending = none :=
    takeReady?_eq_none_iff.2 fun id member => isReady_eq_false_iff.2 (blocked id member)
  obtain ⟨head, tail, rfl⟩ := List.exists_cons_of_ne_nil left
  rw [greedy]
  split
  · rfl
  · rename_i taken
    rw [none_ready] at taken
    cases taken

theorem pending_cases (graph : Graph) (done pending : List Nat) :
    pending = [] ∨
    (pending ≠ [] ∧ ∀ id ∈ pending, ∃ next, graph.Leads id next ∧ next ∉ done) ∨
    ∃ before id after, pending = before ++ id :: after ∧
      (∀ next, graph.Leads id next → next ∈ done) ∧
      ∀ other ∈ before, ∃ next, graph.Leads other next ∧ next ∉ done := by
  cases found : takeReady? (isReady graph done) pending with
  | none =>
    by_cases finished : pending = []
    · exact .inl finished
    · have blocked := takeReady?_eq_none_iff.1 found
      exact .inr (.inl ⟨finished, fun id member => isReady_eq_false_iff.1 (blocked id member)⟩)
  | some taken =>
    obtain ⟨id, rest⟩ := taken
    obtain ⟨before, after, split, _, ready, blocked⟩ := takeReady?_eq_some_iff.1 found
    exact .inr (.inr ⟨before, id, after, split, isReady_iff.1 ready,
      fun other member => isReady_eq_false_iff.1 (blocked other member)⟩)

theorem length_lt_of_take (before after : List Nat) (id : Nat) :
    (before ++ after).length < (before ++ id :: after).length := by
  simp

theorem greedyRun_of_eq_ok {graph : Graph} {done pending sequence : List Nat}
    (ok : greedy graph done pending = .ok sequence) : GreedyRun graph done pending sequence := by
  induction length : pending.length using Nat.strong_induction_on
    generalizing done pending sequence with
  | _ n ih =>
    subst length
    rcases pending_cases graph done pending with rfl | ⟨left, blocked⟩ |
      ⟨before, id, after, rfl, ready, blocked⟩
    · rw [greedy_nil] at ok
      cases ok
      exact .nil done
    · rw [greedy_eq_of_blocked left blocked] at ok
      cases ok
    · rw [greedy_eq_of_take ready blocked] at ok
      obtain ⟨others, inner, rfl⟩ := Except.map_eq_ok_iff.1 ok
      exact .cons ready blocked (ih _ (length_lt_of_take before after id) inner rfl)

theorem GreedyRun.eq_ok {graph : Graph} {done pending sequence : List Nat}
    (run : GreedyRun graph done pending sequence) : greedy graph done pending = .ok sequence := by
  induction run with
  | nil done => exact greedy_nil graph done
  | cons ready blocked rest ih =>
    rw [greedy_eq_of_take ready blocked, ih]
    rfl

theorem GreedyRun.perm {graph : Graph} {done pending sequence : List Nat}
    (run : GreedyRun graph done pending sequence) : sequence.Perm pending := by
  induction run with
  | nil done => exact List.Perm.refl []
  | cons ready blocked rest ih => exact (ih.cons _).trans List.perm_middle.symm

theorem GreedyRun.concat {graph larger : Graph} {done pending sequence : List Nat}
    (run : GreedyRun graph done pending sequence) {last : Nat}
    (same : ∀ id ∈ pending, ∀ next, larger.Leads id next ↔ graph.Leads id next)
    (waits : ∀ next, larger.Leads last next → next ∈ done ∨ next ∈ pending) :
    GreedyRun larger done (pending ++ [last]) (sequence ++ [last]) := by
  induction run with
  | nil done =>
    have ready : ∀ next, larger.Leads last next → next ∈ done := by simpa using waits
    change GreedyRun larger done ([] ++ last :: []) [last]
    exact .cons ready (by simp) (.nil (last :: done))
  | @cons done before after sequence id ready blocked rest ih =>
    have now : ∀ next, larger.Leads id next → next ∈ done := by
      intro next leads
      exact ready next ((same id (by simp) next).1 leads)
    have still : ∀ other ∈ before, ∃ next, larger.Leads other next ∧ next ∉ done := by
      intro other member
      obtain ⟨next, leads, missing⟩ := blocked other member
      exact ⟨next, (same other (by simp [member]) next).2 leads, missing⟩
    have agrees : ∀ other ∈ before ++ after, ∀ next,
        larger.Leads other next ↔ graph.Leads other next := by
      intro other member
      refine same other ?_
      simp only [List.mem_append, List.mem_cons] at member ⊢
      tauto
    have reaches : ∀ next, larger.Leads last next → next ∈ id :: done ∨ next ∈ before ++ after := by
      intro next leads
      have known := waits next leads
      simp only [List.mem_append, List.mem_cons] at known ⊢
      tauto
    have others := ih agrees reaches
    rw [List.append_assoc] at others ⊢
    exact .cons now still others

theorem GreedyRun.drop {graph : Graph} {done pending front rest : List Nat}
    (run : GreedyRun graph done pending (front ++ rest)) (distinct : pending.Nodup) :
    GreedyRun graph (front.reverse ++ done) (pending.filter fun id => !front.contains id) rest := by
  induction front generalizing done pending with
  | nil => simpa using run
  | cons id front ih =>
    rw [List.cons_append] at run
    cases run with
    | @cons _ before after _ _ ready blocked others =>
      obtain ⟨new, apart⟩ := List.nodup_cons.1 ((List.nodup_middle).1 distinct)
      have left : (before ++ id :: after).filter (fun other => !(id :: front).contains other) =
          (before ++ after).filter fun other => !front.contains other := by
        have kept : ∀ other ∈ before ++ after,
            (!(id :: front).contains other) = !front.contains other := by
          intro other member
          have different : other ≠ id := fun same => new (same ▸ member)
          simp [different]
        rw [← List.filter_congr kept]
        simp
      rw [left, List.reverse_cons, List.append_assoc]
      exact ih others apart

theorem GreedyRun.congr {graph other : Graph} {done finished pending sequence : List Nat}
    (run : GreedyRun graph done pending sequence)
    (same : ∀ id ∈ pending, ∀ next,
      graph.Leads id next ∧ next ∉ done ↔ other.Leads id next ∧ next ∉ finished) :
    GreedyRun other finished pending sequence := by
  induction run generalizing finished with
  | nil done => exact .nil finished
  | @cons done before after sequence id ready blocked rest ih =>
    have now : ∀ next, other.Leads id next → next ∈ finished := by
      intro next leads
      by_contra missing
      have waits := (same id (by simp) next).2 ⟨leads, missing⟩
      exact waits.2 (ready next waits.1)
    have still : ∀ node ∈ before, ∃ next, other.Leads node next ∧ next ∉ finished := by
      intro node member
      obtain ⟨next, waits⟩ := blocked node member
      exact ⟨next, (same node (by simp [member]) next).1 waits⟩
    refine .cons now still (ih fun node member next => ?_)
    have present : node ∈ before ++ id :: after := by
      simp only [List.mem_append, List.mem_cons] at member ⊢
      tauto
    have waits := same node present next
    simp only [List.mem_cons, not_or]
    tauto

/-- Every node of the sequence has all that it waits for done when its turn comes. -/
def RunsAfter (graph : Graph) (done sequence : List Nat) : Prop :=
  ∀ before id after, sequence = before ++ id :: after →
    ∀ next, graph.Leads id next → next ∈ done ∨ next ∈ before

theorem runsAfter_cons_iff {graph : Graph} {done sequence : List Nat} {id : Nat} :
    RunsAfter graph done (id :: sequence) ↔
      (∀ next, graph.Leads id next → next ∈ done) ∧ RunsAfter graph (id :: done) sequence := by
  constructor
  · intro runs
    constructor
    · intro next leads
      simpa using runs [] id sequence rfl next leads
    · rintro before other after rfl next leads
      have earlier := runs (id :: before) other after rfl next leads
      simp only [List.mem_cons] at earlier ⊢
      tauto
  · rintro ⟨ready, runs⟩ before other after split next leads
    cases before with
    | nil =>
      cases split
      exact .inl (ready next leads)
    | cons first before =>
      cases split
      have earlier := runs before other after rfl next leads
      simp only [List.mem_cons] at earlier ⊢
      tauto

theorem GreedyRun.runsAfter {graph : Graph} {done pending sequence : List Nat}
    (run : GreedyRun graph done pending sequence) : RunsAfter graph done sequence := by
  induction run with
  | nil done =>
    intro before id after split
    simp at split
  | cons ready blocked rest ih => exact runsAfter_cons_iff.2 ⟨ready, ih⟩

section
variable {graph : Graph} {done pending sequence : List Nat} {position : Nat → Nat}

theorem position_le_of_ready {before after : List Nat} {id other : Nat}
    (blocked : ∀ node ∈ before, ∃ next, graph.Leads node next ∧ next ∉ done)
    (sorted : (before ++ id :: after).Pairwise fun a b => position a < position b)
    (member : other ∈ before ++ id :: after)
    (ready : ∀ next, graph.Leads other next → next ∈ done) :
    other = id ∨ position id < position other := by
  have later : ∀ node ∈ after, position id < position node :=
    (List.pairwise_cons.1 (List.pairwise_append.1 sorted).2.1).1
  rcases List.mem_append.1 member with earlier | behind
  · obtain ⟨next, leads, missing⟩ := blocked other earlier
    exact absurd (ready next leads) missing
  · exact (List.mem_cons.1 behind).imp_right (later other)

theorem pairwise_of_take {relation : Nat → Nat → Prop} {before after : List Nat} {id : Nat}
    (sorted : (before ++ id :: after).Pairwise relation) :
    (before ++ after).Pairwise relation :=
  sorted.sublist ((List.Sublist.refl before).append (List.sublist_cons_self id after))

theorem GreedyRun.eq_or_lex (run : GreedyRun graph done pending sequence)
    (sorted : pending.Pairwise fun a b => position a < position b) {other : List Nat}
    (perm : other.Perm pending) (runs : RunsAfter graph done other) :
    sequence = other ∨ List.Lex (fun a b => position a < position b) sequence other := by
  induction run generalizing other with
  | nil done => exact .inl perm.eq_nil.symm
  | @cons done before after sequence id ready blocked rest ih =>
    cases other with
    | nil => simpa using perm.length_eq
    | cons head tail =>
      obtain ⟨now, later⟩ := runsAfter_cons_iff.1 runs
      have member := perm.subset List.mem_cons_self
      rcases position_le_of_ready blocked sorted member now with rfl | less
      · have others : tail.Perm (before ++ after) :=
          (List.perm_cons head).1 (perm.trans List.perm_middle)
        rcases ih (pairwise_of_take sorted) others later with rfl | less
        · exact .inl rfl
        · exact .inr (.cons less)
      · exact .inr (.rel less)

theorem GreedyRun.position_le (run : GreedyRun graph done pending sequence)
    (sorted : pending.Pairwise fun a b => position a < position b) {before after : List Nat}
    {id other : Nat} (split : sequence = before ++ id :: after) (member : other ∈ pending)
    (new : other ∉ before) (ready : ∀ next, graph.Leads other next → next ∈ done ∨ next ∈ before) :
    position id ≤ position other := by
  induction run generalizing before with
  | nil done => cases member
  | @cons done front back sequence taken now blocked rest ih =>
    cases before with
    | nil =>
      cases split
      have free : ∀ next, graph.Leads other next → next ∈ done := by simpa using ready
      rcases position_le_of_ready blocked sorted member free with rfl | less
      · exact le_rfl
      · exact less.le
    | cons first before =>
      cases split
      rw [List.mem_cons, not_or] at new
      obtain ⟨different, later⟩ := new
      have still : other ∈ front ++ back :=
        (List.mem_cons.1 (List.perm_middle.mem_iff.1 member)).resolve_left different
      refine ih (pairwise_of_take sorted) rfl still later fun next leads => ?_
      have earlier := ready next leads
      simp only [List.mem_cons] at earlier ⊢
      tauto

end

theorem exists_blocked_of_eq_error {graph : Graph} {done pending : List Nat} {error : ScheduleError}
    (closed : ∀ id ∈ pending, ∀ next, graph.Leads id next → next ∈ done ∨ next ∈ pending)
    (failed : greedy graph done pending = .error error) :
    ∃ left, left ≠ [] ∧ (∀ id ∈ left, ∃ next ∈ left, graph.Leads id next) ∧
      error = .circular (blockingLoop graph left) := by
  induction length : pending.length using Nat.strong_induction_on generalizing done pending with
  | _ n ih =>
    subst length
    rcases pending_cases graph done pending with rfl | ⟨left, blocked⟩ |
      ⟨before, id, after, rfl, ready, blocked⟩
    · rw [greedy_nil] at failed
      cases failed
    · rw [greedy_eq_of_blocked left blocked] at failed
      cases failed
      refine ⟨pending, left, fun id member => ?_, rfl⟩
      obtain ⟨next, leads, missing⟩ := blocked id member
      exact ⟨next, (closed id member next leads).resolve_left missing, leads⟩
    · rw [greedy_eq_of_take ready blocked] at failed
      have inner := Except.map_eq_error_iff.1 failed
      refine ih _ (length_lt_of_take before after id) (fun node member next leads => ?_) inner rfl
      have still : node ∈ before ++ id :: after := by
        simp only [List.mem_append, List.mem_cons] at member ⊢
        tauto
      have known := closed node still next leads
      simp only [List.mem_append, List.mem_cons] at known ⊢
      tauto

theorem not_ends_of_blocked {graph : Graph} {left : List Nat}
    (waits : ∀ id ∈ left, ∃ next ∈ left, graph.Leads id next) {id : Nat} (member : id ∈ left) :
    ¬ graph.Ends id := by
  intro ends
  induction ends with
  | intro id _ ih =>
    obtain ⟨next, still, leads⟩ := waits id member
    exact ih next leads still

theorem simpleLoop_blockingLoop {graph : Graph} {left : List Nat} (nonempty : left ≠ [])
    (waits : ∀ id ∈ left, ∃ next ∈ left, graph.Leads id next) :
    SimpleLoop graph.Leads (blockingLoop graph left) := by
  obtain ⟨first, rest, rfl⟩ := List.exists_cons_of_ne_nil nonempty
  cases found : graph.findLoop first with
  | none =>
    exact absurd (Graph.ends_of_findLoop_eq_none found)
      (not_ends_of_blocked waits List.mem_cons_self)
  | some walk =>
    have loop := (Graph.findLoop_eq_some found).1.simpleLoop
    simpa [blockingLoop, found] using loop

end LinkedSheet.Schedule
