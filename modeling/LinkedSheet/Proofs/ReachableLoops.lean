import LinkedSheet.Proofs.LoopSearch

/-!
Loops that can be reached. The search is told once more by rules that put no bound on how deep it
goes: visiting nodes one after the other, each with all that it leads to before the next one. The
rules finish for every graph and every start, with one outcome, and that is what `findLoop` answers.
A walk is answered just when following edges from the start can lead to a node that leads back to
itself.
-/
namespace LinkedSheet

namespace Graph

/-- Nothing is to be done at a node that is known to lead to no loop, or that has no entry. -/
def Settled (graph : Graph) (done : List Nat) (node : Nat) : Prop :=
  node ∈ done ∨ graph.targets? node = none

/-- Visiting nodes one after the other, all at the end of the same way, until a loop is found. -/
inductive Visits (graph : Graph) : List Nat → List Nat → List Nat → Search → Prop
  | finished {way done : List Nat} : Visits graph way done [] (.clear done)
  | again {way done rest : List Nat} {node : Nat} (onWay : node ∈ way) :
      Visits graph way done (node :: rest) (.loop (way.reverse ++ [node]))
  | passed {way done rest : List Nat} {node : Nat} {outcome : Search} (new : node ∉ way)
      (settled : graph.Settled done node) (others : Visits graph way done rest outcome) :
      Visits graph way done (node :: rest) outcome
  | looped {way done rest targets walk : List Nat} {node : Nat} (new : node ∉ way)
      (unsettled : ¬ graph.Settled done node) (entry : graph.targets? node = some targets)
      (inner : Visits graph (node :: way) done targets (.loop walk)) :
      Visits graph way done (node :: rest) (.loop walk)
  | cleared {way done rest targets between : List Nat} {node : Nat} {outcome : Search}
      (new : node ∉ way) (unsettled : ¬ graph.Settled done node)
      (entry : graph.targets? node = some targets)
      (inner : Visits graph (node :: way) done targets (.clear between))
      (others : Visits graph way (node :: between) rest outcome) :
      Visits graph way done (node :: rest) outcome

variable {graph : Graph} {way done nodes walk : List Nat} {node start : Nat}

theorem Visits.unique {first second : Search} (one : graph.Visits way done nodes first)
    (other : graph.Visits way done nodes second) : first = second := by
  induction one generalizing second with
  | finished =>
    cases other
    rfl
  | again onWay =>
    cases other with
    | again => rfl
    | passed new | looped new | cleared new => exact absurd onWay new
  | passed new settled _ after =>
    cases other with
    | again onWay => exact absurd onWay new
    | passed _ _ others => exact after others
    | looped _ unsettled | cleared _ unsettled => exact absurd settled unsettled
  | looped new unsettled entry _ inside =>
    cases other with
    | again onWay => exact absurd onWay new
    | passed _ settled => exact absurd settled unsettled
    | looped _ _ same inner =>
      obtain rfl := Option.some.inj (entry.symm.trans same)
      exact inside inner
    | cleared _ _ same inner =>
      obtain rfl := Option.some.inj (entry.symm.trans same)
      cases inside inner
  | cleared new unsettled entry _ _ inside after =>
    cases other with
    | again onWay => exact absurd onWay new
    | passed _ settled => exact absurd settled unsettled
    | looped _ _ same inner =>
      obtain rfl := Option.some.inj (entry.symm.trans same)
      cases inside inner
    | cleared _ _ same inner others =>
      obtain rfl := Option.some.inj (entry.symm.trans same)
      cases inside inner
      exact after others

theorem visits_visitAll {fuel : Nat} (onWay : ∀ node ∈ nodes, graph.IsWay way node)
    (room : graph.length ≤ fuel + way.length) (done : List Nat) :
    graph.Visits way done nodes (visitAll (search graph fuel way) done nodes) := by
  -- the fuel bounds how deep the search goes, the list how far it goes at one depth
  induction fuel using Nat.strong_induction_on generalizing way done nodes with
  | _ fuel deeper =>
    induction nodes generalizing done with
    | nil => exact .finished
    | cons node rest further =>
      obtain ⟨here, later⟩ := List.forall_mem_cons.1 onWay
      rw [visitAll]
      rcases search_cases here room done with ⟨again, eq⟩ | ⟨new, settled, eq⟩ |
        ⟨less, targets, rfl, new, unknown, entry, eq⟩
      · rw [eq]
        exact .again again
      · rw [eq]
        exact .passed new settled (further later done)
      · have unsettled : ¬ graph.Settled done node := by simp [Settled, unknown, entry]
        have inner := deeper less (Nat.lt_succ_self less)
          (fun target member => here.cons new ⟨targets, entry, member⟩)
          (by rw [List.length_cons]; omega) done
        rw [eq]
        cases found : visitAll (search graph less (node :: way)) done targets with
        | loop walk =>
          rw [found] at inner
          exact .looped new unsettled entry inner
        | clear between =>
          rw [found] at inner
          exact .cleared new unsettled entry inner (further later (node :: between))

theorem visits_start (graph : Graph) (start : Nat) :
    graph.Visits [] [] [start] (search graph graph.length [] [] start) := by
  have finishes : graph.Visits [] [] [start] (visitAll (search graph graph.length []) [] [start]) :=
    visits_visitAll (List.forall_mem_singleton.2 (IsWay.nil graph start)) (Nat.le_add_right _ _) []
  rw [visitAll] at finishes
  cases found : search graph graph.length [] [] start with
  | loop walk => rwa [found] at finishes
  | clear between => rwa [found] at finishes

theorem findLoop_eq_some_iff :
    graph.findLoop start = some walk ↔ graph.Visits [] [] [start] (.loop walk) := by
  have finishes := visits_start graph start
  unfold findLoop
  cases found : search graph graph.length [] [] start with
  | loop other =>
    rw [found] at finishes
    constructor
    · rintro ⟨⟩
      exact finishes
    · intro visits
      cases finishes.unique visits
      rfl
  | clear between =>
    rw [found] at finishes
    constructor
    · nofun
    · intro visits
      cases finishes.unique visits

end Graph

theorem ClosesLoop.exists_count {leads : Nat → Nat → Prop} {walk : List Nat}
    (h : ClosesLoop leads walk) :
    ∃ last, walk.getLast? = some last ∧ walk.dropLast.count last = 1 ∧
      ∀ node, node ≠ last → walk.count node ≤ 1 := by
  obtain ⟨last, member, ends⟩ := h.returns
  refine ⟨last, ends, List.count_eq_one_of_mem h.nodup member, fun node other => ?_⟩
  obtain ⟨path, rfl⟩ : ∃ path, walk = path ++ [last] := List.getLast?_eq_some_iff.1 ends
  have once := List.nodup_iff_count_le_one.1 h.nodup node
  rw [List.dropLast_concat] at once
  rwa [List.count_append, List.count_singleton, if_neg (by simpa using other.symm)]

theorem transGen_of_isChain {leads : Nat → Nat → Prop} {first last : Nat} {between : List Nat}
    (chain : (first :: between ++ [last]).IsChain leads) : Relation.TransGen leads first last := by
  induction between generalizing first with
  | nil => exact .single (List.isChain_cons_cons.1 chain).1
  | cons next rest ih =>
    obtain ⟨step, onward⟩ := List.isChain_cons_cons.1 chain
    exact .head step (ih onward)

namespace Graph
variable {graph : Graph} {walk : List Nat} {start : Nat}

def ReachesLoop (graph : Graph) (start : Nat) : Prop :=
  ∃ node, Relation.ReflTransGen graph.Leads start node ∧ Relation.TransGen graph.Leads node node

theorem reachesLoop_of_closesLoop (closes : ClosesLoop graph.Leads walk)
    (starts : walk.head? = some start) : graph.ReachesLoop start := by
  obtain ⟨before, last, after, rfl, _⟩ := closes.exists_eq
  have chain := closes.chain
  have loop : (last :: after ++ [last]).IsChain graph.Leads := by
    rw [List.append_assoc] at chain
    exact chain.right_of_append
  refine ⟨last, ?_, transGen_of_isChain loop⟩
  cases before with
  | nil =>
    cases starts
    exact .refl
  | cons first rest =>
    cases starts
    have way : (start :: rest ++ [last]).IsChain graph.Leads := by
      have split : start :: rest ++ last :: after ++ [last] =
          (start :: rest ++ [last]) ++ (after ++ [last]) := by simp
      rw [split] at chain
      exact chain.left_of_append
    exact (transGen_of_isChain way).to_reflTransGen

theorem not_reachesLoop_of_ends (ends : graph.Ends start) : ¬ graph.ReachesLoop start := by
  rintro ⟨node, reached, loop⟩
  induction ends with
  | intro start _ ih =>
    obtain ⟨next, leads, onward⟩ :
        ∃ next, graph.Leads start next ∧ Relation.ReflTransGen graph.Leads next node := by
      rcases Relation.ReflTransGen.cases_head reached with rfl | more
      · exact Relation.TransGen.head'_iff.1 loop
      · exact more
    exact ih next leads onward

/-- The search finishes for every graph and every start, with one outcome, and answers the walk in
it. It answers one just when a loop is in reach: a walk from the start along edges, whose last node
stands in it exactly once before and which repeats no other node. -/
theorem findLoop_exact (graph : Graph) (start : Nat) :
    (∃! outcome, graph.Visits [] [] [start] outcome) ∧
    (∀ walk, graph.findLoop start = some walk ↔ graph.Visits [] [] [start] (.loop walk)) ∧
    ((graph.findLoop start).isSome ↔
      ∃ node, Relation.ReflTransGen graph.Leads start node ∧
        Relation.TransGen graph.Leads node node) ∧
    ∀ walk, graph.findLoop start = some walk →
      walk.head? = some start ∧ walk.IsChain graph.Leads ∧
        ∃ last, walk.getLast? = some last ∧ walk.dropLast.count last = 1 ∧
          ∀ node, node ≠ last → walk.count node ≤ 1 := by
  refine ⟨⟨_, visits_start graph start, fun _ visits => visits.unique (visits_start graph start)⟩,
    fun walk => findLoop_eq_some_iff, ⟨fun found => ?_, fun reaches => ?_⟩, fun walk found => ?_⟩
  · obtain ⟨walk, found⟩ := Option.isSome_iff_exists.1 found
    obtain ⟨closes, starts⟩ := findLoop_eq_some found
    exact reachesLoop_of_closesLoop closes starts
  · by_contra none_found
    have ends := ends_of_findLoop_eq_none (Option.not_isSome_iff_eq_none.1 none_found)
    exact not_reachesLoop_of_ends ends reaches
  · obtain ⟨closes, starts⟩ := findLoop_eq_some found
    exact ⟨starts, closes.chain, closes.exists_count⟩

def detour : Graph := [(1, [5, 2, 2]), (2, [4, 3]), (3, [9, 3, 1]), (4, [5])]

theorem findLoop_exact_detour :
    detour.findLoop 1 = some [1, 2, 3, 3] ∧
    (∃! outcome, detour.Visits [] [] [1] outcome) ∧
    (∃ last, [1, 2, 3, 3].getLast? = some last ∧ [1, 2, 3, 3].dropLast.count last = 1 ∧
      ∀ node, node ≠ last → [1, 2, 3, 3].count node ≤ 1) ∧
    ∃ node, Relation.ReflTransGen detour.Leads 1 node ∧
      Relation.TransGen detour.Leads node node := by
  have found : detour.findLoop 1 = some [1, 2, 3, 3] := by decide +kernel
  obtain ⟨finishes, _, reached, walks⟩ := findLoop_exact detour 1
  exact ⟨found, finishes, (walks _ found).2.2, reached.1 (Option.isSome_of_eq_some found)⟩

end Graph

end LinkedSheet
