import LinkedSheet.Cycle
import Mathlib.Data.List.Chain
import Mathlib.Data.List.Nodup
import Mathlib.Data.List.Perm.Subperm
import Mathlib.Logic.Relation

/-!
The search for loops is exact. It gives a walk just when some way of following edges from its start
never ends, and in a finite graph that means a loop is reachable. The walk that it gives comes back
to one of its own nodes and repeats no other; cut off before that node, it is a simple loop.

Fuel never decides: a way has no repetition and all its nodes have entries, so it is no longer than
the graph, and a node with an entry that is not yet on the way leaves room for one more.
-/
namespace LinkedSheet

/-- A walk whose last node stands once more in it, and which has no other repetition. -/
structure ClosesLoop (leads : Nat → Nat → Prop) (walk : List Nat) : Prop where
  chain : walk.IsChain leads
  nodup : walk.dropLast.Nodup
  returns : ∃ last ∈ walk.dropLast, walk.getLast? = some last

/-- A walk that ends where it began and has no other repetition. -/
structure SimpleLoop (leads : Nat → Nat → Prop) (walk : List Nat) : Prop where
  two_le_length : 2 ≤ walk.length
  closed : walk.head? = walk.getLast?
  nodup : walk.dropLast.Nodup
  chain : walk.IsChain leads

namespace Graph

def Leads (graph : Graph) (a b : Nat) : Prop :=
  ∃ targets, graph.targets? a = some targets ∧ b ∈ targets

/-- Every way of following edges from the node comes to an end. -/
def Ends (graph : Graph) : Nat → Prop :=
  Acc fun b a => graph.Leads a b

theorem mem_of_targets? {graph : Graph} {node : Nat} {targets : List Nat}
    (entry : graph.targets? node = some targets) : (node, targets) ∈ graph := by
  obtain ⟨before, after, split, _⟩ := List.lookup_eq_some_iff.1 entry
  rw [← List.mem_reverse, split]
  simp

theorem leads_iff_of_nodup {graph : Graph} (distinct : (graph.map (·.1)).Nodup) {a b : Nat} :
    graph.Leads a b ↔ ∃ node ∈ graph, node.1 = a ∧ b ∈ node.2 := by
  constructor
  · rintro ⟨targets, entry, member⟩
    exact ⟨(a, targets), mem_of_targets? entry, rfl, member⟩
  · rintro ⟨node, present, rfl, member⟩
    cases entry : graph.targets? node.1 with
    | none =>
      have absent := List.lookup_eq_none_iff.1 entry node (List.mem_reverse.2 present)
      simp at absent
    | some found =>
      have same := List.inj_on_of_nodup_map distinct (mem_of_targets? entry) present rfl
      have targets : found = node.2 := congrArg (·.2) same
      exact ⟨found, entry, targets ▸ member⟩

theorem leads_append_singleton_iff {graph : Graph} {node a b : Nat} {targets : List Nat} :
    Leads (graph ++ [(node, targets)]) a b ↔
      if a = node then b ∈ targets else graph.Leads a b := by
  by_cases same : a = node
  · simp [Leads, targets?, same]
  · simp [Leads, targets?, List.lookup_cons, beq_eq_false_iff_ne.2 same, same]

theorem ends_of_no_targets {graph : Graph} {node : Nat} (entry : graph.targets? node = none) :
    graph.Ends node := by
  refine Acc.intro node fun next leads => ?_
  obtain ⟨targets, found, _⟩ := leads
  rw [entry] at found
  cases found

theorem ends_of_targets {graph : Graph} {node : Nat} {targets : List Nat}
    (entry : graph.targets? node = some targets) (all : ∀ next ∈ targets, graph.Ends next) :
    graph.Ends node := by
  refine Acc.intro node fun next leads => ?_
  obtain ⟨found, same, member⟩ := leads
  rw [entry, Option.some.injEq] at same
  exact all next (same ▸ member)

/-- The nodes on the way to a node, the last first: each leads to the one before it in the list. -/
structure IsWay (graph : Graph) (way : List Nat) (node : Nat) : Prop where
  nodup : way.Nodup
  chain : (node :: way).IsChain fun b a => graph.Leads a b

theorem IsWay.nil (graph : Graph) (node : Nat) : graph.IsWay [] node :=
  ⟨List.nodup_nil, List.isChain_singleton node⟩

theorem IsWay.cons {graph : Graph} {way : List Nat} {node next : Nat}
    (h : graph.IsWay way node) (new : node ∉ way) (leads : graph.Leads node next) :
    graph.IsWay (node :: way) next :=
  ⟨List.nodup_cons.2 ⟨new, h.nodup⟩, h.chain.cons_cons leads⟩

theorem IsWay.mem_keys {graph : Graph} {way : List Nat} {node : Nat} (h : graph.IsWay way node)
    {other : Nat} (member : other ∈ way) : other ∈ graph.map (·.1) := by
  have chain := h.chain
  clear h
  induction way generalizing node with
  | nil => cases member
  | cons head tail ih =>
    rw [List.isChain_cons_cons] at chain
    obtain ⟨⟨targets, entry, _⟩, rest⟩ := chain
    rcases List.mem_cons.1 member with rfl | later
    · exact List.mem_map_of_mem (mem_of_targets? entry)
    · exact ih later rest

theorem IsWay.length_lt {graph : Graph} {way : List Nat} {node : Nat} {targets : List Nat}
    (h : graph.IsWay way node) (new : node ∉ way) (entry : graph.targets? node = some targets) :
    way.length < graph.length := by
  have inside : node :: way ⊆ graph.map (·.1) := by
    intro other member
    rcases List.mem_cons.1 member with rfl | earlier
    · exact List.mem_map_of_mem (mem_of_targets? entry)
    · exact h.mem_keys earlier
  have bound := ((List.nodup_cons.2 ⟨new, h.nodup⟩).subperm inside).length_le
  rw [List.length_map, List.length_cons] at bound
  omega

theorem IsWay.closesLoop {graph : Graph} {way : List Nat} {node : Nat} (h : graph.IsWay way node)
    (again : node ∈ way) : ClosesLoop graph.Leads (way.reverse ++ [node]) := by
  have split : way.reverse ++ [node] = (node :: way).reverse := by simp
  refine ⟨?_, ?_, node, ?_, by simp⟩
  · rw [split, List.isChain_reverse]
    exact h.chain
  · rw [List.dropLast_concat, List.nodup_reverse]
    exact h.nodup
  · rw [List.dropLast_concat, List.mem_reverse]
    exact again

theorem visitAll_clear {visit : List Nat → Nat → Search} {good : Nat → Prop} {targets : List Nat}
    {done result : List Nat}
    (step : ∀ target ∈ targets, ∀ done result, (∀ node ∈ done, good node) →
      visit done target = .clear result → (∀ node ∈ result, good node) ∧ good target)
    (settled : ∀ node ∈ done, good node) (found : visitAll visit done targets = .clear result) :
    (∀ node ∈ result, good node) ∧ ∀ target ∈ targets, good target := by
  induction targets generalizing done with
  | nil =>
    rw [visitAll, Search.clear.injEq] at found
    exact ⟨found ▸ settled, by simp⟩
  | cons target rest ih =>
    cases first : visit done target with
    | loop walk => simp [visitAll, first] at found
    | clear between =>
      simp only [visitAll, first] at found
      have visited := step target List.mem_cons_self done between settled first
      have others := ih (fun later member => step later (List.mem_cons_of_mem target member))
        visited.1 found
      exact ⟨others.1, List.forall_mem_cons.2 ⟨visited.2, others.2⟩⟩

theorem visitAll_loop {visit : List Nat → Nat → Search} {targets done walk : List Nat}
    (found : visitAll visit done targets = .loop walk) :
    ∃ target ∈ targets, ∃ done, visit done target = .loop walk := by
  induction targets generalizing done with
  | nil => simp [visitAll] at found
  | cons target rest ih =>
    cases first : visit done target with
    | loop other =>
      simp only [visitAll, first, Search.loop.injEq] at found
      exact ⟨target, List.mem_cons_self, done, found ▸ first⟩
    | clear between =>
      simp only [visitAll, first] at found
      obtain ⟨later, member, earlier, visited⟩ := ih found
      exact ⟨later, List.mem_cons_of_mem target member, earlier, visited⟩

def Search.settle (node : Nat) : Search → Search
  | loop walk => loop walk
  | clear done => clear (node :: done)

theorem Search.settle_eq_loop {node : Nat} {inner : Search} {walk : List Nat} :
    inner.settle node = .loop walk ↔ inner = .loop walk := by
  cases inner <;> simp [Search.settle]

theorem Search.settle_eq_clear {node : Nat} {inner : Search} {result : List Nat} :
    inner.settle node = .clear result ↔ ∃ done, inner = .clear done ∧ node :: done = result := by
  cases inner <;> simp [Search.settle]

theorem search_cases {graph : Graph} {fuel : Nat} {way : List Nat} {node : Nat}
    (onWay : graph.IsWay way node) (room : graph.length ≤ fuel + way.length) (done : List Nat) :
    (node ∈ way ∧ search graph fuel way done node = .loop (way.reverse ++ [node])) ∨
    (node ∉ way ∧ (node ∈ done ∨ graph.targets? node = none) ∧
      search graph fuel way done node = .clear done) ∨
    ∃ less targets, fuel = less + 1 ∧ node ∉ way ∧ node ∉ done ∧
      graph.targets? node = some targets ∧ search graph fuel way done node =
        (visitAll (search graph less (node :: way)) done targets).settle node := by
  by_cases again : node ∈ way
  · left
    exact ⟨again, by unfold search; simp [again]⟩
  · right
    by_cases old : node ∈ done
    · left
      exact ⟨again, .inl old, by unfold search; simp [again, old]⟩
    · cases entry : graph.targets? node with
      | none =>
        left
        exact ⟨again, .inr rfl, by unfold search; simp [again, entry]⟩
      | some targets =>
        right
        have short := onWay.length_lt again entry
        obtain ⟨less, rfl⟩ : ∃ less, fuel = less + 1 := ⟨fuel - 1, by omega⟩
        refine ⟨less, targets, rfl, again, old, rfl, ?_⟩
        rw [search]
        simp only [List.contains_eq_mem, again, old, entry, decide_false, Bool.false_eq_true,
          if_false]
        cases visitAll (search graph less (node :: way)) done targets <;> rfl

theorem search_clear {graph : Graph} {fuel : Nat} {way done result : List Nat} {node : Nat}
    (onWay : graph.IsWay way node) (room : graph.length ≤ fuel + way.length)
    (settled : ∀ other ∈ done, graph.Ends other)
    (found : search graph fuel way done node = .clear result) :
    (∀ other ∈ result, graph.Ends other) ∧ graph.Ends node := by
  induction fuel using Nat.strong_induction_on generalizing way done node result with
  | _ fuel ih =>
    rcases search_cases onWay room done with ⟨_, eq⟩ | ⟨_, old, eq⟩ |
      ⟨less, targets, rfl, new, _, entry, eq⟩
    · rw [found] at eq
      cases eq
    · rw [found, Search.clear.injEq] at eq
      subst eq
      exact ⟨settled, old.elim (settled node) ends_of_no_targets⟩
    · rw [found] at eq
      obtain ⟨between, visited, rfl⟩ := Search.settle_eq_clear.1 eq.symm
      have step : ∀ target ∈ targets, ∀ done result, (∀ other ∈ done, graph.Ends other) →
          search graph less (node :: way) done target = .clear result →
          (∀ other ∈ result, graph.Ends other) ∧ graph.Ends target := by
        intro target member done result settled found
        have longer := onWay.cons new ⟨targets, entry, member⟩
        exact ih less (Nat.lt_succ_self less) longer (by rw [List.length_cons]; omega) settled found
      have all := visitAll_clear step settled visited
      have ends := ends_of_targets entry all.2
      exact ⟨List.forall_mem_cons.2 ⟨ends, all.1⟩, ends⟩

theorem search_loop {graph : Graph} {fuel : Nat} {way done walk : List Nat} {node : Nat}
    (onWay : graph.IsWay way node) (room : graph.length ≤ fuel + way.length)
    (found : search graph fuel way done node = .loop walk) :
    ClosesLoop graph.Leads walk ∧ way.reverse ++ [node] <+: walk := by
  induction fuel using Nat.strong_induction_on generalizing way done node walk with
  | _ fuel ih =>
    rcases search_cases onWay room done with ⟨again, eq⟩ | ⟨_, _, eq⟩ |
      ⟨less, targets, rfl, new, _, entry, eq⟩
    · rw [found, Search.loop.injEq] at eq
      subst eq
      exact ⟨onWay.closesLoop again, List.prefix_refl _⟩
    · rw [found] at eq
      cases eq
    · rw [found] at eq
      obtain ⟨target, member, between, reached⟩ := visitAll_loop (Search.settle_eq_loop.1 eq.symm)
      have longer := onWay.cons new ⟨targets, entry, member⟩
      have result :=
        ih less (Nat.lt_succ_self less) longer (by rw [List.length_cons]; omega) reached
      refine ⟨result.1, List.IsPrefix.trans ?_ result.2⟩
      rw [List.reverse_cons]
      exact List.prefix_append _ _

theorem findLoop_eq_some {graph : Graph} {start : Nat} {walk : List Nat}
    (found : graph.findLoop start = some walk) :
    ClosesLoop graph.Leads walk ∧ walk.head? = some start := by
  unfold findLoop at found
  split at found
  · rename_i inner reached
    cases found
    obtain ⟨closes, rest, rfl⟩ :=
      search_loop (IsWay.nil graph start) (Nat.le_add_right _ _) reached
    exact ⟨closes, rfl⟩
  · cases found

theorem ends_of_findLoop_eq_none {graph : Graph} {start : Nat}
    (found : graph.findLoop start = none) : graph.Ends start := by
  unfold findLoop at found
  split at found
  · cases found
  · rename_i result reached
    exact (search_clear (IsWay.nil graph start) (Nat.le_add_right _ _) (by simp) reached).2

end Graph

theorem ClosesLoop.exists_eq {leads : Nat → Nat → Prop} {walk : List Nat}
    (h : ClosesLoop leads walk) :
    ∃ before last after, walk = before ++ last :: after ++ [last] ∧ last ∉ before := by
  obtain ⟨last, member, ends⟩ := h.returns
  obtain ⟨path, rfl⟩ : ∃ path, walk = path ++ [last] := List.getLast?_eq_some_iff.1 ends
  rw [List.dropLast_concat] at member
  obtain ⟨before, after, rfl, new⟩ := List.eq_append_cons_of_mem member
  exact ⟨before, last, after, rfl, new⟩

theorem ClosesLoop.simpleLoop {leads : Nat → Nat → Prop} {walk : List Nat}
    (h : ClosesLoop leads walk) : SimpleLoop leads (Graph.closing walk) := by
  obtain ⟨before, last, after, rfl, new⟩ := h.exists_eq
  have chain := h.chain
  have nodup := h.nodup
  rw [List.dropLast_concat] at nodup
  have passed : ∀ node ∈ before, (node != last) = true := by
    intro node earlier
    simp only [bne_iff_ne, ne_eq]
    rintro rfl
    exact new earlier
  have cut : Graph.closing (before ++ last :: after ++ [last]) = last :: after ++ [last] := by
    simp only [Graph.closing, List.getLast?_concat]
    rw [List.append_assoc, List.dropWhile_append_of_pos passed]
    simp
  rw [cut]
  refine ⟨by simp, by rw [List.getLast?_concat]; rfl, ?_, ?_⟩
  · rw [List.dropLast_concat]
    exact (List.nodup_append.1 nodup).2.1
  · rw [List.append_assoc] at chain
    exact chain.right_of_append

theorem SimpleLoop.transGen {leads : Nat → Nat → Prop} {walk : List Nat}
    (h : SimpleLoop leads walk) : ∃ node, Relation.TransGen leads node node := by
  have length := h.two_le_length
  have closed := h.closed
  have chain := h.chain
  match walk with
  | first :: second :: rest =>
    obtain ⟨leads, onward⟩ := List.isChain_cons_cons.1 chain
    have reaches := List.relationReflTransGen_of_exists_isChain _ onward (List.cons_ne_nil _ _)
    have last : (second :: rest).getLast (List.cons_ne_nil _ _) = first := by
      rw [List.head?_cons, List.getLast?_cons_cons,
        List.getLast?_eq_some_getLast (List.cons_ne_nil _ _)] at closed
      exact (Option.some.inj closed).symm
    rw [last] at reaches
    exact ⟨first, Relation.TransGen.head' leads reaches⟩

theorem SimpleLoop.exists_leads {leads : Nat → Nat → Prop} {walk : List Nat}
    (h : SimpleLoop leads walk) {node : Nat} (member : node ∈ walk) : ∃ next, leads node next := by
  have chain := h.chain
  obtain ⟨before, after, rfl⟩ := List.append_of_mem member
  cases after with
  | cons next after => exact ⟨next, (List.isChain_append_cons_cons.1 chain).2.1⟩
  | nil =>
    have closed := h.closed
    have length := h.two_le_length
    match before with
    | [] => simp at length
    | first :: before =>
      rw [List.getLast?_concat, List.cons_append, List.head?_cons, Option.some.injEq] at closed
      subst closed
      cases before with
      | nil => exact ⟨first, (List.isChain_cons_cons.1 chain).1⟩
      | cons second before => exact ⟨second, (List.isChain_cons_cons.1 chain).1⟩

end LinkedSheet
