import StackGraph.Graph.Cycle
import StackGraph.Proofs.Graph.Reachability
/-!
# The listed cycles are the simple cycles

`Graph.cycles` is a backtracking search: inside each component it starts at
every module, extends a path by modules that are greater than its start and
not yet on it, and writes a cycle down whenever an edge leads back to the
start. This module says what such a search finds, and that it is what was
asked for: every simple cycle of the graph, once, written from its least
module on, in the order of length and then of the names.

Two restrictions make the search finite and free of repetitions, and neither
loses a cycle. A cycle is closed, so each of its modules reaches each other
one and all of them lie in one component. And a cycle has one least module, so
among all its turnings exactly one is above its start. What remains is the
search itself, and there the point is to say what a *call* finds, in the
middle of a path: the ways back to the start (`Graph.WayBack`). The recursion
of the search is the recursion of these ways, so one induction gives both
directions.

Nothing depends on how components are found. Any lists that are the
components of the graph in the sense of `Graph.AreComponents` give the same
answer, whichever order they come in.
-/

namespace StackGraph

open Std Relation

namespace Cycle

/-! ## Where a cycle starts -/

theorem leastIndex_go_of_forall {least : String} {best i : Nat} {ms : List String}
    (h : ∀ m ∈ ms, ¬ m < least) : leastIndex.go least best i ms = best := by
  induction ms generalizing i with
  | nil => rfl
  | cons m ms ih =>
    rw [leastIndex.go, if_neg (h m List.mem_cons_self)]
    exact ih fun x hx => h x (List.mem_cons_of_mem _ hx)

/-- What comes before the least name is passed over. -/
theorem leastIndex_go_append {least m : String} {best i : Nat} {before after : List String}
    (hm : m < least) (hbefore : ∀ a ∈ before, m < a) (hafter : ∀ a ∈ after, ¬ a < m) :
    leastIndex.go least best i (before ++ m :: after) = i + before.length := by
  induction before generalizing least best i with
  | nil =>
    rw [List.nil_append, leastIndex.go, if_pos hm]
    exact leastIndex_go_of_forall hafter
  | cons b before ih =>
    obtain ⟨hb, hbefore⟩ := List.forall_mem_cons.1 hbefore
    rw [List.cons_append, leastIndex.go, List.length_cons, Nat.add_comm before.length,
      ← Nat.add_assoc]
    split
    · exact ih hb hbefore
    · exact ih hm hbefore

variable {m : String} {before after : List String}

theorem leastIndex_append (hbefore : ∀ a ∈ before, m < a) (hafter : ∀ a ∈ after, ¬ a < m) :
    leastIndex (before ++ m :: after) = before.length := by
  cases before with
  | nil => exact leastIndex_go_of_forall hafter
  | cons b before =>
    obtain ⟨hb, hbefore⟩ := List.forall_mem_cons.1 hbefore
    rw [List.cons_append, leastIndex, leastIndex_go_append hb hbefore hafter, List.length_cons,
      Nat.add_comm]

/-- **A list is turned to its least member**: what comes before it is put behind
the rest. -/
theorem ofMembers_append (hbefore : ∀ a ∈ before, m < a) (hafter : ∀ a ∈ after, m < a) :
    ofMembers (before ++ m :: after) = ⟨m :: (after ++ before) ++ [m]⟩ := by
  unfold ofMembers
  rw [leastIndex_append hbefore fun a ha => String.lt_asymm (hafter a ha)]
  simp

/-- A list that starts with its least member is not turned. -/
theorem ofMembers_of_forall_lt {first : String} {rest : List String}
    (h : ∀ a ∈ rest, first < a) : ofMembers (first :: rest) = ⟨first :: rest ++ [first]⟩ := by
  rw [← List.nil_append (first :: rest), ofMembers_append (List.forall_mem_nil _) h,
    List.append_nil, List.nil_append]

/-! ## The order of cycles -/

/-- **The order in which cycles are listed**: a shorter cycle comes first, and
of two cycles of one length the one whose names come first. -/
def Precedes (a b : Cycle) : Prop :=
  a.length < b.length ∨ a.length = b.length ∧ a.walk < b.walk

theorem compare_eq_lt {a b : Cycle} : compare a b = .lt ↔ a.Precedes b := by
  simp only [compare, compareLex, compareOn, Ordering.then_eq_lt, Nat.compare_eq_lt,
    Nat.compare_eq_eq, compareList_eq_lt]
  rfl

theorem Precedes.ne {a b : Cycle} (h : a.Precedes b) : a ≠ b := by
  rintro rfl
  rcases h with h | ⟨-, h⟩
  · exact Nat.lt_irrefl _ h
  · exact List.lt_irrefl _ h

end Cycle

namespace Graph

variable {g : Graph} {members earlier rest : List String} {start current : String}

/-! ## What a search finds -/

/-- **A way back to the start**: modules that lead from the current one to the
start, all of them inside the given members, above the start, new to the path
and different from each other. -/
structure WayBack (g : Graph) (members : List String) (start current : String)
    (earlier rest : List String) : Prop where
  chain : List.IsChain g.HasEdge (current :: rest ++ [start])
  start_mem : start ∈ members
  inside : ∀ a ∈ rest, a ∈ members
  above : ∀ a ∈ rest, start < a
  fresh : ∀ a ∈ rest, a ∉ current :: earlier
  nodup : rest.Nodup

/-- The way back that takes the edge to the start at once. -/
theorem wayBack_nil :
    g.WayBack members start current earlier [] ↔ g.HasEdge current start ∧ start ∈ members := by
  constructor
  · intro h
    exact ⟨List.isChain_pair.1 h.chain, h.start_mem⟩
  · rintro ⟨he, hs⟩
    exact ⟨List.isChain_pair.2 he, hs, by simp, by simp, by simp, .nil⟩

/-- A longer way back takes one step that the search allows and goes on from
there. -/
theorem wayBack_cons {next : String} :
    g.WayBack members start current earlier (next :: rest)
      ↔ (g.HasEdge current next ∧ next ∈ members ∧ start < next ∧ next ∉ current :: earlier)
        ∧ g.WayBack members start next (current :: earlier) rest := by
  constructor
  · intro h
    obtain ⟨he, hchain⟩ := List.isChain_cons_cons.1 h.chain
    obtain ⟨hin, hinside⟩ := List.forall_mem_cons.1 h.inside
    obtain ⟨hab, habove⟩ := List.forall_mem_cons.1 h.above
    obtain ⟨hfr, hfresh⟩ := List.forall_mem_cons.1 h.fresh
    obtain ⟨hne, hnodup⟩ := List.nodup_cons.1 h.nodup
    refine ⟨⟨he, hin, hab, hfr⟩, hchain, h.start_mem, hinside, habove, fun a ha => ?_, hnodup⟩
    rw [List.mem_cons, not_or]
    exact ⟨fun hx => hne (hx ▸ ha), hfresh a ha⟩
  · rintro ⟨⟨he, hin, hab, hfr⟩, h⟩
    have hne : next ∉ rest := fun hx => h.fresh next hx List.mem_cons_self
    refine ⟨List.isChain_cons_cons.2 ⟨he, h.chain⟩, h.start_mem, ?_, ?_, ?_,
      List.nodup_cons.2 ⟨hne, h.nodup⟩⟩
    · exact List.forall_mem_cons.2 ⟨hin, h.inside⟩
    · exact List.forall_mem_cons.2 ⟨hab, h.above⟩
    · exact List.forall_mem_cons.2
        ⟨hfr, fun a ha hx => h.fresh a ha (List.mem_cons_of_mem _ hx)⟩

/-- **What a call of the search finds**: the ways back that are short enough
for the steps that remain, each put behind the path so far. -/
theorem mem_cyclesAlong {steps : Nat} {c : Cycle} :
    c ∈ g.cyclesAlong members start steps current earlier
      ↔ ∃ rest, rest.length < steps ∧ g.WayBack members start current earlier rest
        ∧ c = Cycle.ofMembers ((current :: earlier).reverse ++ rest) := by
  induction steps generalizing current earlier with
  | zero => simp [cyclesAlong]
  | succ steps ih =>
    simp only [cyclesAlong, List.mem_flatMap, List.mem_filter, mem_dependents, decide_eq_true_eq]
    constructor
    · rintro ⟨next, ⟨he, hin⟩, hc⟩
      -- the edge closes the cycle, or it leads on, or it is not allowed
      split at hc
      · rename_i hstart
        subst hstart
        exact ⟨[], Nat.succ_pos _, wayBack_nil.2 ⟨he, hin⟩, by simpa using hc⟩
      · split at hc
        · rename_i hnext
          obtain ⟨rest, hlen, hway, rfl⟩ := ih.1 hc
          exact ⟨next :: rest, Nat.succ_lt_succ hlen,
            wayBack_cons.2 ⟨⟨he, hin, hnext⟩, hway⟩, by simp⟩
        · exact absurd hc List.not_mem_nil
    · rintro ⟨rest, hlen, hway, rfl⟩
      cases rest with
      | nil =>
        refine ⟨start, wayBack_nil.1 hway, ?_⟩
        rw [if_pos rfl]
        simp
      | cons next rest =>
        obtain ⟨⟨he, hin, habove, hfresh⟩, hway⟩ := wayBack_cons.1 hway
        have hne : next ≠ start := fun h => String.lt_irrefl _ (h ▸ habove)
        refine ⟨next, ⟨he, hin⟩, ?_⟩
        rw [if_neg hne, if_pos ⟨habove, hfresh⟩]
        exact ih.2 ⟨rest, Nat.lt_of_succ_lt_succ hlen, hway, by simp⟩

/-- A way back from the start itself has fewer modules than there are members,
so a search never runs out of steps. -/
theorem WayBack.length_lt (h : g.WayBack members start start [] rest) :
    rest.length < members.length := by
  have hnodup : (start :: rest).Nodup :=
    List.nodup_cons.2 ⟨fun hs => String.lt_irrefl _ (h.above start hs), h.nodup⟩
  have hsub : start :: rest ⊆ members :=
    List.cons_subset.2 ⟨h.start_mem, fun a ha => h.inside a ha⟩
  exact hnodup.length_le_of_subset hsub

/-- No module has an edge to itself, so a way back from the start visits
another module. -/
theorem WayBack.ne_nil (h : g.WayBack members start start [] rest) : rest ≠ [] := by
  rintro rfl
  exact (wayBack_nil.1 h).1.ne rfl

/-- **The cycles among some members** are the ways back from each of them to
itself. -/
theorem mem_cyclesAmong {c : Cycle} :
    c ∈ g.cyclesAmong members
      ↔ ∃ first rest, g.WayBack members first first [] rest
        ∧ c.walk = first :: rest ++ [first] := by
  have hwalk : ∀ {first : String} {rest : List String}, g.WayBack members first first [] rest →
      (c = Cycle.ofMembers ([first].reverse ++ rest) ↔ c.walk = first :: rest ++ [first]) := by
    intro first rest hway
    rw [show [first].reverse ++ rest = first :: rest from rfl,
      Cycle.ofMembers_of_forall_lt hway.above]
    cases c
    exact Cycle.mk.injEq _ _ ▸ Iff.rfl
  rw [cyclesAmong]
  split
  · rename_i hfew
    refine ⟨fun h => absurd h List.not_mem_nil, ?_⟩
    rintro ⟨first, rest, hway, -⟩
    have hlen := hway.length_lt
    have hpos := List.length_pos_iff.2 hway.ne_nil
    omega
  · simp only [List.mem_flatMap, mem_cyclesAlong]
    constructor
    · rintro ⟨first, -, rest, -, hway, hc⟩
      exact ⟨first, rest, hway, (hwalk hway).1 hc⟩
    · rintro ⟨first, rest, hway, hc⟩
      exact ⟨first, hway.start_mem, rest, hway.length_lt, hway, (hwalk hway).2 hc⟩

/-! ## Simple cycles -/

/-- **A simple cycle**: at least two modules, pairwise distinct, each with an
edge to the next and the last with an edge to the first. -/
structure IsSimpleCycle (g : Graph) (first : String) (rest : List String) : Prop where
  /-- There is a second module. -/
  ne_nil : rest ≠ []
  nodup : (first :: rest).Nodup
  mem_modules : ∀ a ∈ first :: rest, a ∈ g.modules
  /-- The edges, with the one that returns to the first module at the end. -/
  chain : List.IsChain g.HasEdge (first :: rest ++ [first])

/-- **A closed walk stays in one component**: its first module reaches each of
the others and is reached from it. -/
theorem reaches_of_closed {first a : String}
    (h : List.IsChain g.HasEdge (first :: rest ++ [first])) (ha : a ∈ rest) :
    ReflTransGen g.HasEdge first a ∧ ReflTransGen g.HasEdge a first := by
  obtain ⟨before, after, rfl⟩ := List.append_of_mem ha
  rw [show first :: (before ++ a :: after) ++ [first]
      = (first :: before) ++ a :: (after ++ [first]) by simp, List.isChain_split] at h
  exact ⟨List.relationReflTransGen_of_exists_isChain_cons (before ++ [a]) h.1 (by simp),
    List.relationReflTransGen_of_exists_isChain_cons (after ++ [first]) h.2 (by simp)⟩

variable {parts : List (List String)}

/-- **The cycles inside the components of a graph are its simple cycles**, each
written from its least module on. -/
theorem mem_cyclesWithin (h : g.AreComponents parts) {c : Cycle} :
    c ∈ g.cyclesWithin parts
      ↔ ∃ first rest, c.walk = first :: rest ++ [first]
        ∧ g.IsSimpleCycle first rest ∧ ∀ a ∈ rest, first < a := by
  simp only [cyclesWithin, ExtTreeSet.mem_toList, mem_setOfList, List.mem_flatMap,
    mem_cyclesAmong]
  constructor
  · rintro ⟨part, hpart, first, rest, hway, hc⟩
    refine ⟨first, rest, hc, ⟨hway.ne_nil, List.nodup_cons.2 ⟨?_, hway.nodup⟩, ?_, hway.chain⟩,
      hway.above⟩
    · exact fun hs => String.lt_irrefl _ (hway.above first hs)
    · exact List.forall_mem_cons.2 ⟨h.mem_modules part hpart first hway.start_mem,
        fun a ha => h.mem_modules part hpart a (hway.inside a ha)⟩
  · rintro ⟨first, rest, hc, hcycle, habove⟩
    -- the component of the first module holds the whole cycle
    obtain ⟨part, hpart, hfirst⟩ := h.covers first (hcycle.mem_modules first List.mem_cons_self)
    have hinside : ∀ a ∈ rest, a ∈ part := fun a ha =>
      (h.mem_iff part hpart first hfirst a).2 (reaches_of_closed hcycle.chain ha)
    obtain ⟨hnotin, hnodup⟩ := List.nodup_cons.1 hcycle.nodup
    refine ⟨part, hpart, first, rest, ⟨hcycle.chain, hfirst, hinside, habove, ?_, hnodup⟩, hc⟩
    intro a ha hmem
    exact hnotin (List.mem_singleton.1 hmem ▸ ha)

/-- The cycles come out in order. -/
theorem pairwise_precedes_cyclesWithin (g : Graph) (parts : List (List String)) :
    (g.cyclesWithin parts).Pairwise Cycle.Precedes :=
  ExtTreeSet.ordered_toList.imp Cycle.compare_eq_lt.1

/-- **The answer does not depend on how the components are listed.** -/
theorem cyclesWithin_eq_cycles (h : g.AreComponents parts) : g.cyclesWithin parts = g.cycles := by
  rw [cycles, cyclesWithin, cyclesWithin]
  refine congrArg ExtTreeSet.toList (ExtTreeSet.ext_mem fun c => ?_)
  have hmem : ∀ parts', c ∈ ExtTreeSet.ofList (parts'.flatMap g.cyclesAmong) Cycle.compare
      ↔ c ∈ g.cyclesWithin parts' := fun parts' => ExtTreeSet.mem_toList.symm
  rw [hmem, hmem, mem_cyclesWithin h, mem_cyclesWithin g.areComponents_components]

/-- The cycles of the graph are its simple cycles. -/
theorem mem_cycles {c : Cycle} :
    c ∈ g.cycles
      ↔ ∃ first rest, c.walk = first :: rest ++ [first]
        ∧ g.IsSimpleCycle first rest ∧ ∀ a ∈ rest, first < a :=
  mem_cyclesWithin g.areComponents_components

/-- **Every simple cycle is listed once, and nothing else is**, in the order of
length and then of the names. Any lists that are the strongly connected
components of the graph lead to the same list, which is the one that
`Graph.cycles` gives. -/
theorem cyclesWithin_exactly_simpleCycles (g : Graph) (parts : List (List String))
    (h : g.AreComponents parts) :
    (∀ walk : List String, ⟨walk⟩ ∈ g.cyclesWithin parts
        ↔ ∃ first rest, walk = first :: rest ++ [first]
          ∧ g.IsSimpleCycle first rest ∧ ∀ a ∈ rest, first < a)
      ∧ (g.cyclesWithin parts).Nodup
      ∧ (g.cyclesWithin parts).Pairwise Cycle.Precedes
      ∧ g.cycles = g.cyclesWithin parts := by
  refine ⟨fun walk => mem_cyclesWithin h, ?_, pairwise_precedes_cyclesWithin g parts,
    (cyclesWithin_eq_cycles h).symm⟩
  exact (pairwise_precedes_cyclesWithin g parts).imp Cycle.Precedes.ne

/-- Two cycles that share an edge: `a` and `b` need each other, and `c` stands
on the way back from `b` to `a`. -/
def sharedEdge : Graph :=
  let modules := ["a", "b", "c"].foldl (fun g id => g.addModule (.new id ⟨id⟩)) empty
  [("a", "b"), ("b", "a"), ("b", "c"), ("c", "a")].foldl
    (fun g e => g.addEdge e.1 e.2 .explicit) modules

/-- The longer cycle of the example is listed. -/
theorem cyclesWithin_sharedEdge :
    sharedEdge.AreComponents [["a", "b", "c"]] ∧ sharedEdge.IsSimpleCycle "a" ["b", "c"]
      ∧ ⟨["a", "b", "c", "a"]⟩ ∈ sharedEdge.cyclesWithin [["a", "b", "c"]] := by
  have hparts : sharedEdge.AreComponents [["a", "b", "c"]] := by
    have h := sharedEdge.areComponents_components
    rwa [show sharedEdge.components = [["a", "b", "c"]] by decide] at h
  have hcycle : sharedEdge.IsSimpleCycle "a" ["b", "c"] :=
    ⟨by decide, by decide, by decide, by decide⟩
  refine ⟨hparts, hcycle, ?_⟩
  exact ((cyclesWithin_exactly_simpleCycles sharedEdge _ hparts).1 _).2
    ⟨"a", ["b", "c"], rfl, hcycle, by decide⟩

end Graph

end StackGraph
