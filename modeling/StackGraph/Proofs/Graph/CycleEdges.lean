import Mathlib.Data.String.Basic
import StackGraph.Proofs.Graph.Cycles
import StackGraph.Proofs.Graph.Paths
/-!
# What lies on a cycle

The listed cycles are simple cycles, and each is written from its least module
on. Reports do not ask for the cycles alone but for what lies on one of them,
and that can be said without cycles: an edge does exactly if its target reaches
its source (`Graph.exists_mem_edges_iff`), and a module does exactly if it
reaches itself (`Graph.exists_mem_members_iff`).

One half is that a cycle is a closed walk. For the other half a way back from
the target to the source is made simple, and closed by the edge it becomes a
simple cycle. That cycle starts at the target of the edge, while the listed one
starts at its least module; turning a closed walk changes its beginning but not
its edges (`List.isChain_turn`), so the edge is found on the listed one.
-/

/-- **Turning a closed chain.** A chain that runs from `a` past `b` back to `a`
is one that runs from `b` past `a` back to `b`. -/
theorem List.isChain_turn {α : Type} {r : α → α → Prop} {a b : α} {xs ys : List α} :
    IsChain r (a :: (xs ++ b :: ys) ++ [a]) ↔ IsChain r (b :: (ys ++ a :: xs) ++ [b]) := by
  have hsplit : ∀ (x y : α) (l m : List α), IsChain r (x :: (l ++ y :: m) ++ [x])
      ↔ IsChain r (x :: l ++ [y]) ∧ IsChain r (y :: (m ++ [x])) := by
    intro x y l m
    rw [show x :: (l ++ y :: m) ++ [x] = (x :: l) ++ y :: (m ++ [x]) by simp]
    exact isChain_split
  rw [hsplit, hsplit, and_comm]
  rfl

namespace StackGraph

open Std Relation

variable {u v : String}

namespace Cycle

variable {c : Cycle}

/-- **Different names have one least name**, which comes before each of the
others. -/
theorem exists_least {l : List String} (hne : l ≠ []) (hl : l.Nodup) :
    ∃ before least after, l = before ++ least :: after ∧ ∀ a ∈ after ++ before, least < a := by
  obtain ⟨a, ha⟩ := List.exists_mem_of_ne_nil l hne
  obtain ⟨least, hleast⟩ := Option.isSome_iff_exists.1 (List.isSome_min?_of_mem ha)
  obtain ⟨hmem, hle⟩ := List.min?_eq_some_iff.1 hleast
  obtain ⟨before, after, rfl⟩ := List.append_of_mem hmem
  have hperm : (before ++ least :: after).Perm (least :: (after ++ before)) :=
    List.perm_append_comm
  obtain ⟨hnotin, -⟩ := List.nodup_cons.1 (hperm.nodup_iff.1 hl)
  refine ⟨before, least, after, rfl, fun a ha => ?_⟩
  have hle : least ≤ a := hle a (hperm.mem_iff.2 (List.mem_cons_of_mem _ ha))
  exact hle.lt_of_ne fun h => hnotin (h ▸ ha)

/-- The pairs of neighbours in a list. -/
theorem mem_zip_tail {l : List String} :
    (u, v) ∈ l.zip l.tail ↔ ∃ before after, l = before ++ u :: v :: after := by
  induction l with
  | nil => simp
  | cons a l ih =>
    cases l with
    | nil => simp [List.cons_eq_append_iff]
    | cons b l =>
      rw [List.tail_cons, List.zip_cons_cons, List.mem_cons, Prod.mk.injEq]
      rw [List.tail_cons] at ih
      rw [ih]
      constructor
      · rintro (⟨rfl, rfl⟩ | ⟨before, after, h⟩)
        · exact ⟨[], l, rfl⟩
        · exact ⟨a :: before, after, by rw [h, List.cons_append]⟩
      · rintro ⟨before, after, h⟩
        cases before with
        | nil =>
          obtain ⟨hu, h⟩ := List.cons.inj h
          exact .inl ⟨hu.symm, (List.cons.inj h).1.symm⟩
        | cons _ before => exact .inr ⟨before, after, (List.cons.inj h).2⟩

/-- An edge lies on a cycle if its ends are neighbours on the walk. -/
theorem mem_edges : (u, v) ∈ c.edges ↔ ∃ before after, c.walk = before ++ u :: v :: after :=
  mem_zip_tail

/-- The walk of a cycle is a chain of its edges. -/
theorem isChain_edges : List.IsChain (fun u v => (u, v) ∈ c.edges) c.walk :=
  List.isChain_iff_forall_rel_of_append_cons_cons.2 fun _ _ before after h =>
    mem_edges.2 ⟨before, after, h⟩

/-- The source of an edge of a cycle is one of its members. -/
theorem source_mem_members (h : (u, v) ∈ c.edges) : u ∈ c.members := by
  obtain ⟨before, after, hwalk⟩ := mem_edges.1 h
  rw [members, hwalk, List.dropLast_append_cons, List.dropLast_cons_cons]
  exact List.mem_append_right _ List.mem_cons_self

end Cycle

namespace Graph

variable {g : Graph} {first : String} {rest : List String}

/-- A simple cycle can start at another of its modules. -/
theorem IsSimpleCycle.turn {m : String} {before after : List String}
    (h : g.IsSimpleCycle first (before ++ m :: after)) :
    g.IsSimpleCycle m (after ++ first :: before) := by
  have hperm : (m :: after ++ first :: before).Perm (first :: before ++ m :: after) :=
    List.perm_append_comm
  refine ⟨by simp, hperm.nodup_iff.2 h.nodup, fun a ha => h.mem_modules a (hperm.mem_iff.1 ha), ?_⟩
  exact List.isChain_turn.1 h.chain

/-- **Every simple cycle is on the list**, wherever it starts: some listed cycle
has its edges. -/
theorem IsSimpleCycle.exists_mem_cycles (h : g.IsSimpleCycle first rest) :
    ∃ c ∈ g.cycles, List.IsChain (fun u v => (u, v) ∈ c.edges) (first :: rest ++ [first]) := by
  obtain ⟨before, m, after, hsplit, hleast⟩ :=
    Cycle.exists_least (List.cons_ne_nil first rest) h.nodup
  -- the least module is the first one, or the cycle is turned to it
  cases before with
  | nil =>
    obtain ⟨rfl, rfl⟩ := List.cons.inj hsplit
    rw [List.append_nil] at hleast
    exact ⟨_, mem_cycles.2 ⟨first, rest, rfl, h, hleast⟩, Cycle.isChain_edges⟩
  | cons a before =>
    obtain ⟨rfl, rfl⟩ := List.cons.inj hsplit
    exact ⟨_, mem_cycles.2 ⟨m, after ++ first :: before, rfl, h.turn, hleast⟩,
      List.isChain_turn.2 Cycle.isChain_edges⟩

/-- The modules of a simple cycle reach each other. -/
theorem IsSimpleCycle.reaches (h : g.IsSimpleCycle first rest) {a b : String}
    (ha : a ∈ first :: rest) (hb : b ∈ first :: rest) : ReflTransGen g.HasEdge a b := by
  have hfirst : ∀ x ∈ first :: rest,
      ReflTransGen g.HasEdge first x ∧ ReflTransGen g.HasEdge x first :=
    List.forall_mem_cons.2 ⟨⟨.refl, .refl⟩, fun _ hx => reaches_of_closed h.chain hx⟩
  exact (hfirst a ha).2.trans (hfirst b hb).1

/-- On a simple cycle there is another module than any given one. -/
theorem IsSimpleCycle.exists_ne (h : g.IsSimpleCycle first rest) (m : String) :
    ∃ a ∈ first :: rest, a ≠ m := by
  obtain ⟨next, others, rfl⟩ := List.exists_cons_of_ne_nil h.ne_nil
  have hfirst : first ≠ next := by
    rintro rfl
    exact (List.nodup_cons.1 h.nodup).1 List.mem_cons_self
  by_cases hm : first = m
  · exact ⟨next, by simp, fun hnext => hfirst (hm.trans hnext.symm)⟩
  · exact ⟨first, List.mem_cons_self, hm⟩

/-- **A way back is closed to a simple cycle** by the edge that it leads back
to. -/
theorem HasEdge.exists_isSimpleCycle (he : g.HasEdge u v) (hback : ReflTransGen g.HasEdge v u) :
    ∃ rest, g.IsSimpleCycle v rest ∧ (v :: rest).getLast? = some u := by
  obtain ⟨rest, hnodup, hchain, hlast⟩ := exists_nodup_chain hback
  cases rest with
  | nil => exact absurd (Option.some.inj hlast).symm he.ne
  | cons next rest =>
    refine ⟨next :: rest, ⟨List.cons_ne_nil _ _, hnodup, mem_modules_of_isChain hchain, ?_⟩, hlast⟩
    refine List.isChain_append.2 ⟨hchain, List.isChain_singleton v, fun x hx y hy => ?_⟩
    rw [hlast] at hx
    obtain rfl := Option.some.inj hx
    obtain rfl := Option.some.inj hy
    exact he

/-- **An edge lies on a cycle exactly if its target reaches its source.** -/
theorem exists_mem_edges_iff :
    (∃ c ∈ g.cycles, (u, v) ∈ c.edges) ↔ g.HasEdge u v ∧ ReflTransGen g.HasEdge v u := by
  constructor
  · rintro ⟨c, hc, he⟩
    obtain ⟨first, rest, hwalk, hcycle, -⟩ := mem_cycles.1 hc
    have hmem : ∀ x ∈ c.walk, x ∈ first :: rest := by
      intro x hx
      rw [hwalk, List.mem_append, List.mem_singleton] at hx
      rcases hx with hx | rfl
      · exact hx
      · exact List.mem_cons_self
    obtain ⟨before, after, hsplit⟩ := Cycle.mem_edges.1 he
    constructor
    · exact List.isChain_iff_forall_rel_of_append_cons_cons.1 hcycle.chain
        (hwalk.symm.trans hsplit)
    · exact hcycle.reaches (hmem v (by simp [hsplit])) (hmem u (by simp [hsplit]))
  · rintro ⟨he, hback⟩
    obtain ⟨rest, hcycle, hlast⟩ := he.exists_isSimpleCycle hback
    obtain ⟨c, hc, hedges⟩ := hcycle.exists_mem_cycles
    -- the edge is the last one of the closed walk
    exact ⟨c, hc, (List.isChain_append.1 hedges).2.2 u hlast v rfl⟩

/-- A closed walk passes its members and no other module. -/
theorem mem_walk_iff {c : Cycle} {m : String} (hc : c ∈ g.cycles) :
    m ∈ c.walk ↔ m ∈ c.members := by
  obtain ⟨first, rest, hwalk, -⟩ := mem_cycles.1 hc
  rw [Cycle.members, hwalk, List.dropLast_concat, List.mem_append, List.mem_singleton]
  exact or_iff_left_of_imp fun h => h ▸ List.mem_cons_self

/-- **A module lies on a cycle exactly if it reaches itself.** -/
theorem exists_mem_members_iff {m : String} :
    (∃ c ∈ g.cycles, m ∈ c.members) ↔ TransGen g.HasEdge m m := by
  constructor
  · rintro ⟨c, hc, hm⟩
    obtain ⟨first, rest, hwalk, hcycle, -⟩ := mem_cycles.1 hc
    rw [Cycle.members, hwalk, List.dropLast_concat] at hm
    -- the way to another module on the cycle is not empty, and it leads back
    obtain ⟨a, ha, hne⟩ := hcycle.exists_ne m
    rcases reflTransGen_iff_eq_or_transGen.1 (hcycle.reaches hm ha) with h | h
    · exact absurd h hne
    · exact h.trans_left (hcycle.reaches ha hm)
  · intro h
    obtain ⟨v, he, hback⟩ := TransGen.head'_iff.1 h
    obtain ⟨c, hc, hedge⟩ := exists_mem_edges_iff.2 ⟨he, hback⟩
    exact ⟨c, hc, Cycle.source_mem_members hedge⟩

end Graph

end StackGraph
