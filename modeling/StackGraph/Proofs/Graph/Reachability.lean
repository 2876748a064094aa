import Mathlib.Data.List.Chain
import Mathlib.Logic.Relation
import StackGraph.Graph.Component
import StackGraph.Proofs.Graph.Edges
/-!
# Reachability and components

`Graph.downstream` lists what a module reaches by at least one edge, the
module itself apart (`Graph.mem_downstream`). This rests on the rounds of
`Graph.reachFrom`. Each round either adds a module that was not reached before
or finds nothing new, so one round more than there are modules is enough; and
when it ends, what was reached is closed under edges.

Components are read off the same relation (`Graph.AreComponents`), and those
that `Graph.components` computes are components in this sense.
-/

namespace StackGraph

open Std Relation

namespace Graph

variable {g : Graph} {a b : String}

/-! ## What a module reaches -/

/-- The number of modules that are not among those reached: what bounds the
rounds of a search. -/
def unreached (g : Graph) (reached : NameSet) : Nat :=
  g.ids.countP (· ∉ reached)

/-- Reaching a module that was not reached before leaves fewer to be
reached. -/
theorem unreached_lt {reached reached' : NameSet} (hsub : ∀ x ∈ reached, x ∈ reached')
    (ha : a ∈ g.modules) (hnew : a ∉ reached) (hin : a ∈ reached') :
    g.unreached reached' < g.unreached reached := by
  unfold unreached
  obtain ⟨l₁, l₂, hids⟩ := List.append_of_mem (mem_ids.2 ha)
  have hmono : ∀ l : List String, l.countP (· ∉ reached') ≤ l.countP (· ∉ reached) := by
    intro l
    refine List.countP_mono_left (fun x _ hx => ?_)
    simp only [decide_not, Bool.not_eq_eq_eq_not, Bool.not_true, decide_eq_false_iff_not] at hx ⊢
    exact fun h => hx (hsub x h)
  rw [hids, List.countP_append, List.countP_append, List.countP_cons_of_neg (by simpa using hin),
    List.countP_cons_of_pos (by simpa using hnew)]
  have h₁ := hmono l₁
  have h₂ := hmono l₂
  omega

/-- **One round of a search keeps what is known.** If every edge out of what
was reached leads to it or to the frontier, then this holds again after the
fresh part of the frontier was reached and replaced by its neighbours. -/
theorem closed_step {reached : NameSet} {frontier : List String}
    (hclosed : ∀ x ∈ reached, ∀ y, g.HasEdge x y → y ∈ reached ∨ y ∈ frontier) :
    let fresh := frontier.filter (· ∉ reached)
    let next := (ExtTreeSet.ofList (fresh.flatMap g.dependents) compare).toList
    ∀ x ∈ reached.insertMany fresh, ∀ y, g.HasEdge x y →
      y ∈ reached.insertMany fresh ∨ y ∈ next := by
  intro fresh next x hx y hxy
  have hnext : y ∈ next ↔ ∃ z ∈ fresh, g.HasEdge z y := by
    simp [next]
  rw [mem_setInsertMany] at hx ⊢
  rcases hx with hx | hx
  · rcases hclosed x hx y hxy with hy | hy
    · exact .inl (.inl hy)
    · by_cases hr : y ∈ reached
      · exact .inl (.inl hr)
      · exact .inl (.inr (List.mem_filter.2 ⟨hy, by simpa using hr⟩))
  · exact .inr (hnext.2 ⟨x, hx, hxy⟩)

/-- **A search that has rounds enough ends closed.** What it returns contains
what was reached and the frontier, and no edge leads out of it. -/
theorem reachFrom_closed {rounds : Nat} {reached : NameSet} {frontier : List String}
    (hrounds : g.unreached reached < rounds) (hfront : ∀ x ∈ frontier, x ∈ g.modules)
    (hclosed : ∀ x ∈ reached, ∀ y, g.HasEdge x y → y ∈ reached ∨ y ∈ frontier) :
    (∀ x ∈ reached, x ∈ g.reachFrom rounds reached frontier) ∧
      (∀ x ∈ frontier, x ∈ g.reachFrom rounds reached frontier) ∧
      ∀ x ∈ g.reachFrom rounds reached frontier, ∀ y, g.HasEdge x y →
        y ∈ g.reachFrom rounds reached frontier := by
  induction rounds generalizing reached frontier with
  | zero => exact absurd hrounds (Nat.not_lt_zero _)
  | succ rounds ih =>
    rw [reachFrom]
    split
    · rename_i hfresh
      -- nothing is new: what was reached is closed already
      have hsub : ∀ x ∈ frontier, x ∈ reached := by
        intro x hx
        by_contra hn
        have : x ∈ frontier.filter (· ∉ reached) := List.mem_filter.2 ⟨hx, by simpa using hn⟩
        rw [List.isEmpty_iff.1 hfresh] at this
        exact List.not_mem_nil this
      exact ⟨fun x hx => hx, hsub, fun x hx y hxy => (hclosed x hx y hxy).elim id (hsub y)⟩
    · rename_i hfresh
      -- some module is new, so fewer are left to be reached
      set fresh := frontier.filter (· ∉ reached)
      obtain ⟨x₀, hx₀⟩ := List.exists_mem_of_ne_nil fresh (by simpa using hfresh)
      have hx₀' := List.mem_filter.1 hx₀
      have hlt : g.unreached (reached.insertMany fresh) < g.unreached reached :=
        unreached_lt (fun x hx => mem_setInsertMany.2 (.inl hx)) (hfront x₀ hx₀'.1)
          (by simpa using hx₀'.2) (mem_setInsertMany.2 (.inr hx₀))
      have hnext : ∀ x ∈ (ExtTreeSet.ofList (fresh.flatMap g.dependents) compare).toList,
          x ∈ g.modules := by
        intro x hx
        simp only [ExtTreeSet.mem_toList, mem_setOfList, List.mem_flatMap, mem_dependents] at hx
        obtain ⟨z, -, hz⟩ := hx
        exact hz.target_mem
      have hrounds' : g.unreached (reached.insertMany fresh) < rounds := by omega
      obtain ⟨hkept, -, hend⟩ := ih hrounds' hnext (closed_step hclosed)
      refine ⟨fun x hx => hkept x (mem_setInsertMany.2 (.inl hx)), fun x hx => ?_, hend⟩
      by_cases hr : x ∈ reached
      · exact hkept x (mem_setInsertMany.2 (.inl hr))
      · exact hkept x (mem_setInsertMany.2 (.inr (List.mem_filter.2 ⟨hx, by simpa using hr⟩)))

/-- Whatever a search returns was reached before or is reached from the
frontier. -/
theorem reachFrom_sound {rounds : Nat} {reached : NameSet} {frontier : List String} {x : String}
    (hx : x ∈ g.reachFrom rounds reached frontier) :
    x ∈ reached ∨ ∃ y ∈ frontier, ReflTransGen g.HasEdge y x := by
  induction rounds generalizing reached frontier with
  | zero => exact .inl hx
  | succ rounds ih =>
    rw [reachFrom] at hx
    split at hx
    · exact .inl hx
    · rcases ih hx with hr | ⟨y, hy, hyx⟩
      · rw [mem_setInsertMany] at hr
        exact hr.imp_right fun hf => ⟨x, (List.mem_filter.1 hf).1, .refl⟩
      · simp only [ExtTreeSet.mem_toList, mem_setOfList, List.mem_flatMap,
          mem_dependents] at hy
        obtain ⟨z, hz, hzy⟩ := hy
        exact .inr ⟨z, (List.mem_filter.1 hz).1, .head hzy hyx⟩

/-- **What is deployed after a module** is what it reaches by at least one
edge, the module itself apart. -/
theorem mem_downstream : b ∈ g.downstream a ↔ b ≠ a ∧ TransGen g.HasEdge a b := by
  have hcount : g.unreached ∅ < g.modules.size + 1 := by
    rw [Nat.lt_succ_iff, ← ExtTreeMap.length_keys]
    exact List.countP_le_length
  have htarget : ∀ x ∈ g.dependents a, x ∈ g.modules :=
    fun x hx => (mem_dependents.1 hx).target_mem
  obtain ⟨-, hfront, hclosed⟩ := reachFrom_closed hcount htarget
    (fun x hx => absurd hx (by simp))
  have hcomplete : TransGen g.HasEdge a b →
      b ∈ g.reachFrom (g.modules.size + 1) ∅ (g.dependents a) := by
    intro h
    induction h with
    | single h => exact hfront _ (mem_dependents.2 h)
    | tail _ h ih => exact hclosed _ ih _ h
  rw [downstream, ExtTreeSet.mem_erase, ne_eq, LawfulEqCmp.compare_eq_iff_eq, eq_comm]
  refine and_congr_right fun _ => ⟨fun h => ?_, hcomplete⟩
  rcases reachFrom_sound h with hr | ⟨y, hy, hyb⟩
  · exact absurd hr (by simp)
  · exact .head' (mem_dependents.1 hy) hyb

/-! ## Components -/

/-- **The strongly connected components of a graph**: lists of modules that
cover the graph, each of which holds exactly the modules that its members
reach and are reached from. -/
structure AreComponents (g : Graph) (parts : List (List String)) : Prop where
  /-- Components consist of modules. -/
  mem_modules : ∀ part ∈ parts, ∀ a ∈ part, a ∈ g.modules
  /-- Every module is in a component. -/
  covers : ∀ a ∈ g.modules, ∃ part ∈ parts, a ∈ part
  /-- A component is what its members reach and are reached from. -/
  mem_iff : ∀ part ∈ parts, ∀ a ∈ part, ∀ b,
    b ∈ part ↔ ReflTransGen g.HasEdge a b ∧ ReflTransGen g.HasEdge b a

/-- The test for two modules of one component, on modules of the graph. -/
theorem areMutual_reachTable (ha : a ∈ g.modules) (hb : b ∈ g.modules) :
    areMutual g.reachTable a b = true
      ↔ ReflTransGen g.HasEdge a b ∧ ReflTransGen g.HasEdge b a := by
  have hreach : ∀ {x : String}, x ∈ g.modules →
      (g.reachTable[x]?).getD ∅ = g.downstream x := by
    intro x hx
    rw [reachTable, ExtTreeMap.getElem?_map, ExtTreeMap.getElem?_eq_some_getElem hx]
    rfl
  rw [areMutual, hreach ha, hreach hb, Bool.or_eq_true, beq_iff_eq, Bool.and_eq_true,
    ← ExtTreeSet.mem_iff_contains, ← ExtTreeSet.mem_iff_contains, mem_downstream,
    mem_downstream, reflTransGen_iff_eq_or_transGen, reflTransGen_iff_eq_or_transGen]
  by_cases hab : a = b
  · simp [hab]
  · simp [hab, Ne.symm hab]

/-- The part of a module: what is listed together with it. -/
def partOf (g : Graph) (a : String) : List String := g.ids.filter (areMutual g.reachTable a)

theorem mem_partOf (ha : a ∈ g.modules) :
    b ∈ g.partOf a
      ↔ b ∈ g.modules ∧ ReflTransGen g.HasEdge a b ∧ ReflTransGen g.HasEdge b a := by
  rw [partOf, List.mem_filter, mem_ids]
  exact and_congr_right fun hb => areMutual_reachTable ha hb

/-- Modules that reach each other have the same part. -/
theorem partOf_eq (ha : a ∈ g.modules) (hb : b ∈ g.modules)
    (hto : ReflTransGen g.HasEdge a b) (hfrom : ReflTransGen g.HasEdge b a) :
    g.partOf a = g.partOf b := by
  refine List.filter_congr fun c hc => ?_
  have hc := mem_ids.1 hc
  rw [Bool.eq_iff_iff, areMutual_reachTable ha hc, areMutual_reachTable hb hc]
  exact ⟨fun h => ⟨hfrom.trans h.1, h.2.trans hto⟩, fun h => ⟨hto.trans h.1, h.2.trans hfrom⟩⟩

/-- A component is the part of its first module. -/
theorem mem_components {part : List String} :
    part ∈ g.components ↔ ∃ a ∈ g.modules, part = g.partOf a ∧ part.head? = some a := by
  simp only [components, List.mem_filterMap, mem_ids]
  refine exists_congr fun a => and_congr_right fun _ => ?_
  split
  · rename_i hhead
    constructor
    · rintro h
      cases h
      exact ⟨rfl, hhead⟩
    · rintro ⟨rfl, -⟩
      rfl
  · rename_i hhead
    constructor
    · rintro ⟨⟩
    · rintro ⟨rfl, h⟩
      exact absurd h hhead

/-- Every module is in a component, that of the first module of its part. -/
theorem exists_mem_components (ha : a ∈ g.modules) : ∃ part ∈ g.components, a ∈ part := by
  have hself : a ∈ g.partOf a := (mem_partOf ha).2 ⟨ha, .refl, .refl⟩
  obtain ⟨first, hfirst⟩ := Option.isSome_iff_exists.1
    (List.isSome_head?.2 (List.ne_nil_of_mem hself))
  obtain ⟨hmod, hto, hfrom⟩ := (mem_partOf ha).1 (List.mem_of_mem_head? hfirst)
  exact ⟨_, mem_components.2 ⟨first, hmod, partOf_eq ha hmod hto hfrom, hfirst⟩, hself⟩

/-- **The computed components are the components of the graph.** -/
theorem areComponents_components (g : Graph) : g.AreComponents g.components := by
  refine ⟨?_, fun a ha => exists_mem_components ha, ?_⟩
  · intro part hpart b hb
    obtain ⟨a, ha, rfl, -⟩ := mem_components.1 hpart
    exact ((mem_partOf ha).1 hb).1
  · intro part hpart a ha b
    obtain ⟨first, hmod, rfl, -⟩ := mem_components.1 hpart
    obtain ⟨ha', hto, hfrom⟩ := (mem_partOf hmod).1 ha
    rw [partOf_eq hmod ha' hto hfrom, mem_partOf ha', and_iff_right_iff_imp]
    -- a module that is reached has an edge into it, unless it is the start
    rintro ⟨hb, -⟩
    rcases hb.cases_tail with rfl | ⟨_, -, he⟩
    · exact ha'
    · exact he.target_mem

end Graph

end StackGraph
