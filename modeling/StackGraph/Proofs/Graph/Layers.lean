import Mathlib.Data.Fintype.EquivFin
import Mathlib.Order.RelIso.Set
import StackGraph.Proofs.Graph.CycleEdges
/-!
# Layers and cycles

Layers are peeled off the modules that remain: those that wait for none of the
others, or the first one if all of them wait. Cycles are found by a search
inside components. The two have nothing in common but the edges, and yet they
must agree on one point: without cycles, and only then, every edge leads from
an earlier layer to a later one (`Graph.cycles_eq_nil_iff_edges_rise`).

Each round removes the layer that it makes from what remains, and it makes one
as long as something remains. So every module stands in exactly one layer,
whatever the edges are (`Graph.existsUnique_inLayer`), and one can speak of
*the* layer of a module. If all edges rise, so does every walk, and none comes
back to its start. If no walk does, then among the modules that remain there
is one that none of the others reaches, so no round has to take a module that
waits, and a module is placed only after everything that it waits for.
-/

namespace StackGraph

open Std Relation

/-- The layer with a number holds a module. -/
def InLayer (layers : List (List String)) (id : String) (i : Nat) : Prop :=
  ∃ layer, layers[i]? = some layer ∧ id ∈ layer

section Layer

variable {layer : List String} {layers : List (List String)} {id : String} {i : Nat}

@[simp] theorem not_inLayer_nil : ¬ InLayer [] id i := by
  rintro ⟨layer, hlayer, -⟩
  cases hlayer

@[simp] theorem inLayer_cons_zero : InLayer (layer :: layers) id 0 ↔ id ∈ layer := by
  simp [InLayer]

@[simp] theorem inLayer_cons_succ :
    InLayer (layer :: layers) id (i + 1) ↔ InLayer layers id i := by
  simp [InLayer]

end Layer

namespace Graph

variable {g : Graph} {remaining : List String} {rounds i j : Nat} {a b : String}

/-! ## One round -/

/-- A module is free exactly if no edge leads to it from what remains. -/
theorem isFree_iff : g.isFree remaining a ↔ ∀ u, g.HasEdge u a → u ∉ remaining := by
  simp [isFree]

/-- **What a round places**: the free modules, or the first one if there are
none. -/
theorem mem_nextLayer :
    a ∈ g.nextLayer remaining
      ↔ (a ∈ remaining ∧ g.isFree remaining a)
        ∨ (∀ m ∈ remaining, ¬ g.isFree remaining m) ∧ remaining.head? = some a := by
  have hnone : (remaining.filter (g.isFree remaining)).isEmpty
      ↔ ∀ m ∈ remaining, ¬ g.isFree remaining m := by
    rw [List.isEmpty_iff, List.filter_eq_nil_iff]
  show a ∈ (if (remaining.filter (g.isFree remaining)).isEmpty then remaining.take 1
    else remaining.filter (g.isFree remaining)) ↔ _
  split
  · rename_i hempty
    have hfree := hnone.1 hempty
    rw [and_iff_right hfree, or_iff_right fun h => hfree a h.1 h.2, ← Option.mem_toList,
      List.take_one]
  · rename_i hsome
    rw [or_iff_left fun h => hsome (hnone.2 h.1), List.mem_filter]

/-- A layer is a part of what remains, in the same order. -/
theorem nextLayer_sublist : (g.nextLayer remaining).Sublist remaining := by
  show (if _ then remaining.take 1 else remaining.filter _).Sublist remaining
  split
  · exact List.take_sublist _ _
  · exact List.filter_sublist

/-- A layer is taken from what remains. -/
theorem mem_of_mem_nextLayer (h : a ∈ g.nextLayer remaining) : a ∈ remaining :=
  nextLayer_sublist.subset h

/-- Where something remains, some of it makes a layer. -/
theorem exists_mem_nextLayer (h : remaining ≠ []) : ∃ a, a ∈ g.nextLayer remaining := by
  by_cases hfree : ∃ a ∈ remaining, g.isFree remaining a
  · obtain ⟨a, ha, hfree⟩ := hfree
    exact ⟨a, mem_nextLayer.2 (.inl ⟨ha, hfree⟩)⟩
  · refine ⟨remaining.head h, mem_nextLayer.2 (.inr ⟨?_, List.head?_eq_some_head h⟩)⟩
    simpa using hfree

/-- What remains after a round. -/
abbrev remainder (g : Graph) (remaining : List String) : List String :=
  remaining.filter fun id => !(g.nextLayer remaining).contains id

theorem mem_remainder : a ∈ g.remainder remaining ↔ a ∈ remaining ∧ a ∉ g.nextLayer remaining := by
  simp [remainder]

/-- A round leaves less than there was. -/
theorem length_remainder_lt (h : remaining ≠ []) :
    (g.remainder remaining).length < remaining.length := by
  obtain ⟨a, ha⟩ := exists_mem_nextLayer (g := g) h
  refine List.length_filter_lt_length_iff_exists.2 ⟨a, mem_of_mem_nextLayer ha, ?_⟩
  simpa using ha

/-! ## All rounds -/

@[simp] theorem layersOf_nil : g.layersOf rounds [] = [] := by
  cases rounds <;> rfl

theorem layersOf_succ (h : remaining ≠ []) :
    g.layersOf (rounds + 1) remaining
      = g.nextLayer remaining :: g.layersOf rounds (g.remainder remaining) := by
  rw [layersOf, if_neg (by simpa using h)]

/-- Only what remained is placed. -/
theorem mem_of_inLayer (h : InLayer (g.layersOf rounds remaining) a i) : a ∈ remaining := by
  induction rounds generalizing remaining i with
  | zero => exact absurd h not_inLayer_nil
  | succ rounds ih =>
    by_cases hne : remaining = []
    · rw [hne, layersOf_nil] at h
      exact absurd h not_inLayer_nil
    · rw [layersOf_succ hne] at h
      cases i with
      | zero => exact mem_of_mem_nextLayer (inLayer_cons_zero.1 h)
      | succ i => exact (mem_remainder.1 (ih (inLayer_cons_succ.1 h))).1

/-- **With a round for each of them all are placed.** -/
theorem exists_inLayer (hrounds : remaining.length ≤ rounds) (h : a ∈ remaining) :
    ∃ i, InLayer (g.layersOf rounds remaining) a i := by
  induction rounds generalizing remaining with
  | zero =>
    rw [List.length_eq_zero_iff.1 (Nat.le_zero.1 hrounds)] at h
    exact absurd h List.not_mem_nil
  | succ rounds ih =>
    have hne : remaining ≠ [] := List.ne_nil_of_mem h
    rw [layersOf_succ hne]
    by_cases hnext : a ∈ g.nextLayer remaining
    · exact ⟨0, inLayer_cons_zero.2 hnext⟩
    · have hlt := length_remainder_lt (g := g) hne
      obtain ⟨i, hi⟩ := ih (by omega) (mem_remainder.2 ⟨h, hnext⟩)
      exact ⟨i + 1, inLayer_cons_succ.2 hi⟩

/-- **Nothing is placed twice**, since a round removes what it places. -/
theorem inLayer_unique (hi : InLayer (g.layersOf rounds remaining) a i)
    (hj : InLayer (g.layersOf rounds remaining) a j) : i = j := by
  induction rounds generalizing remaining i j with
  | zero => exact absurd hi not_inLayer_nil
  | succ rounds ih =>
    have hne : remaining ≠ [] := List.ne_nil_of_mem (mem_of_inLayer hi)
    have hlater : ∀ {k}, InLayer (g.layersOf rounds (g.remainder remaining)) a k →
        a ∉ g.nextLayer remaining := fun hk => (mem_remainder.1 (mem_of_inLayer hk)).2
    rw [layersOf_succ hne] at hi hj
    cases i with
    | zero =>
      cases j with
      | zero => rfl
      | succ j => exact absurd (inLayer_cons_zero.1 hi) (hlater (inLayer_cons_succ.1 hj))
    | succ i =>
      cases j with
      | zero => exact absurd (inLayer_cons_zero.1 hj) (hlater (inLayer_cons_succ.1 hi))
      | succ j => exact congrArg _ (ih (inLayer_cons_succ.1 hi) (inLayer_cons_succ.1 hj))

/-- **Every module stands in exactly one layer.** -/
theorem existsUnique_inLayer (h : a ∈ g.modules) : ∃! i, InLayer g.layers a i := by
  obtain ⟨i, hi⟩ : ∃ i, InLayer g.layers a i :=
    exists_inLayer (ExtTreeMap.length_keys.le) (mem_ids.2 h)
  exact ⟨i, hi, fun j hj => inLayer_unique hj hi⟩

/-- A round splits what remains into a layer and the rest. -/
theorem nextLayer_append_remainder_perm (h : remaining.Nodup) :
    (g.nextLayer remaining ++ g.remainder remaining).Perm remaining := by
  have hlayer : (g.nextLayer remaining).Nodup := h.sublist nextLayer_sublist
  have hdisjoint : (g.nextLayer remaining).Disjoint (g.remainder remaining) :=
    fun a ha hrest => (mem_remainder.1 hrest).2 ha
  refine (List.perm_ext_iff_of_nodup (hlayer.append (h.filter _) hdisjoint) h).2 fun a => ?_
  rw [List.mem_append, mem_remainder]
  constructor
  · rintro (ha | ⟨ha, -⟩)
    · exact mem_of_mem_nextLayer ha
    · exact ha
  · intro ha
    by_cases hnext : a ∈ g.nextLayer remaining
    · exact .inl hnext
    · exact .inr ⟨ha, hnext⟩

/-- The layers hold what remained, each module once. -/
theorem flatten_layersOf_perm (hrounds : remaining.length ≤ rounds) (h : remaining.Nodup) :
    (g.layersOf rounds remaining).flatten.Perm remaining := by
  induction rounds generalizing remaining with
  | zero =>
    rw [List.length_eq_zero_iff.1 (Nat.le_zero.1 hrounds)]
    exact List.Perm.nil
  | succ rounds ih =>
    by_cases hne : remaining = []
    · rw [hne, layersOf_nil]
      exact List.Perm.nil
    · have hlt := length_remainder_lt (g := g) hne
      have hlength : (g.remainder remaining).length ≤ rounds := by omega
      rw [layersOf_succ hne, List.flatten_cons]
      exact ((ih hlength (h.filter _)).append_left _).trans (nextLayer_append_remainder_perm h)

/-- **The layers hold every module once.** -/
theorem flatten_layers_perm : g.layers.flatten.Perm g.ids :=
  flatten_layersOf_perm ExtTreeMap.length_keys.le nodup_ids

/-! ## Graphs without cycles -/

/-- **A graph has no cycle exactly if no module reaches itself.** -/
theorem cycles_eq_nil_iff : g.cycles = [] ↔ ∀ m, ¬ TransGen g.HasEdge m m := by
  rw [List.eq_nil_iff_forall_not_mem]
  constructor
  · intro h m hm
    obtain ⟨c, hc, -⟩ := exists_mem_members_iff.2 hm
    exact h c hc
  · intro h c hc
    obtain ⟨first, rest, hwalk, -⟩ := mem_cycles.1 hc
    have hfirst : first ∈ c.members := by
      rw [Cycle.members, hwalk, List.dropLast_concat]
      exact List.mem_cons_self
    exact h first (exists_mem_members_iff.1 ⟨c, hc, hfirst⟩)

/-- **Where all that remain wait, a cycle leads to each of them**: going
upstream among them never ends. -/
theorem exists_cycle_behind (hwait : ∀ m ∈ remaining, ¬ g.isFree remaining m)
    (ha : a ∈ remaining) :
    ∃ c ∈ remaining, TransGen g.HasEdge c c ∧ ReflTransGen g.HasEdge c a := by
  by_contra hnone
  -- without a cycle there is a first one among those that lead to the module, but it waits
  let before : String → Prop := fun m => m ∈ remaining ∧ ReflTransGen g.HasEdge m a
  have : Finite (Subtype before) :=
    Finite.of_injective (fun m => (⟨m.1, m.2.1⟩ : {m // m ∈ remaining}))
      fun x y hxy => Subtype.ext (Subtype.mk.inj hxy)
  have : Std.Irrefl (Subrel (TransGen g.HasEdge) before) :=
    ⟨fun m hm => hnone ⟨m, m.2.1, hm, m.2.2⟩⟩
  have hwf : WellFounded (Subrel (TransGen g.HasEdge) before) :=
    Finite.wellFounded_of_trans_of_irrefl _
  obtain ⟨⟨m, hm, hreach⟩, -, hmin⟩ := hwf.has_min Set.univ ⟨⟨a, ha, .refl⟩, trivial⟩
  refine hwait m hm (isFree_iff.2 fun u he hu => ?_)
  exact hmin ⟨u, hu, .head he hreach⟩ trivial (.single he)

/-- **Without cycles some module is free.** -/
theorem exists_isFree (hacyclic : ∀ m, ¬ TransGen g.HasEdge m m) (hne : remaining ≠ []) :
    ∃ m ∈ remaining, g.isFree remaining m := by
  by_contra hnone
  push Not at hnone
  obtain ⟨x, hx⟩ := List.exists_mem_of_ne_nil _ hne
  obtain ⟨c, -, hc, -⟩ := exists_cycle_behind (by simpa using hnone) hx
  exact hacyclic c hc

/-- A layer then holds free modules only. -/
theorem isFree_of_mem_nextLayer (hacyclic : ∀ m, ¬ TransGen g.HasEdge m m)
    (h : a ∈ g.nextLayer remaining) : g.isFree remaining a := by
  obtain ⟨m, hm, hfree⟩ := exists_isFree hacyclic (List.ne_nil_of_mem (mem_of_mem_nextLayer h))
  rcases mem_nextLayer.1 h with ⟨-, ha⟩ | ⟨hnone, -⟩
  · exact ha
  · exact absurd hfree (hnone m hm)

/-- **Without cycles a module is placed after what it waits for.** -/
theorem lt_of_inLayer (hacyclic : ∀ m, ¬ TransGen g.HasEdge m m) (he : g.HasEdge a b)
    (ha : InLayer (g.layersOf rounds remaining) a i)
    (hb : InLayer (g.layersOf rounds remaining) b j) : i < j := by
  induction rounds generalizing remaining i j with
  | zero => exact absurd ha not_inLayer_nil
  | succ rounds ih =>
    have hmem : a ∈ remaining := mem_of_inLayer ha
    rw [layersOf_succ (List.ne_nil_of_mem hmem)] at ha hb
    cases j with
    | zero =>
      -- the target is free although its source remains
      have hfree := isFree_of_mem_nextLayer hacyclic (inLayer_cons_zero.1 hb)
      exact absurd hmem (isFree_iff.1 hfree a he)
    | succ j =>
      cases i with
      | zero => exact Nat.succ_pos j
      | succ i => exact Nat.succ_lt_succ (ih (inLayer_cons_succ.1 ha) (inLayer_cons_succ.1 hb))

/-- **A walk rises if its edges do.** -/
theorem lt_of_transGen
    (hrise : ∀ a b, g.HasEdge a b → ∃ i j, InLayer g.layers a i ∧ InLayer g.layers b j ∧ i < j)
    (h : TransGen g.HasEdge a b) : ∃ i j, InLayer g.layers a i ∧ InLayer g.layers b j ∧ i < j := by
  induction h with
  | single he => exact hrise _ _ he
  | tail _ he ih =>
    obtain ⟨i, j, hi, hj, hij⟩ := ih
    obtain ⟨j', k, hj', hk, hjk⟩ := hrise _ _ he
    obtain rfl := inLayer_unique hj hj'
    exact ⟨i, k, hi, hk, hij.trans hjk⟩

/-- **There is no cycle exactly if every edge rises**: it leads from an earlier
layer to a strictly later one, where every module stands in exactly one
layer. -/
theorem cycles_eq_nil_iff_edges_rise (g : Graph) :
    (∀ id ∈ g.modules, ∃! i, InLayer g.layers id i)
      ∧ (g.cycles = [] ↔ ∀ e ∈ g.edges, ∃ i j,
        InLayer g.layers e.source i ∧ InLayer g.layers e.target j ∧ i < j) := by
  refine ⟨fun id => existsUnique_inLayer, ?_⟩
  rw [cycles_eq_nil_iff]
  constructor
  · intro hacyclic e he
    have hedge := hasEdge_of_mem_edges he
    obtain ⟨i, hi, -⟩ := existsUnique_inLayer hedge.source_mem
    obtain ⟨j, hj, -⟩ := existsUnique_inLayer hedge.target_mem
    exact ⟨i, j, hi, hj, lt_of_inLayer hacyclic hedge hi hj⟩
  · intro hrise m hm
    have hrise' : ∀ a b, g.HasEdge a b →
        ∃ i j, InLayer g.layers a i ∧ InLayer g.layers b j ∧ i < j := by
      intro a b hab
      obtain ⟨e, he, hends⟩ := List.mem_map.1 (mem_map_ends_edges.2 hab)
      obtain ⟨rfl, rfl⟩ := Prod.mk.inj hends
      exact hrise e he
    obtain ⟨i, j, hi, hj, hij⟩ := lt_of_transGen hrise' hm
    exact absurd (inLayer_unique hi hj) hij.ne

end Graph

end StackGraph
