import Mathlib.Order.Bounds.Basic
import StackGraph.Proofs.Graph.ForcedLayers
/-!
# The depth of a layer

The layers are peeled off round by round. Each round takes something as long as
something remains, so the peeling comes to an end whatever the edges are, also
on cycles, and by then every module has been taken once. In this much the
layers of all graphs are alike.

Without cycles they also have a meaning. The number of a layer is the number of
edges on the longest path to any of its modules (`Graph.IsDepth`). The two
halves of this are two facts about one edge. Along an edge the layer rises, so
no path is longer than the number of the layer that it leads to. And a module
that was not taken in a round had an edge from a module that was there in that
round; so a module of any later layer has an edge from the layer just before,
and going upstream from layer to layer gives a path that is as long.

The main statement is `Graph.layers_exactly_depths`.
-/

namespace StackGraph

open Std Relation

namespace Graph

variable {g : Graph} {path rest layer : List String} {rounds i j : Nat} {first m : String}

/-! ## The rounds -/

/-- The rounds of the peeling. -/
theorem getElem?_layers :
    g.layers[j]?
      = if g.remainingAt g.ids j = [] then none
        else some (g.nextLayer (g.remainingAt g.ids j)) :=
  getElem?_layersOf ExtTreeMap.length_keys.le

/-- **The peeling ends** after as many rounds as there are layers, and not
before. -/
theorem remainingAt_ids_eq_nil_iff : g.remainingAt g.ids j = [] ↔ g.layers.length ≤ j := by
  rw [← List.getElem?_eq_none_iff, getElem?_layers]
  split <;> simp_all

/-- **More rounds than modules change nothing.** -/
theorem layersOf_eq_layers (hrounds : g.modules.size ≤ rounds) :
    g.layersOf rounds g.ids = g.layers := by
  have hlength : g.ids.length ≤ rounds := ExtTreeMap.length_keys.trans_le hrounds
  refine List.ext_getElem? fun j => ?_
  rw [getElem?_layers, getElem?_layersOf hlength]

/-- **No layer is empty, and each is in the order of ids.** -/
theorem ne_nil_and_pairwise_of_mem_layers (h : layer ∈ g.layers) :
    layer ≠ [] ∧ layer.Pairwise (· < ·) := by
  obtain ⟨j, hj⟩ := List.mem_iff_getElem?.1 h
  rw [getElem?_layers] at hj
  split at hj
  · cases hj
  · rename_i hne
    obtain rfl := Option.some.inj hj
    obtain ⟨a, ha⟩ := exists_mem_nextLayer (g := g) hne
    have hsorted : g.ids.Pairwise (· < ·) := ExtTreeMap.ordered_keys.imp compareName_eq_lt.1
    exact ⟨List.ne_nil_of_mem ha, hsorted.sublist (nextLayer_sublist.trans remainingAt_sublist)⟩

/-! ## Paths and layers -/

/-- **A path to a module**: pairwise different modules, each with an edge to the
next, the last of which is the module. The module alone is one. -/
structure IsPathTo (g : Graph) (path : List String) (m : String) : Prop where
  nodup : path.Nodup
  chain : List.IsChain g.HasEdge path
  last : path.getLast? = some m

/-- **The longest path to a module** has the given number of edges. -/
def IsDepth (g : Graph) (m : String) (k : Nat) : Prop :=
  IsGreatest {n | ∃ path, g.IsPathTo path m ∧ path.length = n + 1} k

/-- **A module of a later layer has an edge from the layer before.** -/
theorem exists_hasEdge_of_inLayer_succ (hacyclic : ∀ m, ¬ TransGen g.HasEdge m m)
    (hm : InLayer g.layers m (j + 1)) : ∃ u, g.HasEdge u m ∧ InLayer g.layers u j := by
  -- in the round before, the module was there and was not taken, so it was not free
  have hthere : m ∈ g.remainingAt g.ids j := mem_remainingAt_ids.2 ⟨j + 1, Nat.le_succ j, hm⟩
  have hwait : ¬ g.isFree (g.remainingAt g.ids j) m := by
    intro hfree
    have hj : InLayer g.layers m j :=
      inLayer_layers_iff.2 (mem_nextLayer.2 (.inl ⟨hthere, hfree⟩))
    exact absurd (inLayer_unique hm hj) (Nat.succ_ne_self j)
  rw [isFree_iff] at hwait
  push Not at hwait
  obtain ⟨u, he, hu⟩ := hwait
  -- what it waits for is placed before it, and not before that round
  obtain ⟨i, hji, hi⟩ := mem_remainingAt_ids.1 hu
  have hij : i < j + 1 := lt_of_inLayer hacyclic he hi hm
  obtain rfl : i = j := by omega
  exact ⟨u, he, hi⟩

/-- **A path as long as the number of the layer.** None of its modules is placed
later, so the last one is new. -/
theorem exists_isPathTo (hacyclic : ∀ m, ¬ TransGen g.HasEdge m m) (hm : InLayer g.layers m j) :
    ∃ path, g.IsPathTo path m ∧ path.length = j + 1
      ∧ ∀ a ∈ path, ∃ i ≤ j, InLayer g.layers a i := by
  induction j generalizing m with
  | zero =>
    refine ⟨[m], ⟨List.nodup_singleton m, List.isChain_singleton m, rfl⟩, rfl, fun a ha => ?_⟩
    rw [List.mem_singleton.1 ha]
    exact ⟨0, le_rfl, hm⟩
  | succ j ih =>
    obtain ⟨u, he, hu⟩ := exists_hasEdge_of_inLayer_succ hacyclic hm
    obtain ⟨path, hpath, hlength, hplaced⟩ := ih hu
    have hnew : m ∉ path := by
      intro hmem
      obtain ⟨i, hij, hi⟩ := hplaced m hmem
      have := inLayer_unique hm hi
      omega
    refine ⟨path ++ [m], ⟨?_, ?_, List.getLast?_concat⟩, ?_, ?_⟩
    · exact List.nodup_append_comm.1 (List.nodup_cons.2 ⟨hnew, hpath.nodup⟩)
    · refine List.isChain_append.2 ⟨hpath.chain, List.isChain_singleton m, fun x hx y hy => ?_⟩
      rw [hpath.last] at hx
      cases hx
      cases hy
      exact he
    · rw [List.length_append, hlength, List.length_singleton]
    · intro a ha
      rcases List.mem_append.1 ha with ha | ha
      · obtain ⟨i, hij, hi⟩ := hplaced a ha
        exact ⟨i, Nat.le_succ_of_le hij, hi⟩
      · rw [List.mem_singleton.1 ha]
        exact ⟨j + 1, le_rfl, hm⟩

/-- **Along a path the layer rises with every edge.** -/
theorem add_length_le (hacyclic : ∀ m, ¬ TransGen g.HasEdge m m)
    (hchain : List.IsChain g.HasEdge (first :: rest)) (hlast : (first :: rest).getLast? = some m)
    (hi : InLayer g.layers first i) (hj : InLayer g.layers m j) : i + rest.length ≤ j := by
  induction rest generalizing first i with
  | nil =>
    obtain rfl := Option.some.inj hlast
    exact (inLayer_unique hi hj).le
  | cons next rest ih =>
    obtain ⟨he, hchain⟩ := List.isChain_cons_cons.1 hchain
    obtain ⟨k, hk, -⟩ := existsUnique_inLayer he.target_mem
    have hik : i < k := lt_of_inLayer hacyclic he hi hk
    have hkj : k + rest.length ≤ j := ih hchain (by rwa [List.getLast?_cons_cons] at hlast) hk
    rw [List.length_cons]
    omega

/-- **No path is longer than the number of the layer.** -/
theorem IsPathTo.length_le (h : g.IsPathTo path m) (hacyclic : ∀ m, ¬ TransGen g.HasEdge m m)
    (hj : InLayer g.layers m j) : path.length ≤ j + 1 := by
  cases path with
  | nil => exact Nat.zero_le _
  | cons first rest =>
    have hfirst : first ∈ g.modules := by
      cases rest with
      | nil =>
        obtain rfl := Option.some.inj h.last
        exact mem_ids.1 (mem_of_inLayer hj)
      | cons next rest => exact (List.isChain_cons_cons.1 h.chain).1.source_mem
    obtain ⟨i, hi, -⟩ := existsUnique_inLayer hfirst
    have hle := add_length_le hacyclic h.chain h.last hi hj
    rw [List.length_cons]
    omega

/-- **The number of the layer of a module is its depth.** -/
theorem isDepth_of_inLayer (hacyclic : ∀ m, ¬ TransGen g.HasEdge m m)
    (hj : InLayer g.layers m j) : g.IsDepth m j := by
  constructor
  · obtain ⟨path, hpath, hlength, -⟩ := exists_isPathTo hacyclic hj
    exact ⟨path, hpath, hlength⟩
  · rintro n ⟨path, hpath, hlength⟩
    have hle := hpath.length_le hacyclic hj
    omega

/-- **What the layers are.** The peeling ends, after as many rounds as there are
layers, and more rounds would change nothing; no layer is empty, each is in the
order of ids, and together they hold every module once. In a graph without
cycles a module stands in the layer with a number exactly if the longest path to
it has this number of edges. -/
theorem layers_exactly_depths (g : Graph) :
    (∀ j, g.remainingAt g.ids j = [] ↔ g.layers.length ≤ j)
      ∧ (∀ rounds, g.modules.size ≤ rounds → g.layersOf rounds g.ids = g.layers)
      ∧ (∀ layer ∈ g.layers, layer ≠ [] ∧ layer.Pairwise (· < ·))
      ∧ (g.layers.flatten.Nodup ∧ ∀ id, id ∈ g.layers.flatten ↔ id ∈ g.modules)
      ∧ ((∀ m, ¬ TransGen g.HasEdge m m) →
        ∀ m ∈ g.modules, ∀ k, InLayer g.layers m k ↔ g.IsDepth m k) := by
  refine ⟨fun j => remainingAt_ids_eq_nil_iff, fun rounds => layersOf_eq_layers,
    fun layer => ne_nil_and_pairwise_of_mem_layers, ⟨?_, fun id => ?_⟩, ?_⟩
  · exact flatten_layers_perm.nodup_iff.2 nodup_ids
  · rw [flatten_layers_perm.mem_iff, mem_ids]
  · intro hacyclic m hm k
    obtain ⟨j, hj, -⟩ := existsUnique_inLayer hm
    have hdepth := isDepth_of_inLayer hacyclic hj
    constructor
    · exact isDepth_of_inLayer hacyclic
    · intro hk
      rwa [hk.unique hdepth]

/-- A network, a database in it, and a service that reads from both, besides
from a log. -/
def serviceStack : Graph :=
  [("net", "db"), ("net", "service"), ("db", "service"), ("log", "service")].foldl
    (fun g e => g.addEdge e.1 e.2 .explicit)
    (["db", "log", "net", "service"].foldl (fun g id => g.addModule (.new id ⟨id⟩)) empty)

/-- The service stands in the third layer, since the database is on the way to
it, and not in the one right after the network. -/
theorem isDepth_serviceStack :
    (∀ m, ¬ TransGen serviceStack.HasEdge m m) ∧ "service" ∈ serviceStack.modules
      ∧ InLayer serviceStack.layers "service" 2 ∧ serviceStack.IsDepth "service" 2 := by
  have hlayers : serviceStack.layers = [["log", "net"], ["db"], ["service"]] := by decide
  have hacyclic : ∀ m, ¬ TransGen serviceStack.HasEdge m m := cycles_eq_nil_iff.1 (by decide)
  have hmem : "service" ∈ serviceStack.modules := by decide
  have hlayer : InLayer serviceStack.layers "service" 2 := by
    rw [hlayers]
    exact ⟨["service"], rfl, List.mem_singleton_self _⟩
  obtain ⟨-, -, -, -, hdepth⟩ := layers_exactly_depths serviceStack
  exact ⟨hacyclic, hmem, hlayer, (hdepth hacyclic "service" hmem 2).1 hlayer⟩

end Graph

end StackGraph
