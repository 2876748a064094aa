import Mathlib.Data.List.Nodup
import StackGraph.Graph.Walks
import StackGraph.Proofs.Graph.Reachability
/-!
# The recorded paths are the simple paths

`Graph.paths` runs one backtracking search from every module, writes a path
down each time the search moves on, and files it under a text made of the
path's two ends. This module says what is filed where.

As for cycles, the statement that carries the induction is about a *call* of
the search in the middle of a path: what it finds are the ways on from the
current module (`Graph.WayOn`), each put behind the path so far. Two more
things are needed here. The search must not find a path twice, although its
calls share their beginnings: two calls of one level differ in the module they
move to, and everything a call finds begins with that module. And filing must
lose nothing: an entry of the map is the list of those found paths that have
its key, sorted (`Graph.recorded_eq`), so that what is recorded is found again
entry by entry.
-/

namespace StackGraph

open Std Relation

namespace Graph

variable {g : Graph} {earlier rest path : List String} {current start s t : String}

/-! ## Simple paths -/

/-- **A simple path**: at least two modules, pairwise distinct, each with an
edge to the next. -/
structure IsSimplePath (g : Graph) (path : List String) : Prop where
  two_le : 2 ≤ path.length
  nodup : path.Nodup
  chain : List.IsChain g.HasEdge path

/-- A path leads from its first module to its last. -/
def Leads (path : List String) (s t : String) : Prop := path.head? = some s ∧ path.getLast? = some t

instance : Decidable (Leads path s t) := inferInstanceAs (Decidable (_ ∧ _))

theorem isSimplePath_cons_cons {next : String} :
    g.IsSimplePath (current :: next :: rest)
      ↔ (current :: next :: rest).Nodup ∧ List.IsChain g.HasEdge (current :: next :: rest) :=
  ⟨fun h => ⟨h.nodup, h.chain⟩, fun h => ⟨by simp, h.1, h.2⟩⟩

/-- A simple path has a first edge. -/
theorem IsSimplePath.exists_eq (h : g.IsSimplePath path) :
    ∃ first next rest, path = first :: next :: rest := by
  match path, h.two_le with
  | first :: next :: rest, _ => exact ⟨first, next, rest, rfl⟩

/-- A simple path leads somewhere. -/
theorem IsSimplePath.exists_leads (h : g.IsSimplePath path) : ∃ s t, Leads path s t := by
  obtain ⟨first, next, rest, rfl⟩ := h.exists_eq
  exact ⟨first, _, rfl, List.getLast?_eq_some_getLast (List.cons_ne_nil _ _)⟩

/-- What lies on a chain of edges is a module. -/
theorem mem_modules_of_isChain {first next : String}
    (h : List.IsChain g.HasEdge (first :: next :: rest)) :
    ∀ a ∈ first :: next :: rest, a ∈ g.modules := by
  induction rest generalizing first next with
  | nil =>
    have he := List.isChain_pair.1 h
    exact List.forall_mem_cons.2 ⟨he.source_mem, List.forall_mem_singleton.2 he.target_mem⟩
  | cons c rest ih =>
    obtain ⟨he, hchain⟩ := List.isChain_cons_cons.1 h
    exact List.forall_mem_cons.2 ⟨he.source_mem, ih hchain⟩

/-- A simple path is not longer than the list of modules. -/
theorem IsSimplePath.length_le (h : g.IsSimplePath path) : path.length ≤ g.modules.size := by
  obtain ⟨first, next, rest, rfl⟩ := h.exists_eq
  rw [← ExtTreeMap.length_keys]
  exact h.nodup.length_le_of_subset fun a ha => mem_ids.2 (mem_modules_of_isChain h.chain a ha)

/-- **Where a simple path leads is reached**, and it is another module. -/
theorem IsSimplePath.ne_and_transGen (h : g.IsSimplePath path) (hends : Leads path s t) :
    s ≠ t ∧ TransGen g.HasEdge s t := by
  obtain ⟨first, next, rest, rfl⟩ := h.exists_eq
  obtain ⟨hs, ht⟩ := hends
  obtain rfl := Option.some.inj hs
  rw [List.getLast?_cons_cons] at ht
  obtain ⟨he, hchain⟩ := List.isChain_cons_cons.1 h.chain
  constructor
  · rintro rfl
    exact (List.nodup_cons.1 h.nodup).1 (List.mem_of_getLast? ht)
  · refine .head' he (List.relationReflTransGen_of_exists_isChain_cons rest hchain ?_)
    exact Option.some.inj ((List.getLast?_eq_some_getLast (List.cons_ne_nil _ _)).symm.trans ht)

/-- **What is reached is reached by a walk without repetitions.** A walk that
comes back to its first module can start there instead. -/
theorem exists_nodup_chain {r : String → String → Prop} (h : ReflTransGen r s t) :
    ∃ rest, (s :: rest).Nodup ∧ List.IsChain r (s :: rest) ∧ (s :: rest).getLast? = some t := by
  induction h using ReflTransGen.head_induction_on with
  | refl => exact ⟨[], List.nodup_cons.2 ⟨List.not_mem_nil, .nil⟩, List.isChain_singleton t, rfl⟩
  | @head a c hac _ ih =>
    obtain ⟨rest, hnodup, hchain, hlast⟩ := ih
    by_cases ha : a ∈ c :: rest
    · obtain ⟨before, after, hsplit⟩ := List.append_of_mem ha
      rw [hsplit] at hnodup hchain hlast
      refine ⟨after, (List.nodup_append'.1 hnodup).2.1, hchain.right_of_append, ?_⟩
      rwa [List.getLast?_append_cons] at hlast
    · exact ⟨c :: rest, List.nodup_cons.2 ⟨ha, hnodup⟩, List.isChain_cons_cons.2 ⟨hac, hchain⟩, by
        rw [List.getLast?_cons_cons, hlast]⟩

/-- **Another module that is reached is reached by a simple path.** -/
theorem exists_isSimplePath (hne : s ≠ t) (h : TransGen g.HasEdge s t) :
    ∃ path, g.IsSimplePath path ∧ Leads path s t := by
  obtain ⟨rest, hnodup, hchain, hlast⟩ := exists_nodup_chain h.to_reflTransGen
  cases rest with
  | nil => exact absurd (Option.some.inj hlast) hne
  | cons next rest =>
    exact ⟨s :: next :: rest, isSimplePath_cons_cons.2 ⟨hnodup, hchain⟩, rfl, hlast⟩

/-! ## What a search finds -/

/-- **A way on from the current module**: modules that follow it, each reached
by an edge from the one before, new to the path and different from each
other. -/
structure WayOn (g : Graph) (current : String) (earlier rest : List String) : Prop where
  chain : List.IsChain g.HasEdge (current :: rest)
  fresh : ∀ a ∈ rest, a ∉ current :: earlier
  nodup : rest.Nodup

/-- The way that goes nowhere. -/
theorem wayOn_nil : g.WayOn current earlier [] :=
  ⟨List.isChain_singleton current, by simp, .nil⟩

/-- A longer way takes one step that the search allows and goes on from
there. -/
theorem wayOn_cons {next : String} :
    g.WayOn current earlier (next :: rest)
      ↔ (g.HasEdge current next ∧ next ∉ current :: earlier)
        ∧ g.WayOn next (current :: earlier) rest := by
  constructor
  · intro h
    obtain ⟨he, hchain⟩ := List.isChain_cons_cons.1 h.chain
    obtain ⟨hfr, hfresh⟩ := List.forall_mem_cons.1 h.fresh
    obtain ⟨hne, hnodup⟩ := List.nodup_cons.1 h.nodup
    refine ⟨⟨he, hfr⟩, hchain, fun a ha => ?_, hnodup⟩
    rw [List.mem_cons, not_or]
    exact ⟨fun hx => hne (hx ▸ ha), hfresh a ha⟩
  · rintro ⟨⟨he, hfr⟩, h⟩
    have hne : next ∉ rest := fun hx => h.fresh next hx List.mem_cons_self
    refine ⟨List.isChain_cons_cons.2 ⟨he, h.chain⟩, ?_, List.nodup_cons.2 ⟨hne, h.nodup⟩⟩
    exact List.forall_mem_cons.2 ⟨hfr, fun a ha hx => h.fresh a ha (List.mem_cons_of_mem _ hx)⟩

/-- **What a call of the search finds**: the ways on that are short enough for
the steps that remain, each put behind the path so far. -/
theorem mem_pathsAlong {steps : Nat} :
    path ∈ g.pathsAlong steps current earlier
      ↔ ∃ next rest, rest.length < steps ∧ g.WayOn current earlier (next :: rest)
        ∧ path = (current :: earlier).reverse ++ next :: rest := by
  induction steps generalizing current earlier with
  | zero => simp [pathsAlong]
  | succ steps ih =>
    simp only [pathsAlong, List.mem_flatMap, mem_dependents]
    constructor
    · rintro ⟨next, he, hp⟩
      split at hp
      · exact absurd hp List.not_mem_nil
      · rename_i hfresh
        -- the path ends with this step, or a later call has found it
        rcases List.mem_cons.1 hp with rfl | hp
        · exact ⟨next, [], Nat.succ_pos _, wayOn_cons.2 ⟨⟨he, hfresh⟩, wayOn_nil⟩, by simp⟩
        · obtain ⟨next', rest, hlen, hway, rfl⟩ := ih.1 hp
          exact ⟨next, next' :: rest, Nat.succ_lt_succ hlen,
            wayOn_cons.2 ⟨⟨he, hfresh⟩, hway⟩, by simp⟩
    · rintro ⟨next, rest, hlen, hway, rfl⟩
      obtain ⟨⟨he, hfresh⟩, hway⟩ := wayOn_cons.1 hway
      refine ⟨next, he, ?_⟩
      rw [if_neg hfresh, List.mem_cons]
      cases rest with
      | nil => exact .inl (by simp)
      | cons next' rest =>
        exact .inr (ih.2 ⟨next', rest, Nat.lt_of_succ_lt_succ hlen, hway, by simp⟩)

/-- What the search finds after a step begins with the path up to that
step. -/
theorem prefix_of_mem_pathsAlong {steps : Nat} {next : String}
    (h : path ∈ if next ∈ current :: earlier then []
      else (next :: current :: earlier).reverse :: g.pathsAlong steps next (current :: earlier)) :
    (next :: current :: earlier).reverse <+: path := by
  split at h
  · exact absurd h List.not_mem_nil
  · rcases List.mem_cons.1 h with rfl | h
    · exact List.prefix_rfl
    · obtain ⟨next', rest, -, -, rfl⟩ := mem_pathsAlong.1 h
      exact List.prefix_append _ _

/-- **A call of the search finds nothing twice.** -/
theorem nodup_pathsAlong {steps : Nat} : (g.pathsAlong steps current earlier).Nodup := by
  induction steps generalizing current earlier with
  | zero => exact .nil
  | succ steps ih =>
    rw [pathsAlong, List.nodup_flatMap]
    refine ⟨fun next _ => ?_, pairwise_dependents.imp fun {a b} hab path ha hb => ?_⟩
    · split
      · exact .nil
      · -- later calls only find longer paths
        refine List.nodup_cons.2 ⟨fun h => ?_, ih⟩
        obtain ⟨next', rest, -, -, hpath⟩ := mem_pathsAlong.1 h
        exact List.cons_ne_nil _ _ (List.self_eq_append_right.1 hpath)
    · -- two steps lead to different modules, and the paths show which
      have hbegin := List.prefix_of_prefix_length_le (prefix_of_mem_pathsAlong ha)
        (prefix_of_mem_pathsAlong hb) (by simp)
      have heq := List.reverse_injective (hbegin.eq_of_length (by simp))
      rw [(List.cons.inj heq).1] at hab
      exact absurd (ReflCmp.compare_self.symm.trans hab) (by decide)

/-- **What the search from a module finds** are the simple paths that start
there. -/
theorem mem_pathsFrom :
    path ∈ g.pathsFrom start ↔ g.IsSimplePath path ∧ path.head? = some start := by
  rw [pathsFrom, mem_pathsAlong]
  constructor
  · rintro ⟨next, rest, -, hway, rfl⟩
    refine ⟨isSimplePath_cons_cons.2 ⟨List.nodup_cons.2 ⟨fun h => ?_, hway.nodup⟩, hway.chain⟩, rfl⟩
    exact hway.fresh start h List.mem_cons_self
  · rintro ⟨hpath, hstart⟩
    have hlen := hpath.length_le
    obtain ⟨first, next, rest, rfl⟩ := hpath.exists_eq
    obtain rfl := Option.some.inj hstart
    obtain ⟨hnotin, hnodup⟩ := List.nodup_cons.1 hpath.nodup
    refine ⟨next, rest, ?_, ⟨hpath.chain, fun a ha hmem => ?_, hnodup⟩, rfl⟩
    · simp only [List.length_cons] at hlen
      omega
    · exact hnotin (List.mem_singleton.1 hmem ▸ ha)

/-- The paths that the searches find, from one module after the other. -/
def found (g : Graph) : List (List String) := g.ids.flatMap g.pathsFrom

/-- **The paths that are found are the simple paths.** -/
theorem mem_found : path ∈ g.found ↔ g.IsSimplePath path := by
  simp only [found, List.mem_flatMap, mem_pathsFrom, mem_ids]
  constructor
  · rintro ⟨_, -, hpath, -⟩
    exact hpath
  · intro hpath
    obtain ⟨first, next, rest, rfl⟩ := hpath.exists_eq
    exact ⟨first, mem_modules_of_isChain hpath.chain first List.mem_cons_self, hpath, rfl⟩

/-- **No path is found twice.** -/
theorem nodup_found : g.found.Nodup := by
  rw [found, List.nodup_flatMap]
  refine ⟨fun _ _ => nodup_pathsAlong, ?_⟩
  refine List.Pairwise.imp (fun {a b} hab path ha hb => ?_) ExtTreeMap.nodup_keys
  exact hab (Option.some.inj ((mem_pathsFrom.1 ha).2.symm.trans (mem_pathsFrom.1 hb).2))

/-! ## Where a path is recorded -/

/-- The key under which a path is filed. -/
def keyOf (path : List String) : String := pathKey (path.head?.getD "") (path.getLast?.getD "")

theorem keyOf_eq (h : Leads path s t) : keyOf path = pathKey s t := by
  rw [keyOf, h.1, h.2]
  rfl

/-- **Filing sorts by key and keeps the order**: under each key there is what
was filed with it, and there is no entry without a path. -/
theorem getElem?_foldl_recordPath {paths : List (List String)} {key : String} :
    (paths.foldl recordPath ∅)[key]?
      = if paths.filter (keyOf · = key) = [] then none
        else some (paths.filter (keyOf · = key)) := by
  induction paths using List.reverseRecOn with
  | nil => simp
  | append_singleton paths path ih =>
    rw [List.foldl_append, List.foldl_cons, List.foldl_nil, List.filter_append]
    show ((paths.foldl recordPath ∅).insert (keyOf path) _)[key]? = _
    by_cases hkey : keyOf path = key
    · subst hkey
      rw [ExtTreeMap.getElem?_insert_self, ← keyOf, ih]
      split
      · rename_i hnil
        simp [hnil]
      · simp
    · rw [getElem?_insert_of_ne hkey, ih]
      simp [hkey]

/-- What is recorded under a key. -/
def recorded (g : Graph) (key : String) : List (List String) := (g.paths[key]?).getD []

theorem getElem?_paths {key : String} :
    g.paths[key]?
      = if g.found.filter (keyOf · = key) = [] then none
        else some (sortBy compareByLength (g.found.filter (keyOf · = key))) := by
  rw [paths, ExtTreeMap.getElem?_map, ← found, getElem?_foldl_recordPath]
  split <;> rfl

/-- **What is recorded under a key** is what was found with that key,
sorted. -/
theorem recorded_eq {key : String} :
    g.recorded key = sortBy compareByLength (g.found.filter (keyOf · = key)) := by
  rw [recorded, getElem?_paths]
  split
  · rename_i hnil
    rw [hnil]
    exact List.mergeSort_nil.symm
  · rfl

/-- A path is recorded under the key of its two ends. -/
theorem mem_recorded {key : String} :
    path ∈ g.recorded key
      ↔ g.IsSimplePath path ∧ ∃ s t, Leads path s t ∧ key = s ++ "->" ++ t := by
  rw [recorded_eq, mem_sortBy, List.mem_filter, mem_found, decide_eq_true_eq]
  refine and_congr_right fun hpath => ?_
  constructor
  · rintro rfl
    obtain ⟨s, t, hends⟩ := hpath.exists_leads
    exact ⟨s, t, hends, keyOf_eq hends⟩
  · rintro ⟨s, t, hends, rfl⟩
    exact keyOf_eq hends

theorem pairwise_recorded {key : String} : (g.recorded key).Pairwise (List.Shortlex (· < ·)) := by
  rw [recorded_eq]
  exact (pairwise_sortBy (nodup_found.filter _)).imp compareByLength_eq_lt.1

theorem nodup_recorded {key : String} : (g.recorded key).Nodup := by
  rw [recorded_eq]
  exact perm_sortBy.nodup_iff.2 (nodup_found.filter _)

theorem recorded_of_getElem? {key : String} {paths : List (List String)}
    (h : g.paths[key]? = some paths) : g.recorded key = paths := by
  rw [recorded, h]
  rfl

/-- **What is recorded** under some key are the simple paths. -/
theorem mem_flatten_values : path ∈ g.paths.values.flatten ↔ g.IsSimplePath path := by
  simp only [List.mem_flatten, mem_values]
  constructor
  · rintro ⟨paths, ⟨key, hkey⟩, hpath⟩
    rw [← recorded_of_getElem? hkey] at hpath
    exact (mem_recorded.1 hpath).1
  · intro hpath
    obtain ⟨s, t, hends⟩ := hpath.exists_leads
    have hmem : path ∈ g.recorded (s ++ "->" ++ t) := mem_recorded.2 ⟨hpath, s, t, hends, rfl⟩
    cases hkey : g.paths[s ++ "->" ++ t]? with
    | none =>
      rw [recorded, hkey] at hmem
      exact absurd hmem List.not_mem_nil
    | some paths => exact ⟨paths, ⟨_, hkey⟩, recorded_of_getElem? hkey ▸ hmem⟩

/-- **Nothing is recorded twice**, under one key or under two. -/
theorem nodup_flatten_values : g.paths.values.flatten.Nodup := by
  have hrecorded : ∀ e ∈ g.paths.toList, e.2 = g.recorded e.1 := fun e he =>
    (recorded_of_getElem? (ExtTreeMap.mem_toList_iff_getElem?_eq_some.1 he)).symm
  rw [values_eq_map_toList, List.nodup_flatten]
  constructor
  · rintro _ hmem
    obtain ⟨e, he, rfl⟩ := List.mem_map.1 hmem
    rw [hrecorded e he]
    exact nodup_recorded
  · rw [List.pairwise_map]
    refine ExtTreeMap.distinct_keys_toList.imp_of_mem fun {a b} ha hb hne path hpa hpb => ?_
    -- a path that is recorded twice has one key
    rw [hrecorded a ha, mem_recorded] at hpa
    rw [hrecorded b hb, mem_recorded] at hpb
    obtain ⟨-, s, t, hends, hkey⟩ := hpa
    obtain ⟨-, s', t', hends', hkey'⟩ := hpb
    refine hne (LawfulEqCmp.compare_eq_iff_eq.2 ?_)
    rw [hkey, hkey']
    exact (keyOf_eq hends).symm.trans (keyOf_eq hends')

/-- **The recorded paths are exactly the simple paths**, each recorded once in
the whole map, under the key made of its first and its last module. Under one
key shorter paths come first, and paths of one length in the order of their
names. -/
theorem paths_exactly_simplePaths (g : Graph) :
    (∀ path, path ∈ g.paths.values.flatten ↔ g.IsSimplePath path)
      ∧ g.paths.values.flatten.Nodup
      ∧ (∀ key path, path ∈ g.recorded key
        ↔ g.IsSimplePath path ∧ ∃ s t, Leads path s t ∧ key = s ++ "->" ++ t)
      ∧ ∀ key, (g.recorded key).Pairwise (List.Shortlex (· < ·)) := by
  exact ⟨fun path => mem_flatten_values, nodup_flatten_values, fun key path => mem_recorded,
    fun key => pairwise_recorded⟩

end Graph

end StackGraph
