import StackGraph.Proofs.Graph.Edges
/-!
# Graphs that grow by additions

A graph is made by additions, of modules and of edges, in whatever order a
caller chooses. An edge is entered with the kind of its first addition, every
further one adds to its evidence, and as soon as a declaration is among them the
edge shows as declared (`Edge.gain`). The library does not carry this kind along:
it keeps the evidence and reads the kind off when an edge is looked up. That
both come to the same is a statement about one addition
(`Graph.edge?_addEdge`).

An addition is refused if an end is unknown or both are the same, and then it
changes nothing. So what a graph holds is decided by the additions that it has
accepted, each at its own time: a module that is added later does not bring
back an edge that was refused before it. Once the modules are there, time does
not matter any more, and edges can be added in any order and as often as one
likes (`Graph.ofAdditions_exactly`).
-/

namespace StackGraph

open Std

/-- An addition to a graph. -/
inductive Addition where
  /-- A module, which replaces one of the same id. -/
  | module (m : Module)
  | edge (source target : String) (kind : EdgeKind)

namespace Edge

/-- An edge that is entered with a kind, before anything is evidence for it. -/
def entered (source target : String) (kind : EdgeKind) : Edge := ⟨source, target, kind, ∅⟩

/-- The edge with one more kind of evidence: it shows as declared if it is
declared now, and as it did otherwise. -/
def gain (e : Edge) (kind : EdgeKind) : Edge :=
  let evidence := e.evidence.insert kind
  { e with kind := if .explicit ∈ evidence then .explicit else e.kind, evidence }

end Edge

namespace Graph

variable {g : Graph} {a b s t : String} {k kind : EdgeKind} {e : Edge}

/-! ## One addition -/

/-- An edge is accepted exactly if its ends are two different modules. -/
theorem addEdge?_ne_none_iff :
    g.addEdge? s t k ≠ none ↔ s ∈ g.modules ∧ t ∈ g.modules ∧ s ≠ t := by
  unfold addEdge?
  split
  · rename_i hends
    exact iff_of_true (Option.some_ne_none _) hends
  · rename_i hends
    exact iff_of_false (not_not.2 rfl) hends

theorem addEdge_of_eq_none (h : g.addEdge? s t k = none) : g.addEdge s t k = g := by
  rw [addEdge, h, Option.getD_none]

/-- **An edge is looked up under its two ends**, with all the evidence for it. -/
theorem edge?_eq_some_iff :
    g.edge? a b = some e
      ↔ g.HasEdge a b ∧ e = ⟨a, b, (g.evidenceFor a b).kind, g.evidenceFor a b⟩ := by
  rw [edge?, evidenceFor, HasEdge, ExtTreeMap.mem_iff_isSome_getElem?]
  cases g.evidence[(a, b)]? with
  | none => simp
  | some evidence => simp [eq_comm]

/-- The listed edges are those that can be looked up. -/
theorem mem_edges_iff : e ∈ g.edges ↔ g.edge? e.source e.target = some e := by
  rw [edges, List.mem_map, edge?, Option.map_eq_some_iff]
  constructor
  · rintro ⟨⟨⟨a, b⟩, evidence⟩, hmem, rfl⟩
    exact ⟨evidence, ExtTreeMap.mem_toList_iff_getElem?_eq_some.1 hmem, rfl⟩
  · rintro ⟨evidence, hget, heq⟩
    exact ⟨((e.source, e.target), evidence), ExtTreeMap.mem_toList_iff_getElem?_eq_some.2 hget, heq⟩

/-- Evidence that is not declared shows as inferred. -/
theorem kind_eq_explicit_iff {evidence : Evidence} :
    evidence.kind = .explicit ↔ .explicit ∈ evidence := by
  unfold Evidence.kind
  split
  · rename_i h
    exact iff_of_true rfl h
  · rename_i h
    exact iff_of_false (by decide) h

/-- **What an accepted addition leaves of its edge.** The kind that is read off
the evidence is the one that the edge was entered with, or declared as soon as
a declaration came. -/
theorem edge?_addEdge (h : g.addEdge? s t k ≠ none) :
    (g.addEdge s t k).edge? s t = some (((g.edge? s t).getD (.entered s t k)).gain k) := by
  have hends := addEdge?_ne_none_iff.1 h
  have hget : (g.addEdge s t k).evidence[(s, t)]? = some ((g.evidenceFor s t).insert k) := by
    rw [addEdge, addEdge?, dif_pos hends, Option.getD_some]
    exact ExtTreeMap.getElem?_insert_self
  rw [edge?, hget, edge?, evidenceFor]
  cases hold : g.evidence[(s, t)]? with
  | some evidence =>
    -- the kind before the addition was read off the evidence too
    simp only [Option.map_some, Option.getD_some, Edge.gain, Evidence.kind]
    by_cases hnew : .explicit ∈ evidence.insert k
    · rw [if_pos hnew, if_pos hnew]
    · have hnot : .explicit ∉ evidence := fun hmem => hnew (ExtTreeSet.mem_insert.2 (.inr hmem))
      rw [if_neg hnew, if_neg hnew, if_neg hnot]
  | none =>
    simp only [Option.map_none, Option.map_some, Option.getD_none, Edge.gain, Edge.entered,
      Evidence.kind]
    cases k <;> rfl

/-- Every other edge stays as it is. -/
theorem edge?_addEdge_of_ne (h : (a, b) ≠ (s, t)) :
    (g.addEdge s t k).edge? a b = g.edge? a b := by
  unfold addEdge addEdge?
  split
  · rw [Option.getD_some]
    exact congrArg _ (getElem?_insert_of_ne (Ne.symm h))
  · rfl

/-! ## All additions -/

/-- The graph after an addition; one that is refused changes nothing. -/
def after (g : Graph) : Addition → Graph
  | .module m => g.addModule m
  | .edge source target kind => g.addEdge source target kind

/-- The graph that some additions make of nothing. -/
def ofAdditions (xs : List Addition) : Graph := xs.foldl after empty

variable {xs before : List Addition} {x : Addition}

theorem ofAdditions_append_singleton : ofAdditions (xs ++ [x]) = (ofAdditions xs).after x := by
  rw [ofAdditions, List.foldl_append]
  rfl

/-- **Some addition of an edge was accepted**: the graph that the additions
before it had made took the edge. -/
def Accepted (xs : List Addition) (a b : String) (kind : EdgeKind) : Prop :=
  ∃ before, before ++ [.edge a b kind] <+: xs
    ∧ (ofAdditions before).addEdge? a b kind ≠ none

theorem not_accepted_nil : ¬ Accepted [] a b kind := by
  rintro ⟨before, hprefix, -⟩
  exact absurd (List.prefix_nil.1 hprefix) (by simp)

theorem accepted_append_singleton :
    Accepted (xs ++ [x]) a b kind
      ↔ Accepted xs a b kind
        ∨ x = .edge a b kind ∧ (ofAdditions xs).addEdge? a b kind ≠ none := by
  unfold Accepted
  simp only [List.prefix_concat_iff, or_and_right, exists_or]
  rw [or_comm]
  refine or_congr_right ?_
  constructor
  · rintro ⟨before, heq, haccepted⟩
    obtain ⟨rfl, hx⟩ := List.append_inj' heq rfl
    exact ⟨(List.singleton_inj.1 hx).symm, haccepted⟩
  · rintro ⟨rfl, haccepted⟩
    exact ⟨xs, rfl, haccepted⟩

/-- What one addition brings as evidence. -/
theorem mem_evidenceFor_after :
    kind ∈ (g.after x).evidenceFor a b
      ↔ kind ∈ g.evidenceFor a b ∨ x = .edge a b kind ∧ g.addEdge? a b kind ≠ none := by
  cases x with
  | module m =>
    simp only [reduceCtorEq, false_and, or_false]
    rfl
  | edge s t k =>
    rw [after, mem_evidenceFor_addEdge, addEdge?_ne_none_iff, Addition.edge.injEq]
    refine or_congr_right ?_
    constructor
    · rintro ⟨hends, rfl, rfl, rfl⟩
      exact ⟨⟨rfl, rfl, rfl⟩, hends⟩
    · rintro ⟨⟨rfl, rfl, rfl⟩, hends⟩
      exact ⟨hends, rfl, rfl, rfl⟩

/-- **The evidence is what was accepted**, by induction on the additions from
the last one on. -/
theorem mem_evidenceFor_ofAdditions :
    kind ∈ (ofAdditions xs).evidenceFor a b ↔ Accepted xs a b kind := by
  induction xs using List.reverseRecOn with
  | nil => exact iff_of_false ExtTreeSet.not_mem_empty not_accepted_nil
  | append_singleton xs x ih =>
    rw [ofAdditions_append_singleton, mem_evidenceFor_after, ih, accepted_append_singleton]

theorem Evidenced.after (h : g.Evidenced) : (g.after x).Evidenced := by
  cases x with
  | module m => exact h
  | edge s t k => exact h.addEdge

theorem evidenced_ofAdditions : (ofAdditions xs).Evidenced := by
  induction xs using List.reverseRecOn with
  | nil => exact evidenced_of_evidence_eq_empty rfl
  | append_singleton xs x ih =>
    rw [ofAdditions_append_singleton]
    exact ih.after

/-! ## Edges after modules -/

/-- The addition of an edge that is given by its ends and its kind. -/
def edgeAddition (x : String × String × EdgeKind) : Addition := .edge x.1 x.2.1 x.2.2

/-- Graphs are the same if their modules and their edges are. -/
theorem ext_of_eq {g' : Graph} (hmodules : g.modules = g'.modules)
    (hevidence : g.evidence = g'.evidence) : g = g' := by
  cases g
  cases g'
  cases hmodules
  cases hevidence
  rfl

/-- **Edges can be added in any order and repeatedly**: only which ones are
added counts. -/
theorem ofAdditions_append_congr {edges edges' : List (String × String × EdgeKind)}
    (h : ∀ x, x ∈ edges ↔ x ∈ edges') :
    ofAdditions (xs ++ edges.map edgeAddition) = ofAdditions (xs ++ edges'.map edgeAddition) := by
  have hfold : ∀ edges : List (String × String × EdgeKind),
      ofAdditions (xs ++ edges.map edgeAddition)
        = edges.foldl (fun g x => g.addEdge x.1 x.2.1 x.2.2) (ofAdditions xs) := by
    intro edges
    rw [ofAdditions, List.foldl_append, List.foldl_map]
    rfl
  rw [hfold, hfold]
  have hevidenced : (ofAdditions xs).Evidenced := evidenced_ofAdditions
  refine ext_of_eq (by rw [modules_foldl_addEdge, modules_foldl_addEdge])
    (hevidenced.foldl_addEdge.evidence_eq hevidenced.foldl_addEdge fun a b kind => ?_)
  rw [mem_evidenceFor_foldl_addEdge, mem_evidenceFor_foldl_addEdge]
  simp only [h]

/-! ## What a graph holds -/

/-- **What is stored for two modules** after some additions. -/
structure IsStored (xs : List Addition) (a b : String) (e : Edge) : Prop where
  /-- The edge stands under its own ends. -/
  ends_eq : e.ends = (a, b)
  source_mem : a ∈ (ofAdditions xs).modules
  target_mem : b ∈ (ofAdditions xs).modules
  /-- The edge is no loop. -/
  ne : a ≠ b
  /-- There is evidence for it. -/
  nonempty : ∃ kind, kind ∈ e.evidence
  /-- The evidence is what was accepted for the two modules, and nothing else. -/
  mem_evidence_iff : ∀ kind, kind ∈ e.evidence ↔ Accepted xs a b kind
  /-- The edge shows as declared exactly if it was declared. -/
  kind_eq_iff : e.kind = .explicit ↔ .explicit ∈ e.evidence

theorem isStored_of_edge? (h : (ofAdditions xs).edge? a b = some e) : IsStored xs a b e := by
  obtain ⟨hedge, rfl⟩ := edge?_eq_some_iff.1 h
  exact ⟨rfl, hedge.source_mem, hedge.target_mem, hedge.ne, (evidenced_ofAdditions a b).1 hedge,
    fun _ => mem_evidenceFor_ofAdditions, kind_eq_explicit_iff⟩

/-- **A graph holds exactly what it has accepted**, after any additions of
modules and edges to the empty graph. Every edge is stored under its two ends,
which are different modules, with the kinds of the accepted additions as its
evidence, and it shows as declared if one of them was a declaration; there is an
edge as soon as one addition was accepted, and no other edge is listed. An
addition is refused exactly if its ends are not two different modules, and then
it changes nothing; an accepted one enters the edge or adds to the one that is
there, and leaves all others alone. And edges that are added to a graph can be
added in any order and repeatedly. -/
theorem ofAdditions_exactly (xs : List Addition) :
    let g := ofAdditions xs
    (∀ a b e, g.edge? a b = some e → IsStored xs a b e)
      ∧ (∀ a b, (∃ e, g.edge? a b = some e) ↔ ∃ kind, Accepted xs a b kind)
      ∧ (∀ e, e ∈ g.edges ↔ g.edge? e.source e.target = some e)
      ∧ (∀ s t k, g.addEdge? s t k ≠ none ↔ s ∈ g.modules ∧ t ∈ g.modules ∧ s ≠ t)
      ∧ (∀ s t k, g.addEdge? s t k = none → ofAdditions (xs ++ [.edge s t k]) = g)
      ∧ (∀ s t k, g.addEdge? s t k ≠ none →
        (ofAdditions (xs ++ [.edge s t k])).edge? s t
            = some (((g.edge? s t).getD (.entered s t k)).gain k)
          ∧ ∀ a b, (a, b) ≠ (s, t) →
            (ofAdditions (xs ++ [.edge s t k])).edge? a b = g.edge? a b)
      ∧ ∀ edges edges' : List (String × String × EdgeKind), (∀ x, x ∈ edges ↔ x ∈ edges') →
        ofAdditions (xs ++ edges.map edgeAddition)
          = ofAdditions (xs ++ edges'.map edgeAddition) := by
  intro g
  refine ⟨fun a b e => isStored_of_edge?, fun a b => ?_, fun e => mem_edges_iff,
    fun s t k => addEdge?_ne_none_iff, fun s t k hnone => ?_, fun s t k haccepted => ?_,
    fun edges edges' => ofAdditions_append_congr⟩
  · simp only [← mem_evidenceFor_ofAdditions, ← evidenced_ofAdditions a b, edge?_eq_some_iff,
      exists_and_left, exists_eq, and_true]
    rfl
  · rw [ofAdditions_append_singleton]
    exact addEdge_of_eq_none hnone
  · rw [ofAdditions_append_singleton]
    exact ⟨edge?_addEdge haccepted, fun a b => edge?_addEdge_of_ne⟩

/-- An edge that is refused at first, then inferred and at last declared. -/
example :
    let g := ofAdditions [.module (.new "a" ⟨"a"⟩), .edge "a" "b" .explicit,
      .module (.new "b" ⟨"b"⟩), .edge "a" "b" .inferred]
    (g.edge? "a" "b").map Edge.kind = some .inferred
      ∧ ((g.addEdge "a" "b" .explicit).edge? "a" "b").map Edge.kind = some .explicit := by
  decide

end Graph

end StackGraph
