import StackGraph.Proofs.Build.Merging
/-!
# Absorbing in another order

The fragments of a directory are absorbed one after the other, in the order of
their files. How much does this order matter? Sets are united, of two sources
of one nested module the smaller stays, and a module is a stub if all its
fragments are: none of this depends on the order. Two things do. Declarations
are kept as a list, and for the source of the unit the empty text stands for
no source at all, so it may count as the smallest one or as none. Both come
from orchestration files only, and where no more than one fragment declares
anything, all fragments can be absorbed in any order
(`Module.foldl_absorb_perm`).
-/

namespace StackGraph

open Std

/-- Whether a fragment gives a source of the unit or declares a dependency. -/
def Fragment.declares (f : Fragment) : Bool := f.source.isSome || !f.declared.isEmpty

theorem Fragment.eq_nothing_of_not_declares {f : Fragment} (h : f.declares = false) :
    f.source = none ∧ f.declared = [] := by
  simpa [Fragment.declares] using h

theorem union_right_comm {s t u : NameSet} : s ∪ t ∪ u = s ∪ u ∪ t := by
  ext a
  simp only [ExtTreeSet.mem_union_iff]
  exact or_right_comm

namespace Module

variable {m : Module} {f f' : Fragment} {fs fs' : List Fragment}

/-! ## Two fragments in either order -/

theorem invocations_absorb_right_comm :
    ((m.absorb f).absorb f').invocations = ((m.absorb f').absorb f).invocations := by
  refine ExtTreeMap.ext_getElem? fun name => ?_
  simp only [getElem?_invocations_absorb, min?_toList_append]
  refine min?_congr fun s => ?_
  simp only [List.mem_append]
  exact or_right_comm

theorem kinds_absorb_right_comm :
    ((m.absorb f).absorb f').kinds = ((m.absorb f').absorb f).kinds := by
  have hmem : ∀ {n : Module} {e : Fragment} {k : FileKind},
      k ∈ (n.absorb e).kinds ↔ k ∈ n.kinds ∨ e.kind = some k := by
    intro n e k
    unfold absorb
    cases e.kind with
    | none => simp
    | some kind => simp [or_comm]
  ext k
  simp only [hmem]
  exact or_right_comm

/-- **Two fragments can be absorbed in either order** if one of them declares
nothing. -/
theorem absorb_right_comm (h : f.declares = false ∨ f'.declares = false) :
    (m.absorb f).absorb f' = (m.absorb f').absorb f := by
  have hsource : mergeSource (mergeSource m.source f.source) f'.source
      = mergeSource (mergeSource m.source f'.source) f.source := by
    rcases h with h | h
    · rw [(Fragment.eq_nothing_of_not_declares h).1]
      rfl
    · rw [(Fragment.eq_nothing_of_not_declares h).1]
      rfl
  have hdeclarations : m.declarations ++ f.declared ++ f'.declared
      = m.declarations ++ f'.declared ++ f.declared := by
    rcases h with h | h
    · rw [(Fragment.eq_nothing_of_not_declares h).2, List.append_nil, List.append_nil]
    · rw [(Fragment.eq_nothing_of_not_declares h).2, List.append_nil, List.append_nil]
  have hreferences : (m.references.insertMany f.references).insertMany f'.references
      = (m.references.insertMany f'.references).insertMany f.references := by
    ext r
    simp only [mem_setInsertMany]
    exact or_right_comm
  have hfiles : (m.files.insert f.file).insert f'.file
      = (m.files.insert f'.file).insert f.file := by
    ext file
    simp only [ExtTreeSet.mem_insert]
    exact or_left_comm
  rw [absorb, absorb, absorb, absorb, Module.mk.injEq]
  exact ⟨rfl, rfl, hsource, rfl, rfl, union_right_comm, union_right_comm, union_right_comm,
    union_right_comm, union_right_comm, invocations_absorb_right_comm, hfiles,
    kinds_absorb_right_comm, Bool.and_right_comm _ _ _, rfl, hdeclarations, hreferences⟩

/-- **Fragments can be absorbed in any order** if no more than one of them
declares anything. -/
theorem foldl_absorb_perm (hperm : fs.Perm fs')
    (hone : (fs.filter Fragment.declares).length ≤ 1) : fs.foldl absorb m = fs'.foldl absorb m := by
  refine hperm.foldl_eq' (fun f hf f' hf' m => ?_) m
  by_cases hboth : f.declares = true ∧ f'.declares = true
  · -- then the two are the one fragment that declares something
    have hmem : ∀ {e}, e ∈ fs → e.declares = true → e ∈ fs.filter Fragment.declares :=
      fun he hd => List.mem_filter.2 ⟨he, hd⟩
    match hfilter : fs.filter Fragment.declares with
    | [] => exact absurd (hfilter ▸ hmem hf hboth.1) List.not_mem_nil
    | [only] =>
      obtain rfl := List.mem_singleton.1 (hfilter ▸ hmem hf hboth.1)
      obtain rfl := List.mem_singleton.1 (hfilter ▸ hmem hf' hboth.2)
      rfl
    | _ :: _ :: _ =>
      rw [hfilter] at hone
      exact absurd hone (by simp)
  · refine absorb_right_comm ?_
    simpa [imp_iff_not_or] using hboth

end Module

end StackGraph
