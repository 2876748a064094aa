import Mathlib.Data.List.Rotate
import StackGraph.Proofs.Graph.CycleEdges
/-!
# A cycle and its turnings

A cycle can be entered at each of its modules, so as many lists describe it as
it has modules, and each of them is a rotation of each other one.
`Cycle.ofMembers` makes the same cycle of all of them and different cycles of
all others (`Cycle.ofMembers_inj_iff`), which is why cycles can be compared as
they are written.

What makes this work is that a list with different members has one least member
and thus one rotation that starts with it. That there is such a rotation, and
that it is what is written, is about the loop that looks for the least name
(`Cycle.exists_ofMembers_eq`). That there is no second one needs no loop and no
positions: if two rotations of each other were cut at different places, each
would have the first name of the other one among its later names, and each of
the two names would be the smaller one (`Cycle.eq_of_isRotated`).

The edges are read off the written form, but they are those of the list that it
was made of: going round turns with the list (`Cycle.isRotated_zip_rotate`).
-/

namespace StackGraph.Cycle

variable {l l' : List String} {first first' u v : String} {rest rest' : List String}

/-! ## The rotation that is written -/

/-- **A cycle is written from its least module on.** -/
theorem exists_ofMembers_eq (hne : l ≠ []) (hl : l.Nodup) :
    ∃ first rest, ofMembers l = ⟨first :: rest ++ [first]⟩
      ∧ l.IsRotated (first :: rest) ∧ ∀ a ∈ rest, first < a := by
  obtain ⟨before, least, after, rfl, hlt⟩ := exists_least hne hl
  obtain ⟨hafter, hbefore⟩ := List.forall_mem_append.1 hlt
  exact ⟨least, after ++ before, ofMembers_append hbefore hafter, List.isRotated_append, hlt⟩

/-- **Only one rotation starts with its least member.** -/
theorem eq_of_isRotated (h : (first :: rest).IsRotated (first' :: rest'))
    (hrest : ∀ a ∈ rest, first < a) (hrest' : ∀ a ∈ rest', first' < a) :
    first :: rest = first' :: rest' := by
  obtain ⟨n, hn, hrotate⟩ := List.isRotated_iff_mod.1 h
  rw [List.rotate_eq_drop_append_take hn] at hrotate
  have hsplit := List.take_append_drop n (first :: rest)
  generalize (first :: rest).take n = xs at hrotate hsplit
  generalize (first :: rest).drop n = ys at hrotate hsplit
  -- the first list is `xs ++ ys` and the second one is `ys ++ xs`
  cases xs with
  | nil => rw [← hsplit, ← hrotate, List.nil_append, List.append_nil]
  | cons x xs =>
    cases ys with
    | nil => rw [← hsplit, ← hrotate, List.nil_append, List.append_nil]
    | cons y ys =>
      obtain ⟨rfl, rfl⟩ := List.cons.inj hsplit
      obtain ⟨rfl, rfl⟩ := List.cons.inj hrotate
      have hlt : x < y := hrest y (by simp)
      have hgt : y < x := hrest' x (by simp)
      exact absurd hgt (String.lt_asymm hlt)

/-- **Two lists make the same cycle** exactly if one is a rotation of the other. -/
theorem ofMembers_inj_iff (hne : l ≠ []) (hl : l.Nodup) (hne' : l' ≠ []) (hl' : l'.Nodup) :
    ofMembers l = ofMembers l' ↔ l.IsRotated l' := by
  obtain ⟨first, rest, hwalk, hturned, hrest⟩ := exists_ofMembers_eq hne hl
  obtain ⟨first', rest', hwalk', hturned', hrest'⟩ := exists_ofMembers_eq hne' hl'
  constructor
  · intro h
    rw [hwalk, hwalk', Cycle.mk.injEq] at h
    have hsame : first :: rest = first' :: rest' := by
      simpa only [List.dropLast_concat] using congrArg List.dropLast h
    rw [← hsame] at hturned'
    exact hturned.trans hturned'.symm
  · intro h
    have hsame := eq_of_isRotated ((hturned.symm.trans h).trans hturned') hrest hrest'
    obtain ⟨rfl, rfl⟩ := List.cons.inj hsame
    rw [hwalk, hwalk']

/-! ## Going round a list -/

/-- **One name follows another one** on the way round a list, which goes on from
its last member to its first. -/
def Follows (l : List String) (u v : String) : Prop :=
  ∃ i < l.length, l[i]? = some u ∧ l[(i + 1) % l.length]? = some v

/-- Going round a list pairs it with the list that is turned by one. -/
theorem mem_zip_rotate_iff : (u, v) ∈ l.zip (l.rotate 1) ↔ Follows l u v := by
  rw [List.mem_iff_getElem?]
  refine exists_congr fun i => ?_
  rw [List.getElem?_zip_eq_some]
  constructor
  · rintro ⟨hu, hv⟩
    obtain ⟨hi, -⟩ := List.getElem?_eq_some_iff.1 hu
    exact ⟨hi, hu, (List.getElem?_rotate hi).symm.trans hv⟩
  · rintro ⟨hi, hu, hv⟩
    exact ⟨hu, (List.getElem?_rotate hi).trans hv⟩

/-- **Going round turns with the list.** -/
theorem isRotated_zip_rotate (h : l.IsRotated l') :
    (l.zip (l.rotate 1)).IsRotated (l'.zip (l'.rotate 1)) := by
  obtain ⟨n, rfl⟩ := h
  refine ⟨n, ?_⟩
  unfold List.zip
  rw [List.zipWith_rotate_distrib _ _ _ _ (List.length_rotate _ _).symm, List.rotate_rotate,
    List.rotate_rotate, Nat.add_comm]

theorem follows_iff_of_isRotated (h : l.IsRotated l') : Follows l' u v ↔ Follows l u v := by
  rw [← mem_zip_rotate_iff, ← mem_zip_rotate_iff, (isRotated_zip_rotate h).mem_iff]

/-! ## The edges of a closed walk -/

theorem members_closed : (⟨first :: rest ++ [first]⟩ : Cycle).members = first :: rest :=
  List.dropLast_concat

/-- The edges of a cycle are the way round its members. -/
theorem edges_eq_zip_rotate :
    (⟨first :: rest ++ [first]⟩ : Cycle).edges
      = (first :: rest).zip ((first :: rest).rotate 1) := by
  rw [List.rotate_cons_succ, List.rotate_zero]
  calc (first :: rest ++ [first]).zip (rest ++ [first])
      = (first :: rest ++ [first]).zip (rest ++ [first] ++ []) := by rw [List.append_nil]
    _ = (first :: rest).zip (rest ++ [first]) ++ [first].zip [] := List.zip_append (by simp)
    _ = (first :: rest).zip (rest ++ [first]) := by rw [List.zip_nil_right, List.append_nil]

theorem mem_edges_iff_follows (hturned : l.IsRotated (first :: rest)) :
    (u, v) ∈ (⟨first :: rest ++ [first]⟩ : Cycle).edges ↔ Follows l u v := by
  rw [edges_eq_zip_rotate, mem_zip_rotate_iff, follows_iff_of_isRotated hturned]

/-- An edge returns to the first member, after all others. -/
theorem exists_closingEdge?_eq :
    ∃ last, (⟨first :: rest ++ [first]⟩ : Cycle).closingEdge? = some (last, first) := by
  have htargets : (⟨first :: rest ++ [first]⟩ : Cycle).edges.map Prod.snd = rest ++ [first] := by
    rw [edges_eq_zip_rotate, List.map_snd_zip (List.length_rotate _ _).le, List.rotate_cons_succ,
      List.rotate_zero]
  have hlast := congrArg List.getLast? htargets
  rw [List.getLast?_map, List.getLast?_concat] at hlast
  obtain ⟨⟨last, first⟩, hedge, rfl⟩ := Option.map_eq_some_iff.1 hlast
  exact ⟨last, hedge⟩

/-- **A cycle goes round some names**: it is a rotation of their list that starts
with the least of them, its edges are the pairs of which one name follows the
other on the way round, each of them once, and the one that closes it returns to
the least name. -/
structure GoesRound (c : Cycle) (l : List String) (least : String) : Prop where
  least_mem : least ∈ l
  least_le : ∀ a ∈ l, least ≤ a
  members_rotated : l.IsRotated c.members
  head_members : c.members.head? = some least
  edges_nodup : c.edges.Nodup
  mem_edges_iff : ∀ u v, (u, v) ∈ c.edges ↔ Follows l u v
  closed : ∃ last, c.closingEdge? = some (last, least) ∧ Follows l last least

/-- A closed walk goes round its members from the least one on. -/
theorem goesRound_of_isRotated (hl : l.Nodup) (hturned : l.IsRotated (first :: rest))
    (hrest : ∀ a ∈ rest, first < a) : GoesRound ⟨first :: rest ++ [first]⟩ l first where
  least_mem := hturned.mem_iff.2 List.mem_cons_self
  least_le a ha := by
    rcases List.mem_cons.1 (hturned.mem_iff.1 ha) with rfl | ha
    · exact le_rfl
    · exact (hrest a ha).le
  members_rotated := by rwa [members_closed]
  head_members := by rw [members_closed, List.head?_cons]
  edges_nodup := by
    -- the edges differ in where they start
    refine List.Nodup.of_map Prod.fst ?_
    rw [edges_eq_zip_rotate, List.map_fst_zip (List.length_rotate _ _).ge]
    exact hturned.nodup_iff.1 hl
  mem_edges_iff _ _ := mem_edges_iff_follows hturned
  closed := by
    obtain ⟨last, hlast⟩ := @exists_closingEdge?_eq first rest
    exact ⟨last, hlast, (mem_edges_iff_follows hturned).1 (List.mem_of_getLast? hlast)⟩

/-- **A cycle is what the rotations of a list have in common.** Two lists of
different names make the same cycle exactly if one is a rotation of the other,
and the cycle goes round them from the least name on. -/
theorem ofMembers_eq_iff_isRotated (hne : l ≠ []) (hl : l.Nodup) (hne' : l' ≠ [])
    (hl' : l'.Nodup) :
    (ofMembers l = ofMembers l' ↔ l.IsRotated l')
      ∧ ∃ least, (ofMembers l).GoesRound l least := by
  refine ⟨ofMembers_inj_iff hne hl hne' hl', ?_⟩
  obtain ⟨first, rest, hwalk, hturned, hrest⟩ := exists_ofMembers_eq hne hl
  exact ⟨first, hwalk ▸ goesRound_of_isRotated hl hturned hrest⟩

/-- Three modules, entered at the last and at the second one. -/
theorem ofMembers_eq_iff_isRotated_three :
    ["c", "a", "b"].Nodup ∧ ["b", "c", "a"].Nodup
      ∧ ofMembers ["c", "a", "b"] = ofMembers ["b", "c", "a"]
      ∧ ∃ least, (ofMembers ["c", "a", "b"]).GoesRound ["c", "a", "b"] least := by
  have hl : ["c", "a", "b"].Nodup := by decide
  have hl' : ["b", "c", "a"].Nodup := by decide
  obtain ⟨hsame, hround⟩ :=
    ofMembers_eq_iff_isRotated (List.cons_ne_nil _ _) hl (List.cons_ne_nil _ _) hl'
  exact ⟨hl, hl', hsame.2 ⟨2, rfl⟩, hround⟩

end StackGraph.Cycle
