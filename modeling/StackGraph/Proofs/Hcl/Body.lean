import Mathlib.Data.List.Nodup
import StackGraph.Hcl.Reader
/-!
# No attribute is repeated

A body is turned into a map from names to values, and of two attributes with
one name only the last would be left in it. That this loses nothing is due to
the reader: it refuses an attribute whose name stands before in the same body.
So the names of the attributes are distinct in every body that is read, in
that of the file and in that of every block, however deep
(`Body.distinct_of_read?`).

The statement goes along the reader rather than along the text. What a reader
can give is described by `Reader.Yields`, with one lemma for each way in which
readers are put together.
-/

namespace StackGraph.Hcl

namespace Reader

variable {α β : Type} {P : β → Prop} {Q : α → Prop}

/-! ## What a reader can give -/

/-- **Whatever a reader gives, on any text, satisfies a property.** -/
def Yields (r : Reader β) (P : β → Prop) : Prop := ∀ s b s', r s = .ok (b, s') → P b

theorem Yields.of_toOption {r : Reader β} (h : r.Yields P) {s s' : List Char} {b : β}
    (hok : (r s).toOption = some (b, s')) : P b := by
  cases hs : r s with
  | error _ => rw [hs] at hok; cases hok
  | ok p =>
    rw [hs] at hok
    cases hok
    exact h s b s' hs

theorem yields_mismatch : (mismatch : Reader β).Yields P := by
  rintro s b s' ⟨⟩

theorem yields_pure {b : β} (h : P b) : (pure b : Reader β).Yields P := by
  rintro s _ s' ⟨⟩
  exact h

/-- A sequence yields what its second part yields, given what the first part
yields. -/
theorem Yields.bind {x : Reader α} {f : α → Reader β} (hx : x.Yields Q)
    (hf : ∀ a, Q a → (f a).Yields P) : (x >>= f).Yields P := by
  intro s b s' h
  have hbind : (x >>= f) s = Except.bind (x s) fun p => f p.1 p.2 := rfl
  rw [hbind] at h
  cases hs : x s with
  | error _ => rw [hs] at h; cases h
  | ok p =>
    rw [hs] at h
    exact hf p.1 (hx s p.1 p.2 hs) p.2 b s' h

/-- Where nothing is needed of the first part, nothing is said about it. -/
theorem yields_bind {x : Reader α} {f : α → Reader β} (hf : ∀ a, (f a).Yields P) :
    (x >>= f).Yields P :=
  Yields.bind (fun _ _ _ _ => trivial) fun a _ => hf a

theorem Yields.orElse {r other : Reader β} (hr : r.Yields P) (ho : other.Yields P) :
    (orElse r other).Yields P := by
  have hattempt : (attempt r).Yields fun o => ∀ b, o = some b → P b := by
    intro s o s' h
    unfold attempt at h
    split at h
    · rename_i b _ hok
      cases h
      rintro _ ⟨⟩
      exact hr s b s' hok
    · cases h
      rintro _ ⟨⟩
    · cases h
  refine hattempt.bind fun o h => ?_
  cases o with
  | none => exact ho
  | some b => exact yields_pure (h b rfl)

end Reader

/-! ## Distinct names -/

open Reader

/-- **The names of the attributes are distinct**, in a body and in those of its
blocks. -/
inductive Body.Distinct : Body → Prop
  | intro {items : Body} (nodup : (attributeNames items).Nodup)
      (inner : ∀ identifier labels body, .block (.mk identifier labels body) ∈ items →
        Body.Distinct body) : Body.Distinct items

namespace Body.Distinct

variable {items inner : Body} {name identifier : String} {labels : List String} {value : Expr}

theorem nodup (h : Distinct items) : (attributeNames items).Nodup := by
  cases h with
  | intro nodup _ => exact nodup

theorem body (h : Distinct items) (hmem : .block (.mk identifier labels inner) ∈ items) :
    Distinct inner := by
  cases h with
  | intro _ hinner => exact hinner identifier labels inner hmem

theorem nil : Distinct [] := .intro .nil (by simp)

/-- A new attribute may be put before. -/
theorem cons_attribute (h : Distinct items) (hnew : name ∉ attributeNames items) :
    Distinct (.attribute name value :: items) := by
  refine .intro (List.nodup_cons.2 ⟨hnew, h.nodup⟩) fun identifier labels inner hmem => ?_
  rcases List.mem_cons.1 hmem with heq | hmem
  · cases heq
  · exact h.body hmem

/-- A block with distinct names may be put before. -/
theorem cons_block (h : Distinct items) (hinner : Distinct inner) :
    Distinct (.block (.mk identifier labels inner) :: items) := by
  refine .intro h.nodup fun identifier labels inner' hmem => ?_
  rcases List.mem_cons.1 hmem with heq | hmem
  · cases heq
    exact hinner
  · exact h.body hmem

/-- The order does not matter. -/
theorem reverse (h : Distinct items) : Distinct items.reverse := by
  refine .intro ?_ fun identifier labels inner hmem => h.body (List.mem_reverse.1 hmem)
  rw [attributeNames, List.filterMap_reverse, List.nodup_reverse]
  exact h.nodup

end Body.Distinct

namespace Reader

open Body.Distinct

/-- A body on one line has at most one attribute. -/
theorem lineBody_yields_distinct (n : Nat) : (lineBody n).Yields Body.Distinct := by
  unfold lineBody
  refine yields_bind fun _ => yields_bind fun hasName => ?_
  split
  · refine yields_bind fun key => yields_bind fun _ => yields_bind fun value => yields_bind fun _ =>
      yields_bind fun _ => yields_pure ?_
    exact nil.cons_attribute List.not_mem_nil
  · exact yields_bind fun _ => yields_pure nil

/-- **The readers of bodies yield distinct names**, by induction on the depth
that both go down on. The one for items does so if the items before are
distinct, which the test for a repeated name preserves. -/
theorem body_yields_distinct (n : Nat) :
    (∀ done, Body.Distinct done → (body n done).Yields Body.Distinct)
      ∧ (blockBody n).Yields Body.Distinct := by
  induction n with
  | zero =>
    constructor
    · intro done _
      rw [body]
      exact yields_mismatch
    · rw [blockBody]
      exact yields_mismatch
  | succ n ih =>
    obtain ⟨hbody, hblock⟩ := ih
    constructor
    · intro done hdone
      rw [body]
      refine yields_bind fun _ => yields_bind fun hasName => ?_
      split
      · refine yields_bind fun key => yields_bind fun _ => yields_bind fun isAttribute => ?_
        split
        · -- an attribute, which is refused if its name was there before
          show Yields (ite _ _ _) _
          split
          · exact yields_mismatch.bind (Q := fun _ => False) fun _ h => h.elim
          · rename_i hnew
            refine yields_bind fun value => yields_bind fun _ => hbody _ (hdone.cons_attribute ?_)
            simpa using hnew
        · refine yields_bind fun labels => yields_bind fun _ => hblock.bind fun inner hinner =>
            yields_bind fun _ => hbody _ (hdone.cons_block hinner)
      · exact yields_pure hdone.reverse
    · rw [blockBody]
      refine (lineBody_yields_distinct n).orElse ?_
      refine yields_bind fun _ => yields_bind fun _ => yields_bind fun _ =>
        (hbody [] nil).bind fun inner hinner => yields_bind fun _ => yields_pure hinner

end Reader

/-- **In a text that is read no attribute is repeated.** -/
theorem Body.distinct_of_read? {text : String} {body : Body} (h : Body.read? text = some body) :
    Body.Distinct body := by
  unfold read? at h
  obtain ⟨⟨items, s'⟩, hok, rfl⟩ := Option.map_eq_some_iff.1 h
  refine Yields.of_toOption ?_ hok
  refine ((body_yields_distinct _).1 [] Distinct.nil).bind fun items hitems => ?_
  refine yields_bind fun ended => ?_
  split
  · exact yields_pure hitems
  · exact yields_mismatch

end StackGraph.Hcl
