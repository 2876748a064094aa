import Mathlib.Data.List.Infix
import StackGraph.Proofs.Runs
/-!
# Where the text of a script element ends

The text of a script element is no markup, but a browser has to find its end. It
looks for the end tag of a script, though not everywhere: a `<!--` *escapes* what
follows, up to the next `-->`, and a tag that opens a script in escaped text
escapes it *twice*. What looks like an end tag there ends the inner script only,
and the element goes on.

`ScriptState.step` reads one character. Whether a text in which no `</` stands is
left escaped twice can be told from the text alone: it is if it has a `<!--` that
no `-->` ends, and behind it a tag that opens a script (`LeavesOpen`). An end tag
ends all other texts (`scriptText?_endTag`), and behind these it is swallowed
(`scriptText?_endTag_of_leavesOpen`).

The proof looks forward. What has been read without a decision is still pending,
so a state stands for a way to read and for the text that is pending, and
`Swallows` says for each way to read which texts leave it escaped twice. Reading
a character moves it from the text to what is pending, and changes nothing
(`ScriptState.swallows_step`), so the end of a text is known at its start
(`ScriptState.isOpen_run_and_escape_iff`).
-/

namespace StackGraph.Html

/-! ## Reading script data -/

/-- How often text is escaped. -/
inductive Escape where
  | once
  | twice
deriving DecidableEq, Repr

/-- What has been read of a script element. -/
inductive ScriptState where
  /-- Text, escaped or not. -/
  | text (e : Option Escape)
  /-- A `<`. -/
  | lessThan (e : Option Escape)
  /-- A `<!` in text that is not escaped. -/
  | escapeStart
  /-- A `<!-` in text that is not escaped. -/
  | escapeStartDash
  /-- A single dash in escaped text. -/
  | dash (e : Escape)
  /-- Two dashes or more in escaped text. -/
  | dashDash (e : Escape)
  /-- A `<` and a name in text that is escaped once. -/
  | openingName (name : List Char)
  /-- A `</` and a name. -/
  | endTagName (e : Option Escape) (name : List Char)
  /-- The name of the end tag. -/
  | closed
deriving DecidableEq, Repr

/-- The characters that end the name of a tag. -/
def isTagEnd (c : Char) : Bool := ['\t', '\n', '\x0c', ' ', '/', '>'].contains c

/-- Whether a name is that of a script element, in capital letters or not. -/
def isScriptName (name : List Char) : Bool := name.map Char.toLower == "script".toList

namespace ScriptState

/-- A character of text. -/
def inText : Option Escape → Char → ScriptState
  | e, '<' => lessThan e
  | some e, '-' => dash e
  | e, _ => text e

/-- **The next character of a script element.** -/
def step : ScriptState → Char → ScriptState
  | text e, c => inText e c
  | lessThan e, c =>
    if c = '/' then endTagName e []
    else if c = '!' ∧ e = none then escapeStart
    else if c.isAlpha ∧ e = some .once then openingName [c]
    else inText e c
  | escapeStart, c => if c = '-' then escapeStartDash else inText none c
  | escapeStartDash, c => if c = '-' then dashDash .once else inText none c
  | dash e, c => if c = '-' then dashDash e else inText (some e) c
  | dashDash e, c =>
    if c = '-' then dashDash e else if c = '>' then text none else inText (some e) c
  | openingName name, c =>
    if isTagEnd c then text (some (if isScriptName name then .twice else .once))
    else if c.isAlpha then openingName (name ++ [c])
    else inText (some .once) c
  | endTagName e name, c =>
    if isTagEnd c ∧ isScriptName name then
      -- in text that is escaped twice only the inner script ends
      if e = some .twice then text (some .once) else closed
    else if c.isAlpha then endTagName e (name ++ [c])
    else inText e c
  | closed, _ => closed

/-- A script element of which more is read. -/
def run (s : ScriptState) (t : List Char) : ScriptState := t.foldl step s

/-- How many characters there are up to the end of the name of the end tag, the
character behind it included. -/
def closesAfter? : ScriptState → List Char → Option ℕ
  | _, [] => none
  | s, c :: t => if step s c = closed then some 1 else (closesAfter? (step s c) t).map (· + 1)

end ScriptState

/-- The end tag of a script. -/
def endTag : List Char := "</script>".toList

/-- **The text of a script element**, given what follows its start tag: all that
stands before its end tag, which is as long as `endTag` with the character that
ends its name. -/
def scriptText? (t : List Char) : Option (List Char) :=
  (ScriptState.closesAfter? (.text none) t).map fun n => t.take (n - endTag.length)

/-! ## Texts that swallow an end tag -/

/-- How escaped text begins: as a comment does. -/
def commentStart : List Char := ['<', '!', '-', '-']

/-- How escaped text ends. -/
def commentEnd : List Char := ['-', '-', '>']

/-- A tag that opens a script at the start of a text. -/
def BeginsTag (t : List Char) : Prop :=
  ∃ name c rest, t = '<' :: (name ++ c :: rest) ∧ isScriptName name ∧ isTagEnd c

/-- A tag that opens a script anywhere in a text. -/
def HasTag (t : List Char) : Prop := ∃ u, u <:+ t ∧ BeginsTag u

/-- **A text that leaves its element open**: it has a `<!--` that no `-->` ends,
be it with the same dashes, and a tag that opens a script behind it. -/
def LeavesOpen (t : List Char) : Prop :=
  ∃ tail, commentStart ++ tail <:+ t ∧ ¬ commentEnd <:+: '-' :: '-' :: tail ∧ HasTag tail

/-- **A text behind which an end tag is swallowed**, depending on how it is
escaped from the start. -/
def Swallows : Option Escape → List Char → Prop
  | none, t => LeavesOpen t
  | some .once, t => (¬ commentEnd <:+: t ∧ HasTag t) ∨ LeavesOpen t
  | some .twice, t => ¬ commentEnd <:+: t ∨ LeavesOpen t

variable {c : Char} {t : List Char} {e : Option Escape}

theorem HasTag.cons (h : HasTag t) : HasTag (c :: t) := by
  obtain ⟨u, hu, htag⟩ := h
  exact ⟨u, hu.trans (List.suffix_cons c t), htag⟩

theorem hasTag_cons (h : ¬ BeginsTag (c :: t)) : HasTag (c :: t) ↔ HasTag t := by
  refine ⟨?_, HasTag.cons⟩
  rintro ⟨u, hu, htag⟩
  rcases List.suffix_cons_iff.1 hu with rfl | hu
  · exact absurd htag h
  · exact ⟨u, hu, htag⟩

theorem LeavesOpen.cons (h : LeavesOpen t) : LeavesOpen (c :: t) := by
  obtain ⟨tail, htail, hrest⟩ := h
  exact ⟨tail, htail.trans (List.suffix_cons c t), hrest⟩

/-- A text is left open by its first character, or by what follows. -/
theorem leavesOpen_cons :
    LeavesOpen (c :: t)
      ↔ (∃ tail, c :: t = commentStart ++ tail ∧ ¬ commentEnd <:+: '-' :: '-' :: tail ∧ HasTag tail)
        ∨ LeavesOpen t := by
  constructor
  · rintro ⟨tail, htail, hrest⟩
    rcases List.suffix_cons_iff.1 htail with heq | htail
    · exact .inl ⟨tail, heq.symm, hrest⟩
    · exact .inr ⟨tail, htail, hrest⟩
  · rintro (⟨tail, heq, hrest⟩ | h)
    · exact ⟨tail, heq ▸ List.suffix_refl _, hrest⟩
    · exact h.cons

theorem commentEnd_infix_cons (h : ¬ commentEnd <+: c :: t) :
    commentEnd <:+: c :: t ↔ commentEnd <:+: t := by
  rw [List.infix_cons_iff, or_iff_right h]

/-- **A character that begins nothing** does not matter. -/
theorem swallows_cons (hstart : e = none → ¬ commentStart <+: c :: t)
    (hend : e ≠ none → ¬ commentEnd <+: c :: t) (htag : e = some .once → ¬ BeginsTag (c :: t)) :
    Swallows e (c :: t) ↔ Swallows e t := by
  -- escaped text may begin anew, which matters only once it has ended
  have hnew : LeavesOpen (c :: t) → LeavesOpen t ∨ (¬ commentEnd <:+: t ∧ HasTag t) := by
    intro h
    rcases leavesOpen_cons.1 h with ⟨tail, heq, hend, hhas⟩ | h
    · obtain ⟨rfl, rfl⟩ := List.cons.inj heq
      refine .inr ⟨?_, hhas.cons.cons.cons⟩
      show ¬ commentEnd <:+: '!' :: '-' :: '-' :: tail
      rwa [commentEnd_infix_cons (by simp [commentEnd])]
    · exact .inl h
  match e with
  | none =>
    refine ⟨fun h => ?_, LeavesOpen.cons⟩
    rcases leavesOpen_cons.1 h with ⟨tail, heq, -⟩ | h
    · exact absurd ⟨tail, heq.symm⟩ (hstart rfl)
    · exact h
  | some .once =>
    show (_ ∧ _) ∨ _ ↔ (_ ∧ _) ∨ _
    rw [commentEnd_infix_cons (hend nofun), hasTag_cons (htag rfl)]
    exact ⟨fun h => h.elim .inl fun h => (hnew h).symm, fun h => h.imp_right LeavesOpen.cons⟩
  | some .twice =>
    show _ ∨ _ ↔ _ ∨ _
    rw [commentEnd_infix_cons (hend nofun)]
    exact ⟨fun h => h.elim .inl fun h => (hnew h).symm.imp_left And.left,
      fun h => h.imp_right LeavesOpen.cons⟩

/-- Only a `<` or a dash begins anything. -/
theorem swallows_cons_of_ne (hlt : c ≠ '<') (hdash : c ≠ '-') :
    Swallows e (c :: t) ↔ Swallows e t := by
  refine swallows_cons (fun _ h => ?_) (fun _ h => ?_) fun _ h => ?_
  · exact hlt (List.cons_prefix_cons.1 h).1.symm
  · exact hdash (List.cons_prefix_cons.1 h).1.symm
  · obtain ⟨name, d, rest, heq, -⟩ := h
    exact hlt (List.cons.inj heq).1

/-- A dash begins the end of escaped text, or nothing. -/
theorem swallows_dash (h : e ≠ none → ¬ ['-', '>'] <+: t) :
    Swallows e ('-' :: t) ↔ Swallows e t :=
  swallows_cons (by simp [commentStart]) (fun he hend => h he (List.cons_prefix_cons.1 hend).2)
    (by simp [BeginsTag])

/-- A `<` begins escaped text, or a tag in it, or nothing. -/
theorem swallows_lessThan (hstart : e = none → ¬ ['!', '-', '-'] <+: t)
    (htag : e = some .once → ¬ BeginsTag ('<' :: t)) : Swallows e ('<' :: t) ↔ Swallows e t :=
  swallows_cons (fun he hbegin => hstart he (List.cons_prefix_cons.1 hbegin).2)
    (by simp [commentEnd]) htag

/-- **Behind a `<!--`** text is escaped, and the two dashes may be those that end
it. -/
theorem swallows_commentStart :
    Swallows (some .once) ('-' :: '-' :: t) ↔ Swallows none ('<' :: '!' :: '-' :: '-' :: t) := by
  have hstart : (∃ tail, '<' :: '!' :: '-' :: '-' :: t = commentStart ++ tail
      ∧ ¬ commentEnd <:+: '-' :: '-' :: tail ∧ HasTag tail)
        ↔ ¬ commentEnd <:+: '-' :: '-' :: t ∧ HasTag t := by
    simp [commentStart]
  have hbehind : LeavesOpen ('!' :: '-' :: '-' :: t) ↔ LeavesOpen ('-' :: '-' :: t) :=
    @swallows_cons_of_ne '!' _ none (by decide) (by decide)
  have hswallows : Swallows none ('<' :: '!' :: '-' :: '-' :: t)
      ↔ (¬ commentEnd <:+: '-' :: '-' :: t ∧ HasTag t) ∨ LeavesOpen ('-' :: '-' :: t) := by
    rw [← hstart, ← hbehind]
    exact leavesOpen_cons
  rw [hswallows, Swallows, hasTag_cons (by simp [BeginsTag]), hasTag_cons (by simp [BeginsTag])]

/-- **Behind a `-->`** text is not escaped any more. -/
theorem swallows_commentEnd {e : Escape} :
    Swallows none t ↔ Swallows (some e) ('-' :: '-' :: '>' :: t) := by
  have hend : commentEnd <:+: '-' :: '-' :: '>' :: t := ⟨[], t, rfl⟩
  have hbehind : LeavesOpen ('-' :: '-' :: '>' :: t) ↔ LeavesOpen t :=
    (@swallows_dash _ none nofun).trans
      ((@swallows_dash _ none nofun).trans (swallows_cons_of_ne (by decide) (by decide)))
  cases e with
  | once => simp [Swallows, hend, hbehind]
  | twice => simp [Swallows, hend, hbehind]

/-- **Behind a tag that opens a script** escaped text is escaped twice. -/
theorem swallows_once_iff (h : HasTag t) : Swallows (some .once) t ↔ Swallows (some .twice) t := by
  simp only [Swallows, h, and_true]

/-- **A text in which no tag ends** swallows an end tag only if it is escaped
twice from the start. -/
theorem swallows_iff_of_forall (h : ∀ c ∈ t, isTagEnd c = false) :
    Swallows e t ↔ e = some .twice := by
  have hnotag : ∀ {u}, u <:+ t → ¬ HasTag u := by
    rintro u hu ⟨_, hv, name, c, rest, rfl, -, hend⟩
    have hc : c ∈ t := (hv.trans hu).subset (by simp)
    exact ne_true_of_eq_false (h c hc) hend
  have hnoend : ¬ commentEnd <:+: t := fun hend =>
    ne_true_of_eq_false (h '>' (hend.subset (by decide))) rfl
  have hnew : ¬ LeavesOpen t := by
    rintro ⟨tail, htail, -, hhas⟩
    exact hnotag ((List.suffix_append commentStart tail).trans htail) hhas
  match e with
  | none => simp [Swallows, hnew]
  | some .once => simp [Swallows, hnew, hnotag (List.suffix_refl t)]
  | some .twice => simp [Swallows, hnoend]

/-- The name of a tag does not matter once it is known that it opens no
script. -/
theorem swallows_append {name : List Char} (h : ∀ c ∈ name, c.isAlpha) :
    Swallows e (name ++ t) ↔ Swallows e t := by
  induction name with
  | nil => rfl
  | cons c name ih =>
    obtain ⟨hc, hname⟩ := List.forall_mem_cons.1 h
    rw [List.cons_append, swallows_cons_of_ne (fun h => by subst h; cases hc)
      (fun h => by subst h; cases hc), ih hname]

theorem isAlpha_of_isScriptName {name : List Char} (h : isScriptName name) (hc : c ∈ name) :
    c.isAlpha := by
  have hlower : c.toLower ∈ "script".toList := by
    rw [← beq_iff_eq.1 h]
    exact List.mem_map_of_mem hc
  have hletters : "script".toList.all Char.isAlpha := by decide
  by_cases hupper : c.isUpper
  · exact Bool.or_eq_true_iff.2 (.inl hupper)
  · have hsame : c.toLower = c := dif_neg fun h => hupper (decide_eq_true h)
    rw [hsame] at hlower
    exact List.all_eq_true.1 hletters c hlower

theorem not_isAlpha_of_isTagEnd (h : isTagEnd c) : c.isAlpha = false := by
  have hends : ['\t', '\n', '\x0c', ' ', '/', '>'].all (!Char.isAlpha ·) := by decide
  simpa using List.all_eq_true.1 hends c (List.contains_iff_mem.1 h)

/-- **A name that has been read in full** is that of a tag that opens a script if
it says so and ends there. -/
theorem beginsTag_iff {name : List Char} (h : ∀ c ∈ name, c.isAlpha) (hc : c.isAlpha = false) :
    BeginsTag ('<' :: (name ++ c :: t)) ↔ isScriptName name ∧ isTagEnd c := by
  refine ⟨?_, fun ⟨hname, hend⟩ => ⟨name, c, t, rfl, hname, hend⟩⟩
  rintro ⟨name', c', rest, heq, hname, hend⟩
  obtain ⟨rfl, htail⟩ := Text.append_inj_of_stops h (Text.stops_cons.2 hc)
    (fun _ => isAlpha_of_isScriptName hname) (Text.stops_cons.2 (not_isAlpha_of_isTagEnd hend))
    (List.cons.inj heq).2
  obtain ⟨rfl, -⟩ := List.cons.inj htail
  exact ⟨hname, hend⟩

/-! ## What reading does not change -/

namespace ScriptState

variable {s : ScriptState}

/-- How the text is escaped that a state reads. -/
def escape : ScriptState → Option Escape
  | text e | lessThan e | endTagName e _ => e
  | escapeStart | escapeStartDash | closed => none
  | dash e | dashDash e => some e
  | openingName _ => some .once

/-- What has been read and may still begin something. -/
def pending : ScriptState → List Char
  | text _ | closed => []
  | lessThan _ => ['<']
  | escapeStart => ['<', '!']
  | escapeStartDash => ['<', '!', '-']
  | dash _ => ['-']
  | dashDash _ => ['-', '-']
  | openingName name => '<' :: name
  | endTagName _ name => '<' :: '/' :: name

/-- **A state in which no end tag has begun.** -/
def IsOpen : ScriptState → Prop
  | endTagName .. | closed => False
  | openingName name => ∀ c ∈ name, c.isAlpha
  | _ => True

/-- A character of text is pending if it may begin something. -/
theorem swallows_inText :
    Swallows (inText e c).escape ((inText e c).pending ++ t) ↔ Swallows e (c :: t) := by
  unfold inText
  split
  case h_1 => rfl
  case h_2 => rfl
  case h_3 hlt hdash =>
    have hlt : c ≠ '<' := hlt
    refine (swallows_cons (fun _ h => ?_) (fun hsome h => ?_) fun _ h => ?_).symm
    · exact hlt (List.cons_prefix_cons.1 h).1.symm
    · obtain ⟨e', rfl⟩ := Option.ne_none_iff_exists'.1 hsome
      exact hdash e' rfl (List.cons_prefix_cons.1 h).1.symm
    · obtain ⟨name, d, rest, heq, -⟩ := h
      exact hlt (List.cons.inj heq).1

/-- **Reading a character changes nothing**: it is taken from the text, and kept
as long as it may begin something. -/
theorem swallows_step (h : s.IsOpen) (hslash : ¬ (c = '/' ∧ ∃ e, s = lessThan e)) :
    Swallows (step s c).escape ((step s c).pending ++ t)
      ↔ Swallows s.escape (s.pending ++ c :: t) := by
  cases s with
  | text e => exact swallows_inText
  | lessThan e =>
    have hc : c ≠ '/' := fun hc => hslash ⟨hc, e, rfl⟩
    rw [step, if_neg hc]
    split_ifs with hstart hname
    · obtain ⟨rfl, rfl⟩ := hstart
      rfl
    · obtain ⟨-, rfl⟩ := hname
      rfl
    · refine swallows_inText.trans (swallows_lessThan (fun he h => ?_) fun he h => ?_).symm
      · exact hstart ⟨(List.cons_prefix_cons.1 h).1.symm, he⟩
      · have hc : c.isAlpha = false := Bool.eq_false_iff.2 fun hc => hname ⟨hc, he⟩
        exact absurd ((@beginsTag_iff c t [] (by simp) hc).1 h).1 (by decide)
  | escapeStart =>
    rw [step]
    split_ifs with hc
    · rw [hc]
      rfl
    · have hdrop : Swallows none ('<' :: '!' :: c :: t) ↔ Swallows none (c :: t) :=
        (swallows_lessThan (by simp [Ne.symm hc]) (by simp)).trans
          (swallows_cons_of_ne (by decide) (by decide))
      exact swallows_inText.trans hdrop.symm
  | escapeStartDash =>
    rw [step]
    split_ifs with hc
    · rw [hc]
      exact swallows_commentStart
    · have hdrop : Swallows none ('<' :: '!' :: '-' :: c :: t) ↔ Swallows none (c :: t) :=
        (swallows_lessThan (by simp [Ne.symm hc]) (by simp)).trans
          ((swallows_cons_of_ne (by decide) (by decide)).trans (swallows_dash (by simp)))
      exact swallows_inText.trans hdrop.symm
  | dash e =>
    rw [step]
    split_ifs with hc
    · rw [hc]
      rfl
    · have hdrop : Swallows (some e) ('-' :: c :: t) ↔ Swallows (some e) (c :: t) :=
        swallows_dash (by simp [Ne.symm hc])
      exact swallows_inText.trans hdrop.symm
  | dashDash e =>
    rw [step]
    split_ifs with hdash hend
    · rw [hdash]
      have hdrop : Swallows (some e) ('-' :: '-' :: '-' :: t)
          ↔ Swallows (some e) ('-' :: '-' :: t) := swallows_dash (by simp)
      exact hdrop.symm
    · rw [hend]
      exact swallows_commentEnd
    · have hdrop : Swallows (some e) ('-' :: '-' :: c :: t) ↔ Swallows (some e) (c :: t) :=
        (swallows_dash (by simp [Ne.symm hend])).trans (swallows_dash (by simp [Ne.symm hdash]))
      exact swallows_inText.trans hdrop.symm
  | openingName name =>
    show _ ↔ Swallows (some .once) ('<' :: (name ++ c :: t))
    rw [step]
    split
    case isTrue hend =>
      have hc := not_isAlpha_of_isTagEnd hend
      have hdrop : ∀ e, Swallows e (name ++ c :: t) ↔ Swallows e t := fun e =>
        (swallows_append h).trans
          (swallows_cons_of_ne (fun h => by rw [h] at hend; cases hend)
            fun h => by rw [h] at hend; cases hend)
      cases hname : isScriptName name with
      | true =>
        have htag : HasTag ('<' :: (name ++ c :: t)) :=
          ⟨_, List.suffix_refl _, (beginsTag_iff h hc).2 ⟨hname, hend⟩⟩
        exact ((swallows_once_iff htag).trans
          ((swallows_lessThan (by simp) (by simp)).trans (hdrop _))).symm
      | false =>
        have hnone : ¬ BeginsTag ('<' :: (name ++ c :: t)) := fun htag =>
          ne_true_of_eq_false hname ((beginsTag_iff h hc).1 htag).1
        have hlessThan : Swallows (some .once) ('<' :: (name ++ c :: t))
            ↔ Swallows (some .once) (name ++ c :: t) := swallows_lessThan (by simp) fun _ => hnone
        exact (hlessThan.trans (hdrop _)).symm
    case isFalse hend =>
      split
      case isTrue => exact iff_of_eq (congrArg _ (by simp [pending]))
      case isFalse hletter =>
        have hnone : ¬ BeginsTag ('<' :: (name ++ c :: t)) := fun htag =>
          hend ((beginsTag_iff h (Bool.eq_false_iff.2 hletter)).1 htag).2
        exact swallows_inText.trans
          ((swallows_lessThan (by simp) fun _ => hnone).trans (swallows_append h)).symm
  | endTagName e name => exact h.elim
  | closed => exact h.elim

theorem isOpen_inText : (inText e c).IsOpen := by
  unfold inText
  split
  all_goals trivial

/-- **No end tag begins** as long as there is no `</`. -/
theorem isOpen_step (h : s.IsOpen) (hslash : ¬ (c = '/' ∧ ∃ e, s = lessThan e)) :
    (step s c).IsOpen := by
  cases s with
  | text e => exact isOpen_inText
  | lessThan e =>
    rw [step, if_neg fun hc => hslash ⟨hc, e, rfl⟩]
    split_ifs with hstart hname
    · trivial
    · exact fun d hd => List.mem_singleton.1 hd ▸ hname.1
    · exact isOpen_inText
  | escapeStart | escapeStartDash | dash e =>
    rw [step]
    split
    · trivial
    · exact isOpen_inText
  | dashDash e =>
    rw [step]
    split_ifs
    · trivial
    · trivial
    · exact isOpen_inText
  | openingName name =>
    rw [step]
    split
    · trivial
    · split
      case isTrue hletter =>
        intro d hd
        rcases List.mem_append.1 hd with hd | hd
        · exact h d hd
        · exact List.mem_singleton.1 hd ▸ hletter
      case isFalse => exact isOpen_inText
  | endTagName e name => exact h.elim
  | closed => exact h.elim

theorem isTagEnd_of_mem_pending (h : s.IsOpen) (hc : c ∈ s.pending) : isTagEnd c = false := by
  have hall : ∀ {u : List Char}, c ∈ u → u.all (!isTagEnd ·) → isTagEnd c = false := by
    intro u hc hu
    simpa using List.all_eq_true.1 hu c hc
  cases s with
  | openingName name =>
    rcases List.mem_cons.1 hc with rfl | hc
    · rfl
    · exact Bool.eq_false_iff.2 fun hend =>
        ne_true_of_eq_false (not_isAlpha_of_isTagEnd hend) (h c hc)
  | endTagName e name => exact h.elim
  | closed => exact h.elim
  | _ => exact hall hc rfl

theorem eq_of_inText_eq_lessThan {e' : Option Escape} (h : inText e c = lessThan e') :
    c = '<' := by
  unfold inText at h
  split at h
  case h_1 => rfl
  case h_2 => cases h
  case h_3 => cases h

/-- Only a `<` is read as one. -/
theorem eq_of_step_eq_lessThan (h : step s c = lessThan e) : c = '<' := by
  cases s
  all_goals
    rw [step] at h
    grind [eq_of_inText_eq_lessThan]

/-- **How a text leaves its element**, from any state on: no end tag has begun,
and the rest of the element is escaped twice exactly if what was pending and the
text swallow an end tag. -/
theorem isOpen_run_and_escape_iff (h : s.IsOpen) (hend : ¬ ['<', '/'] <:+: t)
    (hstart : (∃ e, s = lessThan e) → t.head? ≠ some '/') :
    (run s t).IsOpen ∧ ((run s t).escape = some .twice ↔ Swallows s.escape (s.pending ++ t)) := by
  induction t generalizing s with
  | nil =>
    rw [List.append_nil]
    exact ⟨h, (swallows_iff_of_forall fun _ => isTagEnd_of_mem_pending h).symm⟩
  | cons c t ih =>
    have hslash : ¬ (c = '/' ∧ ∃ e, s = lessThan e) := by
      rintro ⟨rfl, hs⟩
      exact hstart hs rfl
    have hnext : (∃ e, step s c = lessThan e) → t.head? ≠ some '/' := by
      rintro ⟨e, he⟩ hhead
      obtain ⟨rest, rfl⟩ := List.head?_eq_some_iff.1 hhead
      rw [eq_of_step_eq_lessThan he] at hend
      exact hend ⟨[], rest, rfl⟩
    obtain ⟨hopen, hiff⟩ := ih (isOpen_step h hslash)
      (fun hin => hend (List.infix_cons hin)) hnext
    exact ⟨hopen, hiff.trans (swallows_step h hslash)⟩

/-! ## Behind the text -/

variable {u rest : List Char}

theorem run_append : run s (u ++ t) = run (run s u) t := List.foldl_append

theorem run_closed : run closed t = closed := by
  induction t with
  | nil => rfl
  | cons c t ih => exact ih

/-- An element that is not closed by a text is closed by what follows. -/
theorem closesAfter?_append (h : run s u ≠ closed) :
    closesAfter? s (u ++ t) = (closesAfter? (run s u) t).map (· + u.length) := by
  induction u generalizing s with
  | nil => exact Option.map_id'.symm
  | cons c u ih =>
    have hc : step s c ≠ closed := fun hc => h <| by
      show run (step s c) u = closed
      rw [hc, run_closed]
    rw [List.cons_append, closesAfter?, if_neg hc, ih h, Option.map_map]
    rfl

theorem IsOpen.ne_closed (h : s.IsOpen) : s ≠ closed := by
  rintro rfl
  exact h

/-- A `<` begins something new in every state. -/
theorem step_lessThan (h : s.IsOpen) : step s '<' = lessThan s.escape := by
  cases s with
  | endTagName e name => exact h.elim
  | closed => exact h.elim
  | dash e | dashDash e | lessThan e | text e => cases e <;> rfl
  | _ => rfl

/-- **An end tag ends the element** unless the text is escaped twice. -/
theorem closesAfter?_endTag (h : s.IsOpen) (htwice : s.escape ≠ some .twice) :
    closesAfter? s (endTag ++ rest) = some endTag.length := by
  show closesAfter? s ('<' :: ("/script>".toList ++ rest)) = _
  rw [closesAfter?, step_lessThan h, if_neg nofun]
  rcases he : s.escape with _ | _ | _
  · rfl
  · rfl
  · exact absurd he htwice

/-- In text that is escaped twice an end tag ends the inner script only. -/
theorem closesAfter?_endTag_of_twice (h : s.IsOpen) (htwice : s.escape = some .twice) :
    closesAfter? s (endTag ++ rest)
      = (closesAfter? (text (some .once)) rest).map (· + endTag.length) := by
  have hrun : run s endTag = text (some .once) := by
    show run (step s '<') "/script>".toList = _
    rw [step_lessThan h, htwice]
    rfl
  rw [closesAfter?_append (by rw [hrun]; nofun), hrun]

end ScriptState

open ScriptState

/-- A text that has no `</` is open at its end, and escaped twice there exactly if
it leaves its element open. -/
theorem isOpen_run_and_leavesOpen_iff (h : ¬ ['<', '/'] <:+: t) :
    (run (text none) t).IsOpen ∧ ((run (text none) t).escape = some .twice ↔ LeavesOpen t) :=
  @isOpen_run_and_escape_iff t (text none) trivial h nofun

variable {rest : List Char}

/-- **An end tag ends its element** behind a text that does not leave it open. -/
theorem scriptText?_endTag (h : ¬ ['<', '/'] <:+: t) (hclosed : ¬ LeavesOpen t) :
    scriptText? (t ++ (endTag ++ rest)) = some t := by
  obtain ⟨hopen, hiff⟩ := isOpen_run_and_leavesOpen_iff h
  rw [scriptText?, closesAfter?_append hopen.ne_closed,
    closesAfter?_endTag hopen fun htwice => hclosed (hiff.1 htwice), Option.map_some,
    Option.map_some, Nat.add_sub_cancel_left, List.take_left]

/-- **An end tag is swallowed** behind a text that leaves its element open: the
element ends only if there is one more. -/
theorem scriptText?_endTag_of_leavesOpen (h : ¬ ['<', '/'] <:+: t) (hleaves : LeavesOpen t) :
    scriptText? (t ++ (endTag ++ rest)) = (closesAfter? (text (some .once)) rest).map
      fun n => (t ++ (endTag ++ rest)).take (n + t.length) := by
  obtain ⟨hopen, hiff⟩ := isOpen_run_and_leavesOpen_iff h
  rw [scriptText?, closesAfter?_append hopen.ne_closed,
    closesAfter?_endTag_of_twice hopen (hiff.2 hleaves), Option.map_map, Option.map_map]
  refine congrArg (Option.map · _) (funext fun n => congrArg (List.take · _) ?_)
  show n + endTag.length + t.length - endTag.length = n + t.length
  omega

end StackGraph.Html
