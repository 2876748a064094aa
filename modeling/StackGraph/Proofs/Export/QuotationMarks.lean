import StackGraph.Proofs.Export.DotOutline
/-!
# Where quotation marks stand

The DOT exporter writes quotation marks around ids and around some values of
attributes. A reader of the text does not know which marks the exporter wrote and
which ones are part of an id: it goes through the text from the left, and a mark
inside of quotes ends them unless it is escaped. This module says that the two
agree (`Dot.marks_as_written`).

Whether a mark is escaped is not seen from the character before it, since a
backslash can be escaped itself. It depends on all that was read since the quotes
were opened, and what has to be known of that is a single bit (`Dot.endsEscaping`).
A text can stand between quotation marks if this bit is set before each mark in
it, and not behind it (`Dot.IsQuotable`). Escaped texts are such texts, because
each character of an id is written as one character that is no escape or as a pair
that ends with the bit as it was before. This is all that the statements need: a
statement that alternates between texts without marks and texts that can stand
between them is cut by the reader into just these texts (`Dot.cut_intercalate`).

What a statement is about is read with its escapes undone (`Dot.tokens?`). Here the
pieces stay as they are written, so that they say where each mark stands.
-/

namespace StackGraph.Dot

variable {c : Char} {s t read rest : List Char} {escaped : Bool}

/-! ## Escapes -/

/-- The characters that do not stand for themselves between quotation marks. -/
def specialChars : List Char := ['"', '\\', '\n']

theorem dotChar_of_notMem (h : c ∉ specialChars) : Text.dotChar c = [c] := by
  rw [Text.dotChar.eq_def]
  split
  case h_4 => rfl
  all_goals exact absurd (by decide) h

theorem dotChar_of_escaped? {letter : Char} (h : escaped? letter = some c) :
    Text.dotChar c = ['\\', letter] := by
  unfold escaped? at h
  split at h
  case h_4 => cases h
  all_goals
    obtain rfl := Option.some.inj h
    rfl

theorem ne_slash_of_notMem (h : c ∉ specialChars) : c ≠ '\\' := by
  rintro rfl
  exact h (by decide)

/-- Each special character has a letter. -/
theorem exists_escaped?_eq (h : c ∈ specialChars) : ∃ letter, escaped? letter = some c := by
  simp only [specialChars, List.mem_cons, List.not_mem_nil, or_false] at h
  rcases h with rfl | rfl | rfl
  · exact ⟨'"', rfl⟩
  · exact ⟨'\\', rfl⟩
  · exact ⟨'n', rfl⟩

/-- **A character is written as it is or as a pair** of a backslash and a letter
that stands for it. -/
theorem dotChar_eq_or :
    (c ∉ specialChars ∧ Text.dotChar c = [c])
      ∨ ∃ letter, escaped? letter = some c ∧ Text.dotChar c = ['\\', letter] := by
  by_cases hspecial : c ∈ specialChars
  · obtain ⟨letter, hletter⟩ := exists_escaped?_eq hspecial
    exact .inr ⟨letter, hletter, dotChar_of_escaped? hletter⟩
  · exact .inl ⟨hspecial, dotChar_of_notMem hspecial⟩

/-- A text with its escapes read. A special character that stands alone is no
escape, and neither is a backslash before another character. -/
def unescapeChars : List Char → Option (List Char)
  | [] => some []
  | '\\' :: letter :: rest => (escaped? letter).bind fun c => (unescapeChars rest).map (c :: ·)
  | c :: rest => if c ∈ specialChars then none else (unescapeChars rest).map (c :: ·)

/-- The text that an escaped text stands for. -/
def unescape? (s : String) : Option String := (unescapeChars s.toList).map String.ofList

theorem unescapeChars_dotChar_append :
    unescapeChars (Text.dotChar c ++ rest) = (unescapeChars rest).map (c :: ·) := by
  rcases @dotChar_eq_or c with ⟨hplain, heq⟩ | ⟨letter, hletter, heq⟩
  · have hslash := ne_slash_of_notMem hplain
    rw [heq, List.singleton_append, unescapeChars.eq_3 c rest fun _ _ h => absurd h hslash,
      if_neg hplain]
  · rw [heq]
    show (escaped? letter).bind _ = _
    rw [hletter]
    rfl

theorem unescapeChars_flatMap : unescapeChars (s.flatMap Text.dotChar) = some s := by
  induction s with
  | nil => rfl
  | cons c s ih => rw [List.flatMap_cons, unescapeChars_dotChar_append, ih, Option.map_some]

/-- Only escaped texts can be read. -/
theorem eq_flatMap_of_unescapeChars (h : unescapeChars t = some s) :
    t = s.flatMap Text.dotChar := by
  induction t using unescapeChars.induct generalizing s with
  | case1 =>
    obtain rfl := Option.some.inj h
    rfl
  | case2 letter rest ih =>
    obtain ⟨c, hletter, hrest⟩ := Option.bind_eq_some_iff.1 h
    obtain ⟨s, hs, rfl⟩ := Option.map_eq_some_iff.1 hrest
    rw [List.flatMap_cons, dotChar_of_escaped? hletter, ← ih hs]
    rfl
  | case3 c rest hpair hspecial =>
    rw [unescapeChars.eq_3 c rest hpair, if_pos hspecial] at h
    cases h
  | case4 c rest hpair hspecial ih =>
    rw [unescapeChars.eq_3 c rest hpair, if_neg hspecial] at h
    obtain ⟨s, hs, rfl⟩ := Option.map_eq_some_iff.1 h
    rw [List.flatMap_cons, dotChar_of_notMem hspecial, ← ih hs, List.singleton_append]

/-- **Reading undoes escaping**, and nothing but the escaped text is read as a
text. -/
theorem unescape?_eq_some_iff {text s : String} :
    unescape? text = some s ↔ text = Text.dotEscape s := by
  rw [unescape?, Text.dotEscape, Text.escape, ← String.toList_inj, String.toList_ofList]
  constructor
  · intro h
    obtain ⟨cs, hcs, rfl⟩ := Option.map_eq_some_iff.1 h
    rw [String.toList_ofList]
    exact eq_flatMap_of_unescapeChars hcs
  · intro h
    rw [h, unescapeChars_flatMap, Option.map_some, String.ofList_toList]

theorem break_notMem_dotEscape {s : String} : '\n' ∉ (Text.dotEscape s).toList := by
  rw [Text.dotEscape, Text.escape, String.toList_ofList, List.mem_flatMap]
  rintro ⟨c, -, hc⟩
  rcases @dotChar_eq_or c with ⟨hplain, heq⟩ | ⟨letter, hletter, heq⟩
  · rw [heq, List.mem_singleton] at hc
    subst hc
    exact hplain (by decide)
  · rw [heq, List.mem_cons, List.mem_singleton] at hc
    rcases hc with hc | rfl
    · exact absurd hc (by decide)
    · cases hletter

/-! ## Marks that are escaped -/

/-- Whether a character makes the next one escaped: a backslash does if it is not
escaped itself. -/
def escapesNext (escaped : Bool) (c : Char) : Bool := !escaped && c == '\\'

/-- Whether a text, read from the left, ends with a backslash that makes the next
character escaped. -/
def endsEscaping (t : List Char) : Bool := t.foldl escapesNext false

/-- **A text can stand between quotation marks**: each mark in it is escaped, and a
mark behind it would not be. -/
structure IsQuotable (t : List Char) : Prop where
  endsEscaping_of_mark : ∀ before after, t = before ++ '"' :: after → endsEscaping before = true
  endsEscaping_eq : endsEscaping t = false

theorem IsQuotable.append (hs : IsQuotable s) (ht : IsQuotable t) : IsQuotable (s ++ t) := by
  have hbehind : ∀ u, endsEscaping (s ++ u) = endsEscaping u := by
    intro u
    rw [endsEscaping, List.foldl_append]
    exact congrArg (u.foldl escapesNext) hs.endsEscaping_eq
  refine ⟨fun before after h => ?_, (hbehind t).trans ht.endsEscaping_eq⟩
  -- the mark stands in the second text or in the first one
  rcases List.append_eq_append_iff.1 h with ⟨read, rfl, hmark⟩ | ⟨rest, hsplit, hrest⟩
  · exact (hbehind read).trans (ht.endsEscaping_of_mark _ _ hmark)
  · cases rest with
    | nil => cases ht.endsEscaping_of_mark [] after hrest.symm
    | cons c rest =>
      obtain ⟨rfl, -⟩ := List.cons.inj hrest
      exact hs.endsEscaping_of_mark _ _ hsplit

/-- A pair ends with its letter escaped, so what follows is not. -/
theorem isQuotable_dotChar : IsQuotable (Text.dotChar c) := by
  rcases @dotChar_eq_or c with ⟨hplain, heq⟩ | ⟨letter, -, heq⟩
  · rw [heq]
    refine ⟨fun before after h => ?_, ?_⟩
    · have hmark : '"' ∈ [c] := h ▸ List.mem_append_right _ List.mem_cons_self
      obtain rfl := List.mem_singleton.1 hmark
      exact absurd (by decide) hplain
    · exact beq_false_of_ne (ne_slash_of_notMem hplain)
  · rw [heq]
    refine ⟨fun before after h => ?_, rfl⟩
    rcases List.cons_eq_append_iff.1 h with ⟨-, hmark⟩ | ⟨read, rfl, hletter⟩
    · cases hmark
    · rcases List.singleton_eq_append_iff.1 hletter with ⟨rfl, -⟩ | ⟨-, hmark⟩
      · rfl
      · cases hmark

/-- **Escaped texts can stand between quotation marks.** -/
theorem isQuotable_dotEscape (s : String) : IsQuotable (Text.dotEscape s).toList := by
  rw [Text.dotEscape, Text.escape, String.toList_ofList]
  induction s.toList with
  | nil => exact ⟨fun before after h => by simp at h, rfl⟩
  | cons c cs ih => exact isQuotable_dotChar.append ih

/-! ## A reader of quotes -/

/-- Where a reader is: outside of quotes, or inside, with the next character
escaped or not. -/
inductive Place where
  | outside
  | inside (escaped : Bool)

/-- The pieces into which a reader cuts a text, from what was read of the first one
on, with the last character first: outside of quotes each mark opens them, and
inside each one closes them that is not escaped. -/
def cutFrom : Place → List Char → List Char → List String
  | _, read, [] => [String.ofList read.reverse]
  | .outside, read, c :: rest =>
    if c = '"' then String.ofList read.reverse :: cutFrom (.inside false) [] rest
    else cutFrom .outside (c :: read) rest
  | .inside escaped, read, c :: rest =>
    if c = '"' ∧ escaped = false then String.ofList read.reverse :: cutFrom .outside [] rest
    else cutFrom (.inside (escapesNext escaped c)) (c :: read) rest

/-- **The pieces of a text between the marks that open and close quotes**: the first
one is outside, the second one inside, and so on. -/
def cut (text : String) : List String := cutFrom .outside [] text.toList

theorem cutFrom_outside (h : '"' ∉ t) :
    cutFrom .outside read (t ++ rest) = cutFrom .outside (t.reverse ++ read) rest := by
  induction t generalizing read with
  | nil => rfl
  | cons c t ih =>
    obtain ⟨hc, ht⟩ := not_or.1 (List.mem_cons.not.1 h)
    rw [List.cons_append, cutFrom, if_neg (Ne.symm hc), ih ht, List.reverse_cons,
      List.append_assoc, List.singleton_append]

/-- Inside of quotes a reader passes the marks that are escaped. -/
theorem cutFrom_inside
    (h : ∀ before after, t = before ++ '"' :: after → before.foldl escapesNext escaped = true) :
    cutFrom (.inside escaped) read (t ++ rest)
      = cutFrom (.inside (t.foldl escapesNext escaped)) (t.reverse ++ read) rest := by
  induction t generalizing escaped read with
  | nil => rfl
  | cons c t ih =>
    have hpassed : ¬ (c = '"' ∧ escaped = false) := by
      rintro ⟨rfl, rfl⟩
      cases h [] t rfl
    have ht : ∀ before after, t = before ++ '"' :: after →
        before.foldl escapesNext (escapesNext escaped c) = true :=
      fun before after heq => h (c :: before) after (heq ▸ rfl)
    rw [List.cons_append, cutFrom, if_neg hpassed, ih ht, List.reverse_cons, List.append_assoc,
      List.singleton_append, List.foldl_cons]

variable {outer inner next : String} {pieces : List String}

theorem cut_of_notMem (h : '"' ∉ outer.toList) : cut outer = [outer] := by
  rw [cut, ← List.append_nil outer.toList, cutFrom_outside h, cutFrom, List.append_nil,
    List.reverse_reverse, String.ofList_toList]

/-- **Quotes end where they are meant to end** if what is between the marks can
stand there. -/
theorem cut_quoted (houter : '"' ∉ outer.toList) (hinner : IsQuotable inner.toList) :
    cut (outer ++ "\"" ++ (inner ++ "\"" ++ next)) = outer :: inner :: cut next := by
  have htext : (outer ++ "\"" ++ (inner ++ "\"" ++ next)).toList
      = outer.toList ++ '"' :: (inner.toList ++ '"' :: next.toList) := by
    simp [String.toList_append]
  rw [cut, htext, cutFrom_outside houter, cutFrom, if_pos rfl,
    cutFrom_inside hinner.endsEscaping_of_mark, cutFrom, if_pos ⟨rfl, hinner.endsEscaping_eq⟩]
  simp only [List.append_nil, List.reverse_reverse, String.ofList_toList]
  rfl

/-- **Pieces that alternate**: texts without marks outside of quotes, and between
them texts that can stand inside. -/
inductive Alternate : List String → Prop
  | last {outer : String} (houter : '"' ∉ outer.toList) : Alternate [outer]
  | quoted {outer inner : String} {pieces : List String} (houter : '"' ∉ outer.toList)
      (hinner : IsQuotable inner.toList) (hpieces : Alternate pieces) :
      Alternate (outer :: inner :: pieces)

theorem Alternate.exists_cons (h : Alternate pieces) : ∃ outer more, pieces = outer :: more := by
  cases h with
  | last => exact ⟨_, _, rfl⟩
  | quoted => exact ⟨_, _, rfl⟩

/-- **A reader finds the pieces that were put together.** -/
theorem cut_intercalate (h : Alternate pieces) : cut ("\"".intercalate pieces) = pieces := by
  induction h with
  | last houter => rw [String.intercalate_singleton, cut_of_notMem houter]
  | quoted houter hinner hpieces ih =>
    obtain ⟨outer, more, rfl⟩ := hpieces.exists_cons
    rw [String.intercalate_cons_cons, String.intercalate_cons_cons, cut_quoted houter hinner, ih]

/-! ## Statements -/

/-- **A text is written and read as the same pieces**: the marks between them are
those that open and close quotes. -/
structure IsCutInto (text : String) (pieces : List String) : Prop where
  written : text = "\"".intercalate pieces
  read : cut text = pieces

theorem IsCutInto.of_alternate {text : String} (h : Alternate pieces)
    (htext : text = "\"".intercalate pieces) : IsCutInto text pieces :=
  ⟨htext, htext ▸ cut_intercalate h⟩

/-- What the statement of a module ends with. -/
def nodeClosing (onCycle : Bool) : String := (if onCycle then ", color=red" else "") ++ "];"

/-- The pieces behind the label of a module: a style of its own, if it has one, is
quoted. -/
def stylePieces (m : ModuleReport) (onCycle : Bool) : List String :=
  if m.stub then [", style=", "rounded,dashed", ", fontcolor=gray40" ++ nodeClosing onCycle]
  else if m.dependencies.isEmpty && m.dependents.isEmpty then
    [", style=", "rounded,filled", ", fillcolor=gray90" ++ nodeClosing onCycle]
  else [nodeClosing onCycle]

/-- The pieces of a module's statement: its name and its label are quoted, and so
may its style be. -/
def nodePieces (id : String) (m : ModuleReport) (onCycle : Bool) : List String :=
  "    " :: Text.dotEscape id :: " [label=" :: Text.dotEscape (label id m) ::
    stylePieces m onCycle

/-- The pieces of an edge's statement: the names of its ends are quoted. -/
def edgePieces (e : Edge) (onCycle : Bool) : List String :=
  let attributes := edgeAttributes e.kind onCycle
  ["    ", Text.dotEscape e.source, " -> ", Text.dotEscape e.target,
    (if attributes.isEmpty then "" else " [" ++ ", ".intercalate attributes ++ "]") ++ ";"]

variable {id id' : String} {m : ModuleReport} {e : Edge} {onCycle : Bool}

/-- A text that escaping leaves as it is can stand between quotation marks. -/
theorem isQuotable_of_dotEscape_eq {s : String} (h : Text.dotEscape s = s) :
    IsQuotable s.toList :=
  h ▸ isQuotable_dotEscape s

theorem alternate_stylePieces : Alternate (stylePieces m onCycle) := by
  have hdashed : IsQuotable "rounded,dashed".toList := isQuotable_of_dotEscape_eq (by decide)
  have hfilled : IsQuotable "rounded,filled".toList := isQuotable_of_dotEscape_eq (by decide)
  have hclosing : ∀ s ∈ ["", ", fontcolor=gray40", ", fillcolor=gray90"],
      '"' ∉ (s ++ nodeClosing onCycle).toList := by
    cases onCycle <;> decide
  unfold stylePieces
  split
  · exact .quoted (by decide) hdashed (.last (hclosing _ (by decide)))
  · split
    · exact .quoted (by decide) hfilled (.last (hclosing _ (by decide)))
    · exact .last (hclosing "" (by decide))

theorem alternate_nodePieces : Alternate (nodePieces id m onCycle) :=
  .quoted (by decide) (isQuotable_dotEscape _) <|
    .quoted (by decide) (isQuotable_dotEscape _) alternate_stylePieces

theorem alternate_edgePieces : Alternate (edgePieces e onCycle) := by
  refine .quoted (by decide) (isQuotable_dotEscape _) <|
    .quoted (by decide) (isQuotable_dotEscape _) (.last ?_)
  cases e.kind <;> cases onCycle <;> decide

/-- The attributes behind the label are the pieces of the style. -/
theorem join_furtherAttributes : String.join ((furtherAttributes m onCycle).map (", " ++ ·)) ++ "];"
    = "\"".intercalate (stylePieces m onCycle) := by
  unfold furtherAttributes stylePieces
  cases m.stub <;> cases m.dependencies.isEmpty && m.dependents.isEmpty <;> cases onCycle <;>
    decide

theorem nodeStatement_eq_intercalate :
    nodeStatement id m onCycle = "\"".intercalate (nodePieces id m onCycle) := by
  obtain ⟨outer, more, hstyle⟩ := (@alternate_stylePieces m onCycle).exists_cons
  rw [nodeStatement_eq, join_furtherAttributes, nodePieces, hstyle]
  simp only [String.intercalate_cons_cons, nodeName, String.append_assoc]

theorem edgeStatement_eq_intercalate :
    edgeStatement e onCycle = "\"".intercalate (edgePieces e onCycle) := by
  simp only [edgePieces, String.intercalate_cons_cons, String.intercalate_singleton, edgeStatement,
    nodeName, String.append_assoc]

/-- **Different ids have different names.** -/
theorem nodeName_inj_iff : nodeName id = nodeName id' ↔ id = id' := by
  constructor
  · intro h
    have hescape : Text.dotEscape id = Text.dotEscape id' := by
      simp only [nodeName, ← String.toList_inj, String.toList_append] at h ⊢
      exact List.append_cancel_left (List.append_cancel_right h)
    exact Option.some.inj
      ((unescape?_eq_some_iff.2 rfl).symm.trans (unescape?_eq_some_iff.2 hescape))
  · rintro rfl
    rfl

/-- **The marks that a reader finds are those that were written.** An escaped text
has no line break, can stand between quotation marks, and is the only one that is
read as the text it was made of. So a reader cuts every statement into the pieces
that were put together, and the names of different modules differ. -/
theorem marks_as_written :
    (∀ s, '\n' ∉ (Text.dotEscape s).toList ∧ IsQuotable (Text.dotEscape s).toList
        ∧ ∀ text, unescape? text = some s ↔ text = Text.dotEscape s)
      ∧ (∀ id m onCycle, IsCutInto (nodeStatement id m onCycle) (nodePieces id m onCycle))
      ∧ (∀ e onCycle, IsCutInto (edgeStatement e onCycle) (edgePieces e onCycle))
      ∧ ∀ id id', nodeName id = nodeName id' ↔ id = id' := by
  refine ⟨fun s => ⟨break_notMem_dotEscape, isQuotable_dotEscape s, fun _ => ?_⟩, ?_, ?_, ?_⟩
  · exact unescape?_eq_some_iff
  · exact fun _ _ _ => .of_alternate alternate_nodePieces nodeStatement_eq_intercalate
  · exact fun _ _ => .of_alternate alternate_edgePieces edgeStatement_eq_intercalate
  · exact fun _ _ => nodeName_inj_iff

/-- An id that ends with a backslash and a mark. -/
example : cut (nodeName "net\\\"") = ["", "net\\\\\\\"", ""] := by decide

end StackGraph.Dot
