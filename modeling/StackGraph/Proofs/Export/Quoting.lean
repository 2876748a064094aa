import Mathlib.Logic.Basic
import StackGraph.Export.Dot
import StackGraph.Export.Mermaid
/-!
# Names in the exports

Ids are names of directories, so they may hold any character but a slash, and
each export writes them in its own way. This module reads them back.

A DOT text is read as a sequence of characters and quoted names (`Dot.tokens?`).
Every id is one name there, whatever it holds (`Dot.tokens?_nodeName`), so
nothing of an id is ever taken for a part of the statement around it.

In a Mermaid label a quotation mark is written as a named entity, and reading the
entity as a quotation mark (`Mermaid.decode`) gives the id back, but not always:
an id that holds the entity itself is written as it is. So an id is lost exactly
if it holds the entity (`Mermaid.decode_mermaidEscape_eq_iff`), and two ids have
one label exactly if they are the same once it is read
(`Mermaid.mermaidEscape_eq_iff`).
-/

namespace StackGraph

/-! ## DOT -/

namespace Dot

/-- What a DOT text consists of. -/
inductive Token where
  /-- A character outside of names. -/
  | char (c : Char)
  /-- A quoted name. -/
  | name (text : String)
deriving DecidableEq, Repr

/-- The character that a letter behind a backslash stands for. -/
def escaped? : Char → Option Char
  | '"' => some '"'
  | '\\' => some '\\'
  | 'n' => some '\n'
  | _ => none

/-- The tokens of a text of which a part may have been read: the characters of a
name that has begun, the last one first. A name ends at the next quotation mark
that stands behind no backslash, and it holds no line break. -/
def tokensFrom : Option (List Char) → List Char → Option (List Token)
  | none, [] => some []
  | some _, [] => none
  | none, '"' :: rest => tokensFrom (some []) rest
  | none, c :: rest => (tokensFrom none rest).map (.char c :: ·)
  | some read, '"' :: rest =>
    (tokensFrom none rest).map (.name (String.ofList read.reverse) :: ·)
  | some read, '\\' :: c :: rest =>
    (escaped? c).bind fun char => tokensFrom (some (char :: read)) rest
  | some read, c :: rest => if c = '\n' then none else tokensFrom (some (c :: read)) rest

/-- The tokens of a text. -/
def tokens? (s : String) : Option (List Token) := tokensFrom none s.toList

/-- The tokens of a text without names. -/
def chars (s : String) : List Token := s.toList.map .char

variable {c : Char} {s read rest : List Char} {id : String}

/-- **A character of a name is read back from its escape.** -/
theorem tokensFrom_dotChar :
    tokensFrom (some read) (Text.dotChar c ++ rest) = tokensFrom (some (c :: read)) rest := by
  rw [Text.dotChar.eq_def]
  split
  case h_4 hquote hslash hbreak =>
    rw [List.singleton_append, tokensFrom, if_neg hbreak]
    · exact hquote
    · exact fun _ _ h => absurd h hslash
  all_goals rfl

/-- **A name is read back**, and what follows it is read from there on. -/
theorem tokensFrom_flatMap :
    tokensFrom (some read) (s.flatMap Text.dotChar ++ rest)
      = tokensFrom (some (s.reverse ++ read)) rest := by
  induction s generalizing read with
  | nil => rfl
  | cons c s ih =>
    rw [List.flatMap_cons, List.append_assoc, tokensFrom_dotChar, ih, List.reverse_cons,
      List.append_assoc, List.singleton_append]

/-- **Texts are read one after the other** if the first one ends outside of a
name. -/
theorem tokensFrom_append {state : Option (List Char)} {ts : List Token}
    (h : tokensFrom state s = some ts) :
    tokensFrom state (s ++ rest) = (tokensFrom none rest).map (ts ++ ·) := by
  induction state, s using tokensFrom.induct generalizing ts with
  | case1 =>
    obtain rfl := Option.some.inj h
    simp
  | case2 => cases h
  | case3 s ih => exact ih h
  | case4 c s hquote ih =>
    rw [tokensFrom.eq_4 c s hquote] at h
    obtain ⟨us, hus, rfl⟩ := Option.map_eq_some_iff.1 h
    rw [List.cons_append, tokensFrom.eq_4 c _ hquote, ih hus, Option.map_map]
    rfl
  | case5 read s ih =>
    obtain ⟨us, hus, rfl⟩ := Option.map_eq_some_iff.1 h
    show (tokensFrom none (s ++ rest)).map _ = _
    rw [ih hus, Option.map_map]
    rfl
  | case6 read c s ih =>
    obtain ⟨char, hchar, hus⟩ := Option.bind_eq_some_iff.1 h
    show (escaped? c).bind _ = _
    rw [hchar]
    exact ih char hus
  | case7 read s => cases h
  | case8 read c s hquote hescape hbreak ih =>
    have hslash : c ≠ '\\' := by
      rintro rfl
      cases s with
      | nil => cases h
      | cons d s => exact hescape d s rfl rfl
    rw [tokensFrom.eq_7 read c s hquote hescape, if_neg hbreak] at h
    rw [List.cons_append, tokensFrom.eq_7 read c _ hquote fun _ _ hc => absurd hc hslash,
      if_neg hbreak, ih h]

variable {t : String} {ts us : List Token}

theorem tokens?_append {s : String} (h : tokens? s = some ts) (h' : tokens? t = some us) :
    tokens? (s ++ t) = some (ts ++ us) := by
  rw [tokens?, String.toList_append, tokensFrom_append h, show tokensFrom none t.toList = _ from h',
    Option.map_some]

theorem tokens?_of_notMem {s : String} (h : '"' ∉ s.toList) : tokens? s = some (chars s) := by
  unfold tokens? chars
  generalize s.toList = cs at h
  induction cs with
  | nil => rfl
  | cons c cs ih =>
    obtain ⟨hc, hcs⟩ := not_or.1 (List.mem_cons.not.1 h)
    rw [tokensFrom.eq_4 c cs (Ne.symm hc), ih hcs]
    rfl

/-- **An id is one name**, whatever it holds. -/
theorem tokens?_nodeName : tokens? (nodeName id) = some [.name id] := by
  have hname : (nodeName id).toList = '"' :: (id.toList.flatMap Text.dotChar ++ ['"']) := by
    simp [nodeName, Text.dotEscape, Text.escape]
  rw [tokens?, hname]
  show tokensFrom (some []) _ = _
  rw [tokensFrom_flatMap, List.append_nil]
  show (tokensFrom none []).map (.name (String.ofList id.toList.reverse.reverse) :: ·) = _
  rw [List.reverse_reverse, String.ofList_toList]
  rfl

/-- **A line break stands outside of names.** -/
theorem break_notMem_of_tokensFrom {state : Option (List Char)} (h : tokensFrom state s = some ts)
    (hts : .char '\n' ∉ ts) : '\n' ∉ s := by
  induction state, s using tokensFrom.induct generalizing ts with
  | case1 => exact List.not_mem_nil
  | case2 => cases h
  | case3 s ih =>
    rw [List.mem_cons, not_or]
    exact ⟨by decide, ih h hts⟩
  | case4 c s hquote ih =>
    rw [tokensFrom.eq_4 c s hquote] at h
    obtain ⟨us, hus, rfl⟩ := Option.map_eq_some_iff.1 h
    rw [List.mem_cons, not_or] at hts ⊢
    exact ⟨fun hc => hts.1 (congrArg Token.char hc), ih hus hts.2⟩
  | case5 read s ih =>
    obtain ⟨us, hus, rfl⟩ := Option.map_eq_some_iff.1 h
    rw [List.mem_cons, not_or] at hts ⊢
    exact ⟨by decide, ih hus hts.2⟩
  | case6 read c s ih =>
    obtain ⟨char, hchar, hus⟩ := Option.bind_eq_some_iff.1 h
    have hc : '\n' ≠ c := by
      rintro rfl
      cases hchar
    rw [List.mem_cons, List.mem_cons, not_or, not_or]
    exact ⟨by decide, hc, ih char hus hts⟩
  | case7 read s => cases h
  | case8 read c s hquote hescape hbreak ih =>
    rw [tokensFrom.eq_7 read c s hquote hescape, if_neg hbreak] at h
    rw [List.mem_cons, not_or]
    exact ⟨Ne.symm hbreak, ih h hts⟩

end Dot

/-! ## Mermaid -/

namespace Mermaid

/-- How a quotation mark is written in a label. -/
def entity : List Char := ['#', 'q', 'u', 'o', 't', ';']

/-- A text with each entity read as a quotation mark, from left to right. -/
def decodeChars : List Char → List Char
  | '#' :: 'q' :: 'u' :: 'o' :: 't' :: ';' :: rest => '"' :: decodeChars rest
  | c :: rest => c :: decodeChars rest
  | [] => []

/-- A label with its entities read. -/
def decode (label : String) : String := String.ofList (decodeChars label.toList)

variable {c : Char} {s t : List Char} {id id' : String}

theorem mermaidChar_of_ne (h : c ≠ '"') : Text.mermaidChar c = [c] := by
  rw [Text.mermaidChar.eq_def]
  split
  · exact absurd rfl h
  · rfl

theorem decodeChars_cons (h : ¬ entity <+: c :: s) :
    decodeChars (c :: s) = c :: decodeChars s := by
  rw [decodeChars]
  rintro rest rfl rfl
  exact h ⟨rest, rfl⟩

/-- Without its first character an entity is only there if it was written. -/
theorem prefix_of_prefix_flatMap (hmark : '#' ∉ t) (h : t <+: s.flatMap Text.mermaidChar) :
    t <+: s := by
  induction t generalizing s with
  | nil => exact List.nil_prefix
  | cons d t ih =>
    obtain ⟨hd, ht⟩ := not_or.1 (List.mem_cons.not.1 hmark)
    cases s with
    | nil => exact h
    | cons c s =>
      rw [List.flatMap_cons] at h
      by_cases hc : c = '"'
      · subst hc
        exact absurd (List.cons_prefix_cons.1 h).1.symm hd
      · rw [mermaidChar_of_ne hc, List.singleton_append, List.cons_prefix_cons] at h
        exact List.cons_prefix_cons.2 ⟨h.1, ih ht h.2⟩

theorem flatMap_entity_append :
    (entity ++ s).flatMap Text.mermaidChar = entity ++ s.flatMap Text.mermaidChar := by
  rw [List.flatMap_append]
  rfl

/-- **Reading a label reads the text that it was made of.** -/
theorem decodeChars_flatMap : decodeChars (s.flatMap Text.mermaidChar) = decodeChars s := by
  induction s using decodeChars.induct with
  | case1 rest ih =>
    show decodeChars ((entity ++ rest).flatMap Text.mermaidChar) = '"' :: decodeChars rest
    rw [flatMap_entity_append, ← ih]
    rfl
  | case2 c rest hentity ih =>
    rw [decodeChars.eq_2 c rest hentity, List.flatMap_cons]
    by_cases hc : c = '"'
    · subst hc
      show '"' :: decodeChars (rest.flatMap Text.mermaidChar) = _
      rw [ih]
    · rw [mermaidChar_of_ne hc, List.singleton_append, decodeChars_cons, ih]
      intro hprefix
      obtain ⟨rfl, htail⟩ := List.cons_prefix_cons.1 hprefix
      obtain ⟨rest', rfl⟩ := prefix_of_prefix_flatMap (by decide) htail
      exact hentity rest' rfl rfl
  | case3 => rfl

/-- An entity is written like the quotation mark that it is read as. -/
theorem flatMap_decodeChars :
    (decodeChars s).flatMap Text.mermaidChar = s.flatMap Text.mermaidChar := by
  induction s using decodeChars.induct with
  | case1 rest ih =>
    show entity ++ (decodeChars rest).flatMap Text.mermaidChar
      = (entity ++ rest).flatMap Text.mermaidChar
    rw [ih, flatMap_entity_append]
  | case2 c rest hentity ih =>
    rw [decodeChars.eq_2 c rest hentity, List.flatMap_cons, ih, List.flatMap_cons]
  | case3 => rfl

theorem decodeChars_eq_self_iff : decodeChars s = s ↔ ¬ entity <:+: s := by
  induction s using decodeChars.induct with
  | case1 rest ih =>
    refine iff_of_false (fun h => ?_) (not_not.2 (List.prefix_append entity rest).isInfix)
    exact absurd (List.cons.inj h).1 (by decide)
  | case2 c rest hentity ih =>
    have hprefix : ¬ entity <+: c :: rest := by
      intro h
      obtain ⟨rfl, rest', rfl⟩ := List.cons_prefix_cons.1 h
      exact hentity rest' rfl rfl
    rw [decodeChars_cons hprefix, List.cons_inj_right, ih, List.infix_cons_iff,
      or_iff_right hprefix]
  | case3 => decide

/-- **An id is read back from its label** exactly if it does not hold the entity
itself. -/
theorem decode_mermaidEscape_eq_iff :
    decode (Text.mermaidEscape id) = id ↔ ¬ entity <:+: id.toList := by
  rw [decode, Text.mermaidEscape, Text.escape, String.toList_ofList, decodeChars_flatMap,
    ← decodeChars_eq_self_iff, ← String.toList_inj, String.toList_ofList]

/-- **Two ids have one label** exactly if they are the same once their entities
are read. -/
theorem mermaidEscape_eq_iff :
    Text.mermaidEscape id = Text.mermaidEscape id' ↔ decode id = decode id' := by
  simp only [decode, Text.mermaidEscape, Text.escape, ← String.toList_inj, String.toList_ofList]
  constructor
  · intro h
    rw [← decodeChars_flatMap, h, decodeChars_flatMap]
  · intro h
    rw [← flatMap_decodeChars, h, flatMap_decodeChars]

end Mermaid

end StackGraph
