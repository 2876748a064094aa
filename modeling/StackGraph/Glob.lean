import StackGraph.Text.Basic
/-!
# Glob patterns

Patterns for names and paths. A question mark stands for one character and a star for any number of
them, slashes included; two stars between slashes stand for any number of directories; brackets
stand for one character of a set, or for one outside the set if it starts with an exclamation mark.
Every other character stands for itself.

Reading a pattern fails on three or more stars in a row, on two stars that are not a whole component
of the path, and on a set that is not closed. The error gives the place in the pattern, counted in
characters.
-/

namespace StackGraph

/-- A part of a set of characters. -/
inductive CharRange where
  | one (c : Char)
  /-- All characters from `first` to `last`. -/
  | span (first last : Char)
deriving DecidableEq, Repr

namespace CharRange

/-- Whether a character belongs to the part. -/
def contains (c : Char) : CharRange → Bool
  | one d => c == d
  | span first last => first ≤ c && c ≤ last

/-- The parts that a text between brackets lists: a hyphen between two characters makes a span. -/
def ofChars : List Char → List CharRange
  | a :: '-' :: b :: rest => span a b :: ofChars rest
  | c :: rest => one c :: ofChars rest
  | [] => []

end CharRange

/-- The tokens of a pattern. -/
inductive GlobToken where
  | char (c : Char)
  | anyChar
  /-- Any characters. -/
  | anyText
  /-- Any number of directories, each with the slash behind it, or all that is left. -/
  | anyDirectories
  | within (set : List CharRange)
  | outside (set : List CharRange)
deriving DecidableEq, Repr

/-- A pattern. -/
structure Glob where
  tokens : List GlobToken
deriving DecidableEq, Repr

/-- What is wrong with a pattern. -/
inductive GlobProblem where
  /-- Three stars in a row. -/
  | wildcards
  /-- Two stars that are not a whole component. -/
  | recursiveWildcards
  /-- A set that is not closed. -/
  | invalidRange
deriving DecidableEq, Repr

/-- Why a text is not a pattern. -/
structure GlobError where
  /-- The number of characters before the fault. -/
  position : Nat
  problem : GlobProblem
deriving DecidableEq, Repr

/-- The wording of a problem. -/
def GlobProblem.text : GlobProblem → String
  | wildcards => "wildcards are either regular \x60*\x60 or recursive \x60**\x60"
  | recursiveWildcards => "recursive wildcards must form a single path component"
  | invalidRange => "invalid range pattern"

/-- The wording of an error. -/
def GlobError.text (e : GlobError) : String :=
  "Pattern syntax error near position " ++ toString e.position ++ ": " ++ e.problem.text

namespace GlobToken

/-- Whether a token stands for a single character, and `c` is such a character. -/
def admits (c : Char) : GlobToken → Bool
  | char d => c == d
  | anyChar => true
  | within set => set.any (CharRange.contains c)
  | outside set => !set.any (CharRange.contains c)
  | anyText | anyDirectories => false

end GlobToken

namespace Glob

/-- The members of the set that opens a text, whose first member may be a closing bracket, and what
follows the bracket that closes it. -/
def bracketed? : List Char → Option (List Char × List Char)
  | [] => none
  | first :: rest =>
    match rest.dropWhile (· != ']') with
    | [] => none
    | _ :: after => some (first :: rest.takeWhile (· != ']'), after)

/-- The set behind an opening bracket, and what follows it. -/
def set? : List Char → Option (GlobToken × List Char)
  | '!' :: rest =>
    (bracketed? rest).map fun (members, after) => (.outside (CharRange.ofChars members), after)
  | rest =>
    (bracketed? rest).map fun (members, after) => (.within (CharRange.ofChars members), after)

/-- The tokens so far, last one first, with one for any directories. Right behind another one it
adds nothing. -/
def addDirectories (tokens : List GlobToken) : List GlobToken :=
  match tokens with
  | .anyDirectories :: _ :: _ => tokens
  | _ => .anyDirectories :: tokens

/-- Reads the tokens of a text at a position, `done` being the tokens before it, last one first, and
`before` the character before it. The text gets shorter in every one of the given steps. -/
def readFrom : Nat → List GlobToken → Nat → Option Char → List Char →
    Except GlobError (List GlobToken)
  | 0, done, _, _, _ => .ok done.reverse
  | steps + 1, done, position, before, text =>
    match text with
    | [] => .ok done.reverse
    | '?' :: rest => readFrom steps (.anyChar :: done) (position + 1) (some '?') rest
    | '*' :: '*' :: '*' :: _ => .error ⟨position + 2, .wildcards⟩
    | '*' :: '*' :: rest =>
      if before.any (· != '/') then .error ⟨position - 1, .recursiveWildcards⟩
      else
        match rest with
        | [] => .ok (addDirectories done).reverse
        | '/' :: after => readFrom steps (addDirectories done) (position + 3) (some '/') after
        | _ => .error ⟨position + 2, .recursiveWildcards⟩
    | '*' :: rest => readFrom steps (.anyText :: done) (position + 1) (some '*') rest
    | '[' :: rest =>
      match set? rest with
      | none => .error ⟨position, .invalidRange⟩
      | some (token, after) =>
        let read := rest.length - after.length
        readFrom steps (token :: done) (position + 1 + read) (some ']') after
    | c :: rest => readFrom steps (.char c :: done) (position + 1) (some c) rest

/-- The pattern that a text denotes. -/
def read (text : String) : Except GlobError Glob :=
  (readFrom text.length [] 0 none text.toList).map Glob.mk

/-! ### Matching

A text is matched together with every text that is left of it when characters are taken from its
start. There is one verdict for each of them, longest first, so the number of steps is bounded by
the length of the text times the number of tokens.
-/

/-- Whether some verdict is positive from each place on. -/
def someFrom : List Bool → List Bool
  | [] => []
  | verdict :: rest =>
    let later := someFrom rest
    (verdict || later.headD false) :: later

/-- For each place of a text whether it is behind a slash or at the end; `first` says so of the
first one. -/
def borders (first : Bool) : List Char → List Bool
  | [] => [true]
  | c :: rest => first :: borders (c == '/') rest

/-- The verdicts on a text when a token is put in front of tokens with the given verdicts. -/
def verdictsWith (token : GlobToken) (text : List Char) (verdicts : List Bool) : List Bool :=
  match token with
  | .anyText => someFrom verdicts
  | .anyDirectories =>
    List.zipWith or verdicts (someFrom (List.zipWith and (borders true text) verdicts))
  | token => List.zipWith (fun c rest => token.admits c && rest) text verdicts.tail ++ [false]

/-- Whether some tokens match a text, and each text that is left of it behind some characters. -/
def verdicts (text : List Char) : List GlobToken → List Bool
  | [] => text.map (fun _ => false) ++ [true]
  | token :: tokens => verdictsWith token text (verdicts text tokens)

/-- Whether the pattern matches a whole text. -/
def matchesText (g : Glob) (text : String) : Bool := (verdicts text.toList g.tokens).headD false

end Glob

end StackGraph
