import AtlasCore.Lib.Text

/-!
# `fnmatch`

The shell patterns of Python's `fnmatch`: `*`, `?` and `[...]`, over a case that matters and with
no character set apart, so that a `*` also runs over a `/`.

A pattern is parsed into items, each of which matches any text, any character, or one of a set, and
the match goes through the items with every way to divide the text among the stars.  What Python
compiles to a regular expression is here decided directly.
-/

set_option autoImplicit false

namespace Py

/-- One item of a pattern: any text, any character, a character, or one of a set. -/
inductive Glob where
  | star
  | any
  | char (c : CodePoint)
  /-- A set of ranges, or its complement. -/
  | set (negated : Bool) (ranges : List (CodePoint × CodePoint))
  deriving DecidableEq

namespace Glob

/-- The ranges of a set, from what stands between the brackets. -/
def ranges : Str → List (CodePoint × CodePoint)
  | [] => []
  | c :: d :: e :: rest => if d = ch '-' then (c, e) :: ranges rest else (c, c) :: ranges
    (d :: e :: rest)
  | c :: rest => (c, c) :: ranges rest
termination_by s => s.length

/-- The set that `stuff`, the text between the brackets, denotes. -/
def ofBrackets : Str → Glob
  | [] => set false []
  | c :: stuff => if c = ch '!' then set true (ranges stuff) else set false (ranges (c :: stuff))

/-- What stands before the `]` that closes a set, and what follows it.  A `]` that comes first, or
right after a `!`, belongs to the set. -/
def closeBracket : Str → Option (Str × Str)
  | s =>
    let bang := if startsWith s [ch '!'] then 1 else 0
    let first := if startsWith (s.drop bang) [ch ']'] then bang + 1 else bang
    let rest := s.drop first
    let body := rest.takeWhile (· != ch ']')
    if body.length < rest.length then some
      (s.take (first + body.length), rest.drop (body.length + 1))
    else none

/-- The items of a pattern; `fuel` bounds their number. -/
def parse : ℕ → Str → List Glob
  | 0, _ => []
  | _, [] => []
  | fuel + 1, c :: rest =>
    if c = ch '*' then star :: parse fuel rest
    else if c = ch '?' then any :: parse fuel rest
    else if c = ch '[' then
      match closeBracket rest with
      | some (stuff, after) => ofBrackets stuff :: parse fuel after
      | none => char c :: parse fuel rest
    else char c :: parse fuel rest

/-- Whether one character is what the item stands for. -/
def admits : Glob → CodePoint → Bool
  | star, _ => true
  | any, _ => true
  | char d, c => c == d
  | set negated rs, c => (rs.any fun r ↦ r.1 ≤ c && c ≤ r.2) != negated

/-- Whether the items match the whole text; a star is tried with every beginning of it. -/
def accepts : List Glob → Str → Bool
  | [], s => s.isEmpty
  | star :: rest, s => s.tails.any (accepts rest)
  | _ :: _, [] => false
  | item :: rest, c :: s => item.admits c && accepts rest s

end Glob

/-- `fnmatch.fnmatch(name, pattern)`, on a system whose file names are told apart by case. -/
def fnmatch (name pattern : Str) : Bool := Glob.accepts (Glob.parse pattern.length pattern) name

example : fnmatch (str "docs/a.md") (str "docs/*") = true := by decide

example : fnmatch (str "a-b") (str "[!x-z]-[]b]") = true := by decide +kernel

end Py
