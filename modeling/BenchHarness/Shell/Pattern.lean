import BenchHarness.Text.Octets

/-!
# Patterns

A pattern is matched against a whole text: `?` stands for any character, `*` for any text, and
brackets for one character of a class. Quoted characters stand for themselves.
-/

namespace BenchHarness.Shell

/-- A character of a field, and whether it was quoted. -/
structure Glyph where
  char : Char
  quoted : Bool
  deriving DecidableEq, Repr

/-- The glyphs of some text. -/
def Glyph.ofOctets (quoted : Bool) (s : Octets) : List Glyph := s.map (⟨·, quoted⟩)

/-- An element of a pattern. -/
inductive PatternElement where
  | literal (c : Char)
  | anyCharacter
  | anyText
  /-- One character in, or with `negated` outside, some ranges. -/
  | oneOf (negated : Bool) (ranges : List (Char × Char))
  deriving DecidableEq, Repr

/-- A pattern. -/
abbrev Pattern := List PatternElement

namespace Pattern

/-- The ranges of a class up to its closing bracket, and what follows it. A closing bracket that
comes first belongs to the class. -/
def ranges (first : Bool) : List Glyph → Option (List (Char × Char) × List Glyph)
  | [] => none
  | ⟨c, quoted⟩ :: rest =>
    let single := (ranges false rest).map fun (rs, after) => ((c, c) :: rs, after)
    if c = ']' ∧ ! quoted ∧ ! first then some ([], rest)
    else if rest.head? ≠ some ⟨'-', false⟩ then single
    else
      match (rest.drop 1).head? with
      | none => single
      | some ⟨d, quoted'⟩ =>
        if d = ']' ∧ ! quoted' then single
        else (ranges false (rest.drop 2)).map fun (rs, after) => ((c, d) :: rs, after)
  termination_by glyphs => glyphs.length
  decreasing_by all_goals simp only [List.length_cons, List.length_drop]; omega

/-- The pattern of some glyphs; the first argument bounds its length. -/
def ofGlyphsWithin : Nat → List Glyph → Pattern
  | 0, _ => []
  | _, [] => []
  | n + 1, ⟨c, quoted⟩ :: rest =>
    let plain := .literal c :: ofGlyphsWithin n rest
    if quoted then plain
    else if c = '?' then .anyCharacter :: ofGlyphsWithin n rest
    else if c = '*' then .anyText :: ofGlyphsWithin n rest
    else if c = '[' then
      let (negated, inner) := match rest with
        | ⟨'!', false⟩ :: inner => (true, inner)
        | ⟨'^', false⟩ :: inner => (true, inner)
        | inner => (false, inner)
      match ranges true inner with
      | some (rs, after) => .oneOf negated rs :: ofGlyphsWithin n after
      | none => plain
    else plain

/-- The pattern of some glyphs. -/
def ofGlyphs (glyphs : List Glyph) : Pattern := ofGlyphsWithin glyphs.length glyphs

/-- Whether an element matches a character. -/
def accepts (e : PatternElement) (c : Char) : Bool :=
  match e with
  | .literal d => c = d
  | .anyCharacter => true
  | .anyText => true
  | .oneOf negated rs => (rs.any fun (low, high) => low ≤ c && c ≤ high) != negated

/-- A text and what is left of it when more and more is taken off its start. -/
def remainders : Octets → List Octets
  | [] => [[]]
  | c :: rest => (c :: rest) :: remainders rest

/-- The texts that are left of a text, when the element is taken off its start. -/
def rests (e : PatternElement) (s : Octets) : List Octets :=
  match e, s with
  | .anyText, s => remainders s
  | _, [] => []
  | e, c :: rest => if accepts e c then [rest] else []

/-- Whether a pattern matches the whole of a text. -/
def isMatch : Pattern → Octets → Bool
  | [], s => s = []
  | e :: p, s => (rests e s).any (isMatch p)

/-- Whether a pattern can match more than one text. -/
def isOpen (p : Pattern) : Bool :=
  p.any fun
    | .literal _ => false
    | _ => true

/-- What is left of a text without a part at its start that a pattern matches. -/
def trimStart (longest : Bool) (p : Pattern) (s : Octets) : Octets :=
  let cuts := (List.range (s.length + 1)).filter fun n => isMatch p (s.take n)
  match if longest then cuts.getLast? else cuts.head? with
  | some n => s.drop n
  | none => s

/-- What is left of a text without a part at its end that a pattern matches. -/
def trimEnd (longest : Bool) (p : Pattern) (s : Octets) : Octets :=
  let cuts := (List.range (s.length + 1)).filter fun n => isMatch p (s.drop n)
  match if longest then cuts.head? else cuts.getLast? with
  | some n => s.take n
  | none => s

end Pattern

end BenchHarness.Shell
