import BenchHarness.Shell.Pattern
import BenchHarness.Text.Pieces

/-!
# Text patterns

Regular expressions that are looked for in a line: in the basic form a backslash makes groups and
alternatives, in the extended form it takes their meaning away; a fixed pattern is plain text.
-/

namespace BenchHarness.Shell

/-- A text pattern. -/
inductive TextPattern where
  | empty
  | any
  | oneOf (negated : Bool) (ranges : List (Char × Char))
  | start
  | finish
  | sequence (first second : TextPattern)
  | choice (first second : TextPattern)
  /-- The body at least `least` times, and at most `most` times. -/
  | repeated (least : Nat) (most : Option Nat) (body : TextPattern)
  deriving Repr

namespace TextPattern

/-- The ways to write a pattern. -/
inductive Kind where
  | basic
  | extended
  | fixed
  deriving DecidableEq, Repr

/-- The pattern of one character. -/
def literal (c : Char) : TextPattern := .oneOf false [(c, c)]

/-- The pattern with its characters in lower case. -/
def lowered : TextPattern → TextPattern
  | .oneOf negated ranges => .oneOf negated (ranges.map fun (a, b) => (a.toLower, b.toLower))
  | .sequence p q => .sequence p.lowered q.lowered
  | .choice p q => .choice p.lowered q.lowered
  | .repeated least most p => .repeated least most p.lowered
  | p => p

/-! ## Reading -/

/-- The kinds of tokens that have a meaning of their own. -/
inductive Token where
  | literal (c : Char)
  | any
  | oneOf (negated : Bool) (ranges : List (Char × Char))
  | start
  | finish
  | opening
  | closing
  | bar
  | repeater (least : Nat) (most : Option Nat)
  deriving Repr

/-- The repetition that a text in braces asks for. -/
def countOf (s : Octets) : Nat × Option Nat :=
  match Pieces.split ',' s with
  | [n] => ((Octets.toNat? n).getD 0, Octets.toNat? n)
  | n :: m :: _ => ((Octets.toNat? n).getD 0, Octets.toNat? m)
  | [] => (0, none)

/-- The tokens of a pattern; the first argument bounds their number. At the first place a star is
literal, and in the basic form so is a caret anywhere else and a dollar sign before more. -/
def tokens (extended : Bool) : Nat → (first : Bool) → Octets → List Token
  | 0, _, _ => []
  | n + 1, first, s =>
    let go (t : Token) (rest : Octets) : List Token := t :: tokens extended n false rest
    let braces (closing : Octets) (rest : Octets) : List Token :=
      let inner := rest.takeWhile fun c => c.isDigit || c = ','
      let (least, most) := countOf inner
      go (.repeater least most) (rest.drop (inner.length + closing.length))
    match s with
    | [] => []
    | '.' :: rest => go .any rest
    | '*' :: rest => if first then go (.literal '*') rest else go (.repeater 0 none) rest
    | '^' :: rest => if extended || first then .start :: tokens extended n true rest
      else go (.literal '^') rest
    | '$' :: rest =>
      let atEnd := rest = [] || ['\\', ')'].isPrefixOf rest || ['\\', '|'].isPrefixOf rest
      if extended || atEnd then go .finish rest else go (.literal '$') rest
    | '[' :: rest =>
      let (negated, inner) := match rest with
        | '^' :: inner => (true, inner)
        | inner => (false, inner)
      match Pattern.ranges true (Glyph.ofOctets false inner) with
      | some (ranges, after) => go (.oneOf negated ranges) (after.map (·.char))
      | none => go (.literal '[') rest
    | '\\' :: c :: rest =>
      if extended then go (.literal c) rest
      else
        match c with
        | '(' => .opening :: tokens extended n true rest
        | ')' => go .closing rest
        | '|' => .bar :: tokens extended n true rest
        | '+' => go (.repeater 1 none) rest
        | '?' => go (.repeater 0 (some 1)) rest
        | '\x7b' => braces ['\\', '\x7d'] rest
        | c => go (.literal c) rest
    | c :: rest =>
      if ! extended then go (.literal c) rest
      else
        match c with
        | '(' => .opening :: tokens extended n true rest
        | ')' => go .closing rest
        | '|' => .bar :: tokens extended n true rest
        | '+' => go (.repeater 1 none) rest
        | '?' => go (.repeater 0 (some 1)) rest
        | '\x7b' => braces ['\x7d'] rest
        | c => go (.literal c) rest

/-- Reads alternatives up to a closing token: what has been read of the current one, and the last
element of it, are kept aside. The first argument bounds the number of steps. -/
def readTokens : Nat → (done last : TextPattern) → List Token → TextPattern × List Token
  | 0, done, last, ts => (.sequence done last, ts)
  | n + 1, done, last, ts =>
    let next (p : TextPattern) (rest : List Token) : TextPattern × List Token :=
      readTokens n (.sequence done last) p rest
    match ts with
    | [] => (.sequence done last, [])
    | .closing :: rest => (.sequence done last, rest)
    | .bar :: rest =>
      let (other, rest) := readTokens n .empty .empty rest
      (.choice (.sequence done last) other, rest)
    | .repeater least most :: rest => readTokens n done (.repeated least most last) rest
    | .opening :: rest =>
      let (inner, rest) := readTokens n .empty .empty rest
      next inner rest
    | .literal c :: rest => next (literal c) rest
    | .any :: rest => next .any rest
    | .oneOf negated ranges :: rest => next (.oneOf negated ranges) rest
    | .start :: rest => next .start rest
    | .finish :: rest => next .finish rest

/-- Reads a pattern; one line of it is enough to match. -/
def parse (kind : Kind) (source : Octets) : TextPattern :=
  let one (s : Octets) : TextPattern :=
    match kind with
    | .fixed => s.foldr (fun c p => .sequence (literal c) p) .empty
    | kind =>
      let ts := tokens (kind = .extended) (s.length + 1) true s
      (readTokens (2 * ts.length + 1) .empty .empty ts).1
  match (Pieces.split '\n' source).map one with
  | [] => .empty
  | p :: rest => rest.foldl .choice p

/-! ## Matching -/

/-- The places at which a match that starts at some place can end, without repeats; the first
argument bounds the number of repetitions. -/
def ends (fuel : Nat) (s : Array Char) : TextPattern → Nat → List Nat
  | .empty, i => [i]
  | .any, i => if i < s.size then [i + 1] else []
  | .oneOf negated ranges, i =>
    match s[i]? with
    | some c => if Pattern.accepts (.oneOf negated ranges) c then [i + 1] else []
    | none => []
  | .start, i => if i = 0 then [i] else []
  | .finish, i => if i = s.size then [i] else []
  | .sequence p q, i => ((ends fuel s p i).flatMap (ends fuel s q)).eraseDups
  | .choice p q, i => (ends fuel s p i ++ ends fuel s q i).eraseDups
  | .repeated least most p, i =>
    let step (places : List Nat) : List Nat := (places.flatMap (ends fuel s p)).eraseDups
    let after := (List.range least).foldl (fun places _ => step places) [i]
    let rounds := match most with
      | some m => m - least
      | none => fuel
    let grow (state : List Nat × List Nat) (_ : Nat) : List Nat × List Nat :=
      let fresh := (step state.2).filter (! state.1.contains ·)
      (state.1 ++ fresh, fresh)
    ((List.range rounds).foldl grow (after, after)).1

/-- The longest match that starts at some place, by its length. -/
def longest? (p : TextPattern) (s : Array Char) (i : Nat) : Option Nat :=
  match ends (s.size + 1) s p i with
  | [] => none
  | e :: es => some (es.foldl max e - i)

/-- Looks for matches from a place on, each by its start and length; the first argument bounds how
many places are looked at. -/
def matchesFrom (p : TextPattern) (s : Array Char) : Nat → Nat → List (Nat × Nat)
  | 0, _ => []
  | n + 1, i =>
    if s.size < i then []
    else
      match p.longest? s i with
      | some length => (i, length) :: matchesFrom p s n (i + max length 1)
      | none => matchesFrom p s n (i + 1)

/-- The matches in a line, none of which overlap. -/
def occurrences (p : TextPattern) (s : Octets) : List (Nat × Nat) :=
  matchesFrom p s.toArray (s.length + 1) 0

/-- Whether a pattern matches a whole line. -/
def isWhole (p : TextPattern) (s : Octets) : Bool :=
  (ends (s.length + 1) s.toArray p 0).contains s.length

end TextPattern

end BenchHarness.Shell
