/-!
# Styled text

Output is built as a list of spans, each a text with a style. A style that is not plain wraps its
text in SGR sequences and a reset; alignment is part of the text, so it is the same with and without
colour.
-/

namespace BenchHarness

/-- How a span looks: the parameters of its SGR sequences, none of them for plain text. -/
structure Style where
  sequences : List (List Nat)
  deriving DecidableEq, Repr

namespace Style

/-- No decoration. -/
def plain : Style := ⟨[]⟩

/-- Bold text. -/
def bold : Style := ⟨[[1]]⟩

/-- Bold text in one of the eight basic colours. -/
def boldColour (foreground : Nat) : Style := ⟨[[30 + foreground, 1]]⟩

def boldRed : Style := boldColour 1
def boldGreen : Style := boldColour 2
def boldYellow : Style := boldColour 3
def boldBlue : Style := boldColour 4
def boldCyan : Style := boldColour 6

/-- The sequences that switch a style on. -/
def opening (s : Style) : String :=
  String.join (s.sequences.map fun parameters =>
    "\x1b[" ++ ";".intercalate (parameters.map toString) ++ "m")

/-- The sequence that switches every style off. -/
def closing : String := "\x1b[0m"

/-- A text in this style. -/
def paint (s : Style) (text : String) : String :=
  if s.sequences.isEmpty then text else s.opening ++ text ++ closing

end Style

/-- A text and how it looks. -/
structure Span where
  style : Style
  text : String
  deriving DecidableEq, Repr

/-- Text made of spans, in order. -/
abbrev Styled := List Span

/-- Undecorated text as a span. -/
def Span.plain (text : String) : Span := ⟨.plain, text⟩

/-- The span with its SGR sequences. -/
def Span.render (s : Span) : String := s.style.paint s.text

namespace Styled

/-- The whole text with its SGR sequences. -/
def render (t : Styled) : String := String.join (t.map Span.render)

/-- The whole text without any decoration. -/
def bare (t : Styled) : String := String.join (t.map Span.text)

end Styled

namespace Text

/-- Pads a text on the left to a width in characters. -/
def alignRight (width : Nat) (text : String) : String :=
  "".pushn ' ' (width - text.length) ++ text

/-- Pads a text on the right to a width in characters. -/
def alignLeft (width : Nat) (text : String) : String :=
  text ++ "".pushn ' ' (width - text.length)

end Text

end BenchHarness
