/-!
# Pieces between separators

A sequence is cut at every separator into one piece more than there are separators, and glued
together again.
-/

namespace BenchHarness.Pieces

variable {α : Type} [DecidableEq α]

/-- The pieces of a sequence between its separators. -/
def split (separator : α) : List α → List (List α)
  | [] => [[]]
  | a :: rest =>
    if a = separator then [] :: split separator rest
    else
      match split separator rest with
      | [] => [[a]]
      | first :: more => (a :: first) :: more

/-- Puts pieces together, one separator between neighbours. -/
def glue (separator : α) : List (List α) → List α
  | [] => []
  | [piece] => piece
  | piece :: rest => piece ++ separator :: glue separator rest

end BenchHarness.Pieces
