import BenchHarness.Decimal.Shortest
import BenchHarness.Text.Search

/-!
# TOML values

A document is a table. Tables and arrays remember how they were written, because that decides
whether a later line may add to them.
-/

namespace BenchHarness.Toml

/-- A floating-point number. -/
inductive Float64 where
  | finite (isNegative : Bool) (magnitude : Binary64)
  | infinite (isNegative : Bool)
  | notANumber
  deriving DecidableEq, Repr

/-- A number in a given style. -/
def Float64.text (style : DecimalStyle) : Float64 → String
  | .finite isNegative x => style.text isNegative x
  | .infinite isNegative => if isNegative then "-inf" else "inf"
  | .notANumber => "NaN"

/-- How a table was written. -/
inductive TableOrigin where
  /-- Only as a part of the name of another table. -/
  | implied
  /-- With a header of its own. -/
  | header
  /-- As a part of dotted keys. -/
  | dotted
  /-- In braces. -/
  | inlined
  deriving DecidableEq, Repr

/-- A value. -/
inductive Value where
  | string (text : String)
  | integer (n : Int)
  | float (x : Float64)
  | boolean (b : Bool)
  /-- A date, a time or both, as written out. -/
  | moment (text : String)
  /-- An array; `ofTables` if it is made of tables with double-bracket headers. -/
  | array (ofTables : Bool) (items : List Value)
  | table (origin : TableOrigin) (members : List (String × Value))

/-- The members of a table. -/
abbrev Members := List (String × Value)

namespace Members

/-- The value of a key. -/
def find? (members : Members) (key : String) : Option Value := members.lookup key

/-- Gives a key a value, in its place or at the end. -/
def put (key : String) (value : Value) : Members → Members
  | [] => [(key, value)]
  | (k, v) :: rest => if k = key then (k, value) :: rest else (k, v) :: put key value rest

end Members

/-! ## Defining keys -/

/-- Defines a dotted key below a table. The tables on the way are made if they are missing, and may
not have a header or braces of their own; of an array of tables the last one is meant, but it must
not be the table that the last part goes into. The last part must be new. -/
def defineKey (value : Value) : List String → Members → Option Members
  | [], _ => none
  | [key], members =>
    match members.find? key with
    | none => some (members.put key value)
    | some _ => none
  | key :: more, members =>
    match members.find? key with
    | none => (defineKey value more []).map fun inner => members.put key (.table .dotted inner)
    | some (.table origin inner) =>
      if origin = .implied ∨ origin = .dotted then
        (defineKey value more inner).map fun inner => members.put key (.table origin inner)
      else none
    | some (.array true items) =>
      match items.getLast? with
      | some (.table origin inner) =>
        if more.length < 2 then none
        else (defineKey value more inner).map fun inner =>
          members.put key (.array true (items.dropLast ++ [.table origin inner]))
      | _ => none
    | some _ => none

/-- Changes the members of the table that a header names, starting below the root. The tables on the
way are made if they are missing, and of an array of tables the last one is meant. -/
def within (change : Members → Option Members) : List String → Members → Option Members
  | [], members => change members
  | key :: more, members =>
    match members.find? key with
    | none => (within change more []).map fun inner => members.put key (.table .implied inner)
    | some (.table .inlined _) => none
    | some (.table origin inner) =>
      (within change more inner).map fun inner => members.put key (.table origin inner)
    | some (.array true items) =>
      match items.getLast? with
      | some (.table origin inner) =>
        (within change more inner).map fun inner =>
          members.put key (.array true (items.dropLast ++ [.table origin inner]))
      | _ => none
    | some _ => none

/-- Opens a table by its header: it must be new, or only implied so far. Its place in the order is
that of its header. -/
def openTable (key : String) (members : Members) : Option Members :=
  match members.find? key with
  | none => some (members.put key (.table .header []))
  | some (.table .implied inner) =>
    some (members.filter (·.1 ≠ key) ++ [(key, .table .header inner)])
  | some _ => none

/-- Adds a table to an array of tables by its header. -/
def openElement (key : String) (members : Members) : Option Members :=
  match members.find? key with
  | none => some (members.put key (.array true [.table .header []]))
  | some (.array true items) => some (members.put key (.array true (items ++ [.table .header []])))
  | some _ => none

end BenchHarness.Toml
