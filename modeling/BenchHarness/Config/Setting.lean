import BenchHarness.Toml.Value

/-!
# Layered settings

Settings come from several sources. A later source is laid over an earlier one: tables are merged
key by key, everything else is replaced as a whole. A key at the top of a source is a path into the
settings, so that one line can reach a nested setting.
-/

namespace BenchHarness

/-- A setting. Lists and tables know the source they come from, if messages should name it. -/
inductive Setting where
  /-- A place in a list that nothing was put into. -/
  | unset
  | boolean (b : Bool)
  | integer (n : Int)
  | float (x : Toml.Float64)
  | text (s : String)
  | list (source : Option String) (items : List Setting)
  | table (source : Option String) (members : List (String × Setting))

namespace Setting

mutual

/-- A document's value as a setting from a source. -/
def ofValue (source : Option String) : Toml.Value → Setting
  | .string s => .text s
  | .integer n => .integer n
  | .float x => .float x
  | .boolean b => .boolean b
  | .moment s => .text s
  | .array _ items => .list source (ofItems source items)
  | .table _ members => .table source (ofMembers source members)

/-- Several values as settings. -/
def ofItems (source : Option String) : List Toml.Value → List Setting
  | [] => []
  | value :: rest => ofValue source value :: ofItems source rest

/-- Several named values as settings. -/
def ofMembers (source : Option String) : List (String × Toml.Value) → List (String × Setting)
  | [] => []
  | (key, value) :: rest => (key, ofValue source value) :: ofMembers source rest

end

/-- The setting of a key in a table. -/
def find? (members : List (String × Setting)) (key : String) : Option Setting := members.lookup key

/-- Gives a key a setting, in its place or at the end. -/
def put (key : String) (value : Setting) : List (String × Setting) → List (String × Setting)
  | [] => [(key, value)]
  | (k, v) :: rest => if k = key then (k, value) :: rest else (k, v) :: put key value rest

/-- The setting as a table: itself, or an empty table if it is none. -/
def asTable : Setting → Option String × List (String × Setting)
  | .table source members => (source, members)
  | _ => (none, [])

/-! ## Merging -/

mutual

/-- Lays a setting over an old one. -/
def overlay (old : Setting) : Setting → Setting
  | .table _ members => .table old.asTable.1 (overlayMembers old.asTable.2 members)
  | new => new

/-- Lays the settings of a table over old ones, key by key. -/
def overlayMembers (old : List (String × Setting)) :
    List (String × Setting) → List (String × Setting)
  | [] => old
  | (key, new) :: rest =>
    overlayMembers (put key (overlay ((find? old key).getD .unset) new) old) rest

end

/-! ## Key paths -/

/-- A step into a setting. -/
inductive KeyStep where
  | key (name : String)
  /-- A position in a list, counted from its end if it is negative. -/
  | index (n : Int)
  deriving DecidableEq, Repr

/-- A place in a list: the list made long enough, and the position. -/
def listPlace (n : Int) (items : List Setting) : List Setting × Nat :=
  if 0 ≤ n then (items ++ List.replicate (n.toNat + 1 - items.length) .unset, n.toNat)
  else if n.natAbs ≤ items.length then (items, items.length - n.natAbs)
  else (List.replicate (n.natAbs - items.length) .unset ++ items, 0)

/-- Changes the setting at the end of some steps. Whatever stands in the way is replaced by a table
or a list that has the place. -/
def changeAt (f : Setting → Setting) : List KeyStep → Setting → Setting
  | [], s => f s
  | .key name :: rest, s =>
    let (source, members) := s.asTable
    .table source (put name (changeAt f rest ((find? members name).getD .unset)) members)
  | .index n :: rest, s =>
    let (source, items) := match s with
      | .list source items => (source, items)
      | _ => (none, [])
    let (items, place) := listPlace n items
    .list source (items.set place (changeAt f rest (items[place]?.getD .unset)))

/-- Whether a character may stand in a key of a path. -/
def isPathChar (c : Char) : Bool := c.isAlphanum || c = '_' || c = '-'

/-- A key at the front of a path. -/
def takeKey (s : List Char) : Option (String × List Char) :=
  let front := s.takeWhile isPathChar
  if front = [] then none else some (String.ofList front, s.dropWhile isPathChar)

/-- A whole number at the front of a path. -/
def takeIndex (s : List Char) : Option (Int × List Char) :=
  let (isNegative, s) := match s with
    | '-' :: rest => (true, rest)
    | _ => (false, s)
  let digits := s.takeWhile Char.isDigit
  let n : Nat := digits.foldl (fun n c => n * 10 + (c.toNat - 48)) 0
  if digits = [] ∨ Nat.pow 2 63 ≤ n then none
  else some (if isNegative then -(n : Int) else (n : Int), s.dropWhile Char.isDigit)

/-- Drops blanks inside brackets. -/
def skipBlank (s : List Char) : List Char := s.dropWhile fun c => c = ' ' || c = '\t'

/-- The steps after the first key of a path. -/
def takeSteps : (fuel : Nat) → List Char → Option (List KeyStep)
  | 0, _ => none
  | _ + 1, [] => some []
  | fuel + 1, c :: rest =>
    if c = '.' then do
      let (name, rest) ← takeKey rest
      let steps ← takeSteps fuel rest
      some (.key name :: steps)
    else if c = '[' then do
      let (n, rest) ← takeIndex (skipBlank rest)
      match skipBlank rest with
      | ']' :: rest =>
        let steps ← takeSteps fuel rest
        some (.index n :: steps)
      | _ => none
    else none

/-- The steps that a key at the top of a source stands for: a path if it reads as one, otherwise the
key itself. -/
def keyPath (key : String) : List KeyStep :=
  let path := do
    let (name, rest) ← takeKey key.toList
    let steps ← takeSteps (rest.length + 1) rest
    some (KeyStep.key name :: steps)
  path.getD [.key key]

/-- Lays the settings of a source over old ones, its keys being paths. -/
def overlaySource (old : Setting) (members : List (String × Setting)) : Setting :=
  members.foldl (fun old (key, new) => changeAt (overlay · new) (keyPath key) old) old

end Setting

end BenchHarness
