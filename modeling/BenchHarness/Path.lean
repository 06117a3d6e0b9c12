import BenchHarness.Text.Pieces

/-!
# Path texts

A path is kept as the text it was written as. Its components are a view of that text: repeated
separators, inner `.` components and trailing separators do not show in it, a leading `.` and every
`..` do. Nothing here looks at a file system.
-/

namespace BenchHarness

namespace Path

/-- One step of a path. -/
inductive Component where
  | root
  | current
  | parent
  | normal (name : List Char)
  deriving DecidableEq, Repr

/-- The parts of a path text between its separators. -/
def pieces (path : List Char) : List (List Char) := Pieces.split '/' path

/-- Whether a part after the first names nothing. -/
def isBlank (piece : List Char) : Bool := piece = [] || piece = ['.']

/-- The component that a part stands for. -/
def Component.ofPiece (piece : List Char) : Component :=
  if piece = ['.', '.'] then .parent else if piece = ['.'] then .current else .normal piece

/-- The components of the parts after the first one. -/
def inner (rest : List (List Char)) : List Component :=
  (rest.filter (! isBlank ·)).map Component.ofPiece

/-- The components of a path given by its parts. -/
def componentsOf : List (List Char) → List Component
  | [] => []
  | [[]] => []
  | [] :: rest => .root :: inner rest
  | first :: rest => Component.ofPiece first :: inner rest

/-- The text of a component. -/
def Component.text : Component → List Char
  | .root => ['/']
  | .current => ['.']
  | .parent => ['.', '.']
  | .normal name => name

/-- What is left of a path below another, if it lies there. -/
def remainder? : (above path : List Component) → Option (List Component)
  | [], path => some path
  | _ :: _, [] => none
  | a :: above, b :: path => if a = b then remainder? above path else none

/-- The components of a path. -/
def components (path : String) : List Component := componentsOf (pieces path.toList)

/-- Whether a path starts at the root of the file system. -/
def isAbsolute (path : String) : Bool := path.toList.head? = some '/'

/-- Removes the parts at the end that name nothing. -/
def dropBlankEnd (rest : List (List Char)) : List (List Char) :=
  (rest.reverse.dropWhile isBlank).reverse

/-- The path without its last component, if it has one and it is not the root: the text up to the
end of the component before it. -/
def parent? (path : String) : Option String :=
  match pieces path.toList with
  | [] => none
  | first :: rest =>
    match rest.reverse.dropWhile isBlank with
    | [] => if first = [] then none else some ""
    | _ :: before =>
      let kept := dropBlankEnd before.reverse
      if first = [] ∧ kept = [] then some "/"
      else some (String.ofList (Pieces.glue '/' (first :: kept)))

/-- The last component, if it is a name. -/
def fileName? (path : String) : Option String :=
  match (components path).getLast? with
  | some (.normal name) => some (String.ofList name)
  | _ => none

/-- The path that `other` stands for when it is read from `base`: itself if it is absolute,
otherwise appended to `base` with a separator where one is needed. -/
def join (base other : String) : String :=
  if isAbsolute other then other
  else if base.toList = [] ∨ base.toList.getLast? = some '/' then base ++ other
  else base ++ "/" ++ other

/-- Whether two paths have the same components. -/
def same (p q : String) : Bool := components p = components q

end Path

end BenchHarness
